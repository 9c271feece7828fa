import Mathlib.Logic.Function.Iterate
import Honeypot.Proofs.Stream.Arrival
import Honeypot.Proofs.Stream.Counting

/-!
# Layers of translation

A sink that translates line feeds may have another one behind it. Its calls then meet counts that
are those of a buffer, and not of what was taken in the end, and disturbances that are swallowed
after some progress. Over a sink that always goes on, however many layers there are, and however a
text is cut into buffers, each layer translates the whole text once.

* `Sink.Obliging`: sinks that take something of every offer or are disturbed.
* `Sink.Obliging.noted`: what is taken of offers to such a sink is all that counts.
* `Sink.Obliging.delivers_translated`: what is taken of a text that goes through layers.

## References

- [SPEC] `SPEC_FULL.md`: §4.3, Terminal Output Adapter
-/

namespace Honeypot

variable {σ ρ V : Type} [Supply σ] [Supply ρ]

open Offers

/-! ## Layers -/

namespace Sink

variable {sink : Sink σ}

/-- Layers of translation work towards as many translations. -/
theorem Meets.layered {ok : σ → Prop} {view : σ → V} {intake : Intake V}
    (h : sink.Meets ok view intake) (layers : ℕ) :
    (Sink.lineFeeds^[layers] sink).Meets ok view (Intake.lineFeeds^[layers] intake) := by
  induction layers with
  | zero => exact h
  | succ layers ih =>
    rw [Function.iterate_succ_apply', Function.iterate_succ_apply']
    exact ih.lineFeeds

/-- Layers of translation over sinks in lockstep are in lockstep. -/
theorem Lockstep.layered {R : σ → ρ → Prop} {other : Sink ρ} (h : sink.Lockstep R other)
    (layers : ℕ) : (Sink.lineFeeds^[layers] sink).Lockstep R (Sink.lineFeeds^[layers] other) := by
  induction layers with
  | zero => exact h
  | succ layers ih =>
    rw [Function.iterate_succ_apply', Function.iterate_succ_apply']
    exact ih.lineFeeds

end Sink

/-- The outermost layer translates first. -/
theorem Intake.put_layered (layers : ℕ) (bytes arrived : Bytes) :
    (Intake.lineFeeds^[layers] Intake.all).put bytes arrived =
      (.ok (), arrived ++ Sink.translated^[layers] bytes) := by
  induction layers generalizing bytes with
  | zero => rfl
  | succ layers ih =>
    rw [Function.iterate_succ_apply', Function.iterate_succ_apply]
    exact ih (Sink.translated bytes)

/-! ## Sinks that always go on -/

namespace Sink

/-- A sink that takes something of every offer or is disturbed, and that still does so after it. -/
def Obliging (sink : Sink σ) (working : σ → Prop) : Prop :=
  ∀ bytes s, bytes ≠ [] → working s → working (sink.write bytes s).2 ∧
    ((∃ n, 0 < n ∧ (sink.write bytes s).1 = .ok n) ∨ (sink.write bytes s).1 = .error .interrupted)

/-- A sink at whose end everything arrives is obliging. -/
theorem Meets.obliging {sink : Sink σ} {working : σ → Prop} {view : σ → Bytes}
    (h : sink.Meets working view Intake.all) : sink.Obliging working := by
  intro bytes s hne hs
  obtain ⟨hworking, hmeets⟩ := h bytes s hne hs
  refine ⟨hworking, ?_⟩
  cases hanswer : (sink.write bytes s).1 with
  | ok n =>
    rw [hanswer] at hmeets
    exact .inl ⟨n, hmeets.1, rfl⟩
  | error fault =>
    rw [hanswer, Intake.Meets] at hmeets
    split at hmeets
    · next hfault => exact .inr (congrArg _ hfault)
    · -- Everything arrives, so it does not come to a fault.
      simp [Intake.all] at hmeets

namespace Obliging

variable {sink : Sink σ} {working : σ → Prop}

/-- What was taken of the offers to an obliging sink grows towards the whole buffer. -/
theorem noted (h : sink.Obliging working) :
    sink.noted.Meets (fun s => working s.1) (fun s => taken s.2) Intake.all := by
  intro bytes s hne hs
  obtain ⟨hworking, hanswer⟩ := h bytes s.1 hne hs
  refine ⟨hworking, ?_⟩
  show Intake.all.Meets bytes (taken s.2) (taken (s.2 ++ [⟨bytes, (sink.write bytes s.1).1⟩]))
    (sink.write bytes s.1).1
  rcases hanswer with ⟨n, hpos, hanswer⟩ | hanswer
  · have hnow : taken [⟨bytes, .ok n⟩] = bytes.take n := List.append_nil _
    rw [hanswer, taken_append, hnow]
    refine ⟨hpos, ?_⟩
    show (Except.ok (), _) = (Except.ok (), _)
    rw [List.append_assoc, List.take_append_drop]
  · have hnow : taken [⟨bytes, .error .interrupted⟩] = [] := rfl
    rw [hanswer, taken_append, hnow, List.append_nil, Intake.Meets, if_pos rfl]

/-- A text that is written buffer by buffer through layers of translation over an obliging sink, one
layer and two among them. However the text is cut, and however the sink cuts what it is offered or
is disturbed, every buffer goes through, and what the sink takes is the text, translated once by
each layer. Noting the offers changes nothing. -/
theorem delivers_translated (h : sink.Obliging working) (layers : ℕ) (chunks : List Bytes) {s : σ}
    (hs : working s) :
    let run := (Sink.lineFeeds^[layers] sink.noted).writeParts chunks (s, [])
    (run.1, run.2.1) = (Sink.lineFeeds^[layers] sink).writeParts chunks s ∧
      run.1 = .ok () ∧ taken run.2.2 = translated^[layers] chunks.flatten := by
  intro run
  obtain ⟨hanswer, hstate⟩ :=
    (sink.noted_lockstep.layered layers).writeParts chunks (s, []) s rfl
  obtain ⟨hok, -, htaken⟩ := (h.noted.layered layers).writeParts chunks (s, []) [] ⟨hs, rfl⟩
  rw [Intake.put_layered] at hok htaken
  exact ⟨Prod.ext hanswer hstate, hok, htaken⟩

theorem delivers_translated_twice :
    let wiring : Wiring := { output := { script := [.fail .interrupted, .accept 1,
      .fail .interrupted, .accept 1, .accept 1, .fail .interrupted, .accept 2] } }
    let chunks : List Bytes := [[0x61, 0x0A], [], [0x0A, 0x62]]
    let run := (Sink.lineFeeds^[2] (Wiring.sink .output).noted).writeParts chunks (wiring, [])
    Wiring.Working .output wiring ∧ (Wiring.sink .output).Obliging (Wiring.Working .output) ∧
      run.1 = .ok () ∧ taken run.2.2 = translated (translated [0x61, 0x0A, 0x0A, 0x62]) ∧
      taken run.2.2 = [0x61, 0x0D, 0x0D, 0x0A, 0x0D, 0x0D, 0x0A, 0x62] := by
  intro wiring chunks run
  have hworking : Wiring.Working .output wiring :=
    ⟨⟨by simp [Wiring.outlet, wiring, Reaction.IsPatient], rfl, rfl⟩, rfl⟩
  have hobliging : (Wiring.sink .output).Obliging (Wiring.Working .output) :=
    (Wiring.steady_sink_of_neverFails .output).meets.obliging
  obtain ⟨-, hok, htaken⟩ := hobliging.delivers_translated 2 chunks hworking
  exact ⟨hworking, hobliging, hok, htaken, htaken.trans (by decide)⟩

end Obliging

end Sink

end Honeypot
