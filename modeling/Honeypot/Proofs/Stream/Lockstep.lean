import Honeypot.Stream.LineFeed
import Honeypot.Proofs.Stream.Alike

/-!
# Streams in lockstep

Two streams are in lockstep if they answer every call alike, on plumbings that are related before
it and after it. The plumbings may differ in what no answer depends on. Whatever is done with
whole buffers, lines and line feeds over the one stream then goes alike over the other.

* `Sink.Lockstep`, `Source.Lockstep`, `Duplex.Lockstep`: streams all of whose calls are alike.
* `Sink.Lockstep.writeAll`, `Sink.Lockstep.lineFeeds`, `Source.Lockstep.readLine`, …: what follows
  for the calls made over them.
-/

namespace Honeypot

variable {σ ρ : Type} [Supply σ] [Supply ρ]

/-! ## Calls in a form without measures -/

namespace Sink

/-- A whole buffer goes on after its first call. -/
theorem writeAll_of_ne_nil (sink : Sink σ) {bytes : Bytes} (h : bytes ≠ []) (s : σ) :
    sink.writeAll bytes s =
      match sink.write bytes s with
      | (.ok 0, s') => (.error .writeZero, s')
      | (.ok (n + 1), s') => sink.writeAll (bytes.drop (n + 1)) s'
      | (.error fault, s') =>
        if fault = .interrupted then sink.writeAll bytes s' else (.error fault, s') := by
  rw [writeAll, if_neg h]
  split <;> simp_all

@[simp]
theorem writeAll_nil (sink : Sink σ) (s : σ) : sink.writeAll [] s = (.ok (), s) := by
  rw [writeAll, if_pos rfl]

end Sink

namespace Source

/-- Reading everything goes on after its first call. -/
theorem readAll_eq (source : Source σ) (s : σ) :
    source.readAll s =
      match source.read bufferSize s with
      | (.ok [], s') => (.ok [], s')
      | (.ok (byte :: bytes), s') =>
        match source.readAll s' with
        | (.ok more, s'') => (.ok (byte :: bytes ++ more), s'')
        | (.error fault, s'') => (.error fault, s'')
      | (.error fault, s') =>
        if fault = .interrupted then source.readAll s' else (.error fault, s') := by
  rw [readAll]
  split
  · next hr => rw [hr]
  · next hr => exact hr ▸ rfl
  · next hr => rw [hr]

/-- Reading a line goes on after its first call. -/
theorem readLineAfter_eq (source : Source σ) (typed : Bytes) (s : σ) :
    source.readLineAfter typed s =
      match source.read 1 s with
      | (.ok [], s') => (.ok (if typed = [] then none else some typed.reverse), s')
      | (.ok (byte :: _), s') =>
        if byte = lineFeed then (.ok (some typed.reverse), s')
        else source.readLineAfter (byte :: typed) s'
      | (.error fault, s') =>
        if fault = .interrupted then source.readLineAfter typed s' else (.error fault, s') := by
  rw [readLineAfter]
  split
  · next hr => rw [hr]
  · next hr => rw [hr]
  · next hr => rw [hr]

end Source

/-! ## Sinks -/

/-- Sinks that answer every call alike. -/
structure Sink.Lockstep (R : σ → ρ → Prop) (one : Sink σ) (other : Sink ρ) : Prop where
  write : ∀ bytes, Alike R (one.write bytes) (other.write bytes)
  flush : Alike R one.flush other.flush

namespace Sink.Lockstep

variable {R : σ → ρ → Prop} {one : Sink σ} {other : Sink ρ}

/-- Sinks in lockstep take whole buffers alike. -/
theorem writeAll (h : Lockstep R one other) (bytes : Bytes) :
    Alike R (one.writeAll bytes) (other.writeAll bytes) := by
  intro s t hst
  -- The one sink leads. The other gives the same answer to every call, and so does not fall behind.
  fun_induction one.writeAll bytes s generalizing t with
  | case1 =>
    rw [writeAll_nil]
    exact ⟨rfl, hst⟩
  | case2 bytes s hne s' hw =>
    obtain ⟨t', hother, hrelated⟩ := (h.write bytes).of_eq hst hw
    rw [other.writeAll_of_ne_nil hne, hother]
    exact ⟨rfl, hrelated⟩
  | case3 bytes s hne n s' hw ih =>
    obtain ⟨t', hother, hrelated⟩ := (h.write bytes).of_eq hst hw
    rw [other.writeAll_of_ne_nil hne, hother]
    exact ih t' hrelated
  | case4 bytes s hne s' hw ih =>
    obtain ⟨t', hother, hrelated⟩ := (h.write bytes).of_eq hst hw
    rw [other.writeAll_of_ne_nil hne, hother]
    exact ih t' hrelated
  | case5 bytes s hne fault s' hw hfault =>
    obtain ⟨t', hother, hrelated⟩ := (h.write bytes).of_eq hst hw
    rw [other.writeAll_of_ne_nil hne, hother]
    dsimp only
    rw [if_neg hfault]
    exact ⟨rfl, hrelated⟩

/-- Sinks in lockstep take buffers one after the other alike. -/
theorem writeParts (h : Lockstep R one other) (parts : List Bytes) :
    Alike R (one.writeParts parts) (other.writeParts parts) :=
  Alike.writeParts h.writeAll parts

/-- Sinks in lockstep take buffers with translated line feeds alike. -/
theorem translate (h : Lockstep R one other) (bytes : Bytes) :
    Alike R (one.translate bytes) (other.translate bytes) := by
  intro s t hst
  -- The induction follows the one sink. The other one answers each of its calls alike.
  fun_induction one.translate bytes s generalizing t with
  | case1 =>
    rw [Sink.translate]
    exact ⟨rfl, hst⟩
  | case2 s rest s' hw through ih =>
    obtain ⟨t', hother, hrelated⟩ := (h.writeAll lineEnd).of_eq hst hw
    obtain ⟨hthrough, hlater⟩ := ih t' hrelated
    rw [Sink.translate, if_pos rfl, hother]
    refine ⟨?_, hlater⟩
    dsimp only [through]
    rw [hthrough]
  | case3 s rest fault s' hw =>
    obtain ⟨t', hother, hrelated⟩ := (h.writeAll lineEnd).of_eq hst hw
    rw [Sink.translate, if_pos rfl, hother]
    exact ⟨rfl, hrelated⟩
  | case4 s byte rest hne s' hw =>
    obtain ⟨t', hother, hrelated⟩ := (h.write _).of_eq hst hw
    rw [Sink.translate, if_neg hne, hother]
    exact ⟨rfl, hrelated⟩
  | case5 s byte rest hne n s' hw through ih =>
    obtain ⟨t', hother, hrelated⟩ := (h.write _).of_eq hst hw
    obtain ⟨hthrough, hlater⟩ := ih t' hrelated
    rw [Sink.translate, if_neg hne, hother]
    refine ⟨?_, hlater⟩
    dsimp only [through]
    rw [hthrough]
  | case6 s byte rest hne fault s' hw =>
    obtain ⟨t', hother, hrelated⟩ := (h.write _).of_eq hst hw
    rw [Sink.translate, if_neg hne, hother]
    exact ⟨rfl, hrelated⟩

/-- Sinks that translate line feeds on the way to sinks in lockstep are in lockstep. -/
theorem lineFeeds (h : Lockstep R one other) : Lockstep R one.lineFeeds other.lineFeeds where
  write bytes s t hst := by
    obtain ⟨hthrough, hrelated⟩ := h.translate bytes s t hst
    exact ⟨congrArg reported hthrough, hrelated⟩
  flush := h.flush

end Sink.Lockstep

/-! ## Sources -/

/-- Sources that answer every call alike. -/
structure Source.Lockstep (R : σ → ρ → Prop) (one : Source σ) (other : Source ρ) : Prop where
  read : ∀ most, Alike R (one.read most) (other.read most)

namespace Source.Lockstep

variable {R : σ → ρ → Prop} {one : Source σ} {other : Source ρ}

/-- Sources in lockstep give everything alike. -/
theorem readAll (h : Lockstep R one other) : Alike R one.readAll other.readAll := by
  intro s t hst
  -- The induction follows the one source. The other one answers each of its reads alike.
  fun_induction one.readAll s generalizing t with
  | case1 s s' hr =>
    obtain ⟨t', hother, hrelated⟩ := (h.read bufferSize).of_eq hst hr
    rw [other.readAll_eq, hother]
    exact ⟨rfl, hrelated⟩
  | case2 s byte bytes s' hr more s'' ha ih =>
    obtain ⟨t', hother, hrelated⟩ := (h.read bufferSize).of_eq hst hr
    obtain ⟨t'', hrest, hlater⟩ := exists_eq_of_alike (ih t' hrelated) ha
    rw [other.readAll_eq, hother]
    dsimp only
    rw [hrest]
    exact ⟨rfl, hlater⟩
  | case3 s byte bytes s' hr fault s'' ha ih =>
    obtain ⟨t', hother, hrelated⟩ := (h.read bufferSize).of_eq hst hr
    obtain ⟨t'', hrest, hlater⟩ := exists_eq_of_alike (ih t' hrelated) ha
    rw [other.readAll_eq, hother]
    dsimp only
    rw [hrest]
    exact ⟨rfl, hlater⟩
  | case4 s s' hr ih =>
    obtain ⟨t', hother, hrelated⟩ := (h.read bufferSize).of_eq hst hr
    rw [other.readAll_eq, hother]
    exact ih t' hrelated
  | case5 s fault s' hr hfault =>
    obtain ⟨t', hother, hrelated⟩ := (h.read bufferSize).of_eq hst hr
    rw [other.readAll_eq, hother]
    dsimp only
    rw [if_neg hfault]
    exact ⟨rfl, hrelated⟩

/-- Sources in lockstep give the rest of a line alike. -/
theorem readLineAfter (h : Lockstep R one other) (typed : Bytes) :
    Alike R (one.readLineAfter typed) (other.readLineAfter typed) := by
  intro s t hst
  -- Read by read: the answers are the same, so the line ends at the same time.
  fun_induction one.readLineAfter typed s generalizing t with
  | case1 typed s s' hr =>
    obtain ⟨t', hother, hrelated⟩ := (h.read 1).of_eq hst hr
    rw [other.readLineAfter_eq, hother]
    exact ⟨rfl, hrelated⟩
  | case2 typed s bytes s' hr =>
    obtain ⟨t', hother, hrelated⟩ := (h.read 1).of_eq hst hr
    rw [other.readLineAfter_eq, hother]
    exact ⟨rfl, hrelated⟩
  | case3 typed s byte bytes s' hr hbyte ih =>
    obtain ⟨t', hother, hrelated⟩ := (h.read 1).of_eq hst hr
    rw [other.readLineAfter_eq, hother]
    dsimp only
    rw [if_neg hbyte]
    exact ih t' hrelated
  | case4 typed s s' hr ih =>
    obtain ⟨t', hother, hrelated⟩ := (h.read 1).of_eq hst hr
    rw [other.readLineAfter_eq, hother]
    exact ih t' hrelated
  | case5 typed s fault s' hr hfault =>
    obtain ⟨t', hother, hrelated⟩ := (h.read 1).of_eq hst hr
    rw [other.readLineAfter_eq, hother]
    dsimp only
    rw [if_neg hfault]
    exact ⟨rfl, hrelated⟩

/-- Sources in lockstep give lines alike. -/
theorem readLine (h : Lockstep R one other) : Alike R one.readLine other.readLine :=
  h.readLineAfter []

end Source.Lockstep

/-! ## Both ways -/

/-- Streams that answer every call alike, both ways. -/
structure Duplex.Lockstep (R : σ → ρ → Prop) (one : Duplex σ) (other : Duplex ρ) : Prop where
  source : one.source.Lockstep R other.source
  sink : one.sink.Lockstep R other.sink

end Honeypot
