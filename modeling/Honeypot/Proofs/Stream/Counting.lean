import Honeypot.Proofs.Stream.Accord
import Honeypot.Proofs.Stream.Calls

/-!
# What a translated write counts

A write through a sink that translates line feeds answers with a number of the caller's bytes, while
the sink behind it takes other bytes, in offers of its own choosing. Each of these offers may be
taken in part or not at all. Here the number is compared with what was really taken.

* `Offer`, `Sink.noted`: offers to a sink with what became of them, and a sink that notes them.
* `Offers.taken`, `Offers.stop`: the bytes that were taken of offers, and the refusal that they
  ended with.
* `Offers.Made`, `Sink.writeAll_made`: the offers for a whole buffer, and that no others are made.
* `Sink.Carried`, `Sink.translate_noted`: what is taken of a buffer on its way through the
  translation.
* `Sink.lineFeeds_write_counts`: the number that a write answers with, and what was taken.

## References

- [SPEC] `SPEC_FULL.md`: §4.3, Terminal Output Adapter; §8, Testable Properties
-/

namespace Honeypot

variable {σ : Type}

/-! ## Offers -/

/-- An offer of bytes to a sink, and what the sink answered. -/
structure Offer where
  bytes : Bytes
  answer : Except Fault Nat
deriving Repr

namespace Offer

/-- The bytes of an offer that were taken. -/
def taken (offer : Offer) : Bytes :=
  match offer.answer with
  | .ok n => offer.bytes.take n
  | .error _ => []

/-- Why nothing was taken of an offer, if nothing was: the call failed, or it took no byte. -/
def refusal (offer : Offer) : Option Fault :=
  match offer.answer with
  | .ok 0 => some .writeZero
  | .ok (_ + 1) => none
  | .error fault => some fault

end Offer

namespace Offers

/-- The bytes that were taken of offers, in order. -/
def taken (offers : List Offer) : Bytes :=
  offers.flatMap Offer.taken

/-- The refusal that offers ended with, if the last of them was refused. -/
def stop (offers : List Offer) : Option Fault :=
  offers.getLast?.bind Offer.refusal

theorem taken_cons (offer : Offer) (offers : List Offer) :
    taken (offer :: offers) = offer.taken ++ taken offers := rfl

theorem taken_append (offers more : List Offer) :
    taken (offers ++ more) = taken offers ++ taken more :=
  List.flatMap_append

/-- Offers that were not refused in the end stop where the offers after them do. -/
theorem stop_append {offers : List Offer} (h : stop offers = none) (more : List Offer) :
    stop (offers ++ more) = stop more := by
  unfold stop at h ⊢
  rw [List.getLast?_append]
  cases more.getLast? with
  | none => exact h
  | some last => rfl

/-- An offer of which something was taken is no refusal. -/
theorem stop_cons_of_taken (bytes : Bytes) (n : Nat) (offers : List Offer) :
    stop (⟨bytes, .ok (n + 1)⟩ :: offers) = stop offers := by
  have htaken : stop [⟨bytes, .ok (n + 1)⟩] = none := rfl
  exact stop_append htaken offers

/-- Offers stop where the later ones of them do. -/
theorem stop_cons (offer : Offer) {offers : List Offer} (h : offers ≠ []) :
    stop (offer :: offers) = stop offers := by
  obtain ⟨next, later, rfl⟩ := List.exists_cons_of_ne_nil h
  rw [stop, List.getLast?_cons_cons]
  rfl

/-- What becomes of a whole buffer whose offers end with a refusal, or without one. -/
def ended : Option Fault → Except Fault Unit
  | none => .ok ()
  | some fault => .error fault

theorem ended_eq_ok_iff {refusal : Option Fault} : ended refusal = .ok () ↔ refusal = none := by
  cases refusal <;> simp [ended]

theorem ended_eq_error_iff {refusal : Option Fault} {fault : Fault} :
    ended refusal = .error fault ↔ refusal = some fault := by
  cases refusal <;> simp [ended]

/-- The offers that are made for a whole buffer, and what is left of it after them. Each one is for
all that is left so far, and the last one may be refused for good. -/
inductive Made : Bytes → List Offer → Bytes → Prop
  | done : Made [] [] []
  | part {bytes n offers rest} (later : Made (bytes.drop (n + 1)) offers rest) :
      Made bytes (⟨bytes, .ok (n + 1)⟩ :: offers) rest
  | again {bytes offers rest} (hne : bytes ≠ []) (later : Made bytes offers rest) :
      Made bytes (⟨bytes, .error .interrupted⟩ :: offers) rest
  | refused {bytes answer fault} (hne : bytes ≠ [])
      (hrefusal : Offer.refusal ⟨bytes, answer⟩ = some fault) (hfault : fault ≠ .interrupted) :
      Made bytes [⟨bytes, answer⟩] bytes

namespace Made

variable {bytes rest : Bytes} {offers : List Offer}

/-- What was taken and what is left are the buffer. -/
theorem eq_taken_append (h : Made bytes offers rest) : bytes = taken offers ++ rest := by
  induction h with
  | done => rfl
  | part later ih =>
    rw [taken_cons, List.append_assoc, ← ih]
    exact (List.take_append_drop _ _).symm
  | again hne later ih => exact ih
  | @refused bytes answer fault hne hrefusal hfault =>
    have hnothing : taken [⟨bytes, answer⟩] = [] := by
      rcases answer with fault | _ | n
      · rfl
      · rfl
      · simp [Offer.refusal] at hrefusal
    rw [hnothing, List.nil_append]

/-- There is an offer for a buffer with bytes in it. -/
theorem ne_nil (h : Made bytes offers rest) (hne : bytes ≠ []) : offers ≠ [] := by
  rintro rfl
  cases h
  exact hne rfl

/-- Something is left just if the last offer was refused. -/
theorem rest_eq_nil_iff (h : Made bytes offers rest) : rest = [] ↔ stop offers = none := by
  induction h with
  | done => exact iff_of_true rfl rfl
  | part later ih => rw [stop_cons_of_taken, ih]
  | again hne later ih =>
    -- A disturbed offer is never the last one, as there are bytes to be offered again.
    rw [stop_cons _ (later.ne_nil hne), ih]
  | refused hne hrefusal hfault =>
    refine iff_of_false hne ?_
    rw [stop, List.getLast?_singleton, Option.bind_some, hrefusal]
    exact Option.some_ne_none _

end Made

end Offers

variable [Supply σ]

/-! ## A sink that notes its offers -/

/-- Notes are no plumbing: nothing is left in them. -/
instance : Supply (List Offer) where
  left _ := 0

/-- The sink that notes the offers it gets, the latest one last. -/
def Sink.noted (inner : Sink σ) : Sink (σ × List Offer) where
  write bytes s :=
    let step := inner.write bytes s.1
    (step.1, (step.2, s.2 ++ [⟨bytes, step.1⟩]))
  flush s := ((inner.flush s.1).1, ((inner.flush s.1).2, s.2))
  write_le h := inner.write_le h
  left_write_le bytes s := inner.left_write_le bytes s.1
  left_write_lt bytes s h := inner.left_write_lt bytes s.1 h
  left_flush_le s := inner.left_flush_le s.1

namespace Sink

open Offers

/-- Notes change nothing about a sink. -/
theorem noted_lockstep (inner : Sink σ) :
    inner.noted.Lockstep (fun pair s => pair.1 = s) inner where
  write bytes := by
    rintro pair _ rfl
    exact ⟨rfl, rfl⟩
  flush := by
    rintro pair _ rfl
    exact ⟨rfl, rfl⟩

/-! ## Whole buffers -/

/-- The offers to a sink that takes a whole buffer, and what becomes of it. -/
theorem writeAll_made (inner : Sink σ) (bytes : Bytes) (s : σ × List Offer) :
    ∃ offers rest, (inner.noted.writeAll bytes s).2.2 = s.2 ++ offers ∧ Made bytes offers rest ∧
      (inner.noted.writeAll bytes s).1 = ended (stop offers) := by
  -- One case for each answer that the loop distinguishes: nothing left, no byte taken, some bytes
  -- taken, an interruption, another fault. The notes of the later offers come from the hypothesis.
  fun_induction inner.noted.writeAll bytes s with
  | case1 s => exact ⟨[], [], (List.append_nil _).symm, .done, rfl⟩
  | case2 bytes s hne s' hw =>
    obtain ⟨hanswer, rfl⟩ := Prod.mk.inj hw
    exact ⟨[⟨bytes, .ok 0⟩], bytes, by rw [hanswer], .refused hne rfl (by decide), rfl⟩
  | case3 bytes s hne n s' hw ih =>
    obtain ⟨hanswer, rfl⟩ := Prod.mk.inj hw
    obtain ⟨offers, rest, hnotes, hmade, hlater⟩ := ih
    refine ⟨⟨bytes, .ok (n + 1)⟩ :: offers, rest, ?_, hmade.part, ?_⟩
    · rw [hnotes, hanswer, List.append_assoc]
      rfl
    · rw [hlater, stop_cons_of_taken]
  | case4 bytes s hne s' hw ih =>
    obtain ⟨hanswer, rfl⟩ := Prod.mk.inj hw
    obtain ⟨offers, rest, hnotes, hmade, hlater⟩ := ih
    refine ⟨⟨bytes, .error .interrupted⟩ :: offers, rest, ?_, hmade.again hne, ?_⟩
    · rw [hnotes, hanswer, List.append_assoc]
      rfl
    · rw [hlater, stop_cons _ (hmade.ne_nil hne)]
  | case5 bytes s hne fault s' hw hfault =>
    obtain ⟨hanswer, rfl⟩ := Prod.mk.inj hw
    exact ⟨[⟨bytes, .error fault⟩], bytes, by rw [hanswer], .refused hne rfl hfault, rfl⟩

/-- A whole buffer goes through if its last offer does, and otherwise fails as that one did. What
was taken is the buffer up to some rest, and there is a rest only if it failed. -/
theorem writeAll_noted (inner : Sink σ) (bytes : Bytes) (s : σ × List Offer) :
    ∃ offers rest, (inner.noted.writeAll bytes s).2.2 = s.2 ++ offers ∧
      bytes = taken offers ++ rest ∧ (rest = [] ↔ stop offers = none) ∧
      (inner.noted.writeAll bytes s).1 = ended (stop offers) := by
  obtain ⟨offers, rest, hnotes, hmade, hanswer⟩ := inner.writeAll_made bytes s
  exact ⟨offers, rest, hnotes, hmade.eq_taken_append, hmade.rest_eq_nil_iff, hanswer⟩

/-! ## Translated buffers -/

/-- What may have been taken when so many bytes of a buffer went through its translation: these
bytes, and perhaps the carriage return for a line feed that comes next. -/
def Carried (bytes : Bytes) (n : Nat) (taken : Bytes) : Prop :=
  taken = translated (bytes.take n) ∨
    taken = translated (bytes.take n) ++ [0x0D] ∧ bytes[n]? = some Source.lineFeed

/-- A line feed went through as a line end, and more after it. -/
theorem Carried.lineFeed_cons {rest taken : Bytes} {n : Nat} (h : Carried rest n taken) :
    Carried (Source.lineFeed :: rest) (n + 1) (lineEnd ++ taken) := by
  unfold Carried
  rw [List.take_succ_cons, translated_lineFeed_cons, List.append_assoc, List.append_cancel_left_eq,
    List.append_cancel_left_eq]
  exact h

/-- Of a line end that was cut short, at most the carriage return was taken. -/
theorem carried_of_cut {taken missing : Bytes} (h : lineEnd = taken ++ missing)
    (hmissing : missing ≠ []) (rest : Bytes) : Carried (Source.lineFeed :: rest) 0 taken := by
  rcases taken with _ | ⟨first, _ | ⟨second, taken⟩⟩
  · exact .inl rfl
  · obtain ⟨rfl, -⟩ := List.cons.inj h
    exact .inr ⟨rfl, rfl⟩
  · -- Both bytes of the line end were taken, so nothing of it is missing.
    simp [lineEnd, hmissing] at h

/-- The first bytes of a buffer are those before its first line feed. -/
theorem take_eq_of_le_untilLineFeed {bytes : Bytes} {m : Nat}
    (h : m ≤ (untilLineFeed bytes).length) : bytes.take m = (untilLineFeed bytes).take m := by
  obtain ⟨rest, hrest⟩ : untilLineFeed bytes <+: bytes := List.takeWhile_prefix _
  conv => lhs; rw [← hrest]
  exact List.take_append_of_le_length h

/-- Bytes before a line feed went through as they are, and more after them. -/
theorem Carried.of_drop {bytes taken : Bytes} {m n : Nat} (hm : m ≤ (untilLineFeed bytes).length)
    (h : Carried (bytes.drop m) n taken) :
    Carried bytes (n + m) ((untilLineFeed bytes).take m ++ taken) := by
  have hfirst := take_eq_of_le_untilLineFeed hm
  have hplain : translated (bytes.take m) = (untilLineFeed bytes).take m := by
    rw [hfirst]
    apply translated_of_forall_ne
    intro byte hbyte
    exact ne_of_mem_untilLineFeed (List.mem_of_mem_take hbyte)
  have htake : translated (bytes.take (n + m)) =
      (untilLineFeed bytes).take m ++ translated ((bytes.drop m).take n) := by
    rw [Nat.add_comm, List.take_add, translated_append, hplain]
  unfold Carried at h ⊢
  rw [htake, List.append_assoc, List.append_cancel_left_eq, List.append_cancel_left_eq,
    Nat.add_comm, ← List.getElem?_drop]
  exact h

/-- What is taken of a buffer on its way through the translation. The translation ends with the
refusal of its last offer, and it ends before the end of the buffer only with a refusal. -/
theorem translate_noted (inner : Sink σ) (bytes : Bytes) (s : σ × List Offer) :
    ∃ offers, (inner.noted.translate bytes s).2.2 = s.2 ++ offers ∧
      (inner.noted.translate bytes s).1.2 = stop offers ∧
      ((inner.noted.translate bytes s).1.1 = bytes.length ↔ stop offers = none) ∧
      Carried bytes (inner.noted.translate bytes s).1.1 (taken offers) := by
  fun_induction inner.noted.translate bytes s with
  | case1 s => exact ⟨[], (List.append_nil _).symm, rfl, by simp [stop], .inl rfl⟩
  | case2 s rest s' hw through ih =>
    obtain ⟨offers, missing, hnotes, hend, hmissing, hanswer⟩ := inner.writeAll_noted lineEnd s
    obtain ⟨later, hlater, hstop, hlength, hcarried⟩ := ih
    rw [hw] at hnotes hanswer
    -- The line end went through, so none of the offers for it was the last one to be refused.
    have hnone : stop offers = none := ended_eq_ok_iff.1 hanswer.symm
    have htaken : taken offers = lineEnd := by
      rw [hend, hmissing.2 hnone, List.append_nil]
    refine ⟨offers ++ later, ?_, ?_, ?_, ?_⟩
    · rw [hlater, hnotes, List.append_assoc]
    · rw [stop_append hnone, hstop]
    · rw [stop_append hnone, ← hlength, List.length_cons, Nat.add_right_cancel_iff]
    · rw [taken_append, htaken]
      exact hcarried.lineFeed_cons
  | case3 s rest fault s' hw =>
    obtain ⟨offers, missing, hnotes, hend, hmissing, hanswer⟩ := inner.writeAll_noted lineEnd s
    rw [hw] at hnotes hanswer
    have hsome : stop offers = some fault := ended_eq_error_iff.1 hanswer.symm
    refine ⟨offers, hnotes, hsome.symm, by simp [hsome], ?_⟩
    exact carried_of_cut hend (by simp [hmissing, hsome]) rest
  | case4 s byte rest hbyte s' hw =>
    obtain ⟨hanswer, rfl⟩ := Prod.mk.inj hw
    exact ⟨[⟨untilLineFeed (byte :: rest), .ok 0⟩], by rw [hanswer], rfl,
      by simp [stop, Offer.refusal], .inl rfl⟩
  | case5 s byte rest hbyte n s' hw through ih =>
    have hle := inner.noted.write_le (congrArg Prod.fst hw)
    obtain ⟨hanswer, rfl⟩ := Prod.mk.inj hw
    obtain ⟨later, hlater, hstop, hlength, hcarried⟩ := ih
    -- The first offer was taken in part, and the later ones are for what was left of it.
    have hfirst := stop_cons_of_taken (untilLineFeed (byte :: rest)) n later
    refine ⟨⟨untilLineFeed (byte :: rest), .ok (n + 1)⟩ :: later, ?_, ?_, ?_, ?_⟩
    · rw [hlater, hanswer, List.append_assoc]
      rfl
    · rw [hfirst, hstop]
    · rw [hfirst, ← hlength]
      have := length_untilLineFeed_le (byte :: rest)
      simp only [List.length_cons, List.length_drop, through] at *
      omega
    · exact Carried.of_drop hle hcarried
  | case6 s byte rest hbyte fault s' hw =>
    obtain ⟨hanswer, rfl⟩ := Prod.mk.inj hw
    exact ⟨[⟨untilLineFeed (byte :: rest), .error fault⟩], by rw [hanswer], rfl,
      by simp [stop, Offer.refusal], .inl rfl⟩

/-- What a write through the translation answers, and what was taken. Noting the offers changes
nothing. If the answer is a number, then the bytes that were taken are these first bytes of the
buffer with a carriage return before every line feed; one further carriage return may have been
taken, for a line feed that comes next. The number is zero exactly for an empty buffer, and smaller
than the buffer exactly if the last offer was refused. If the answer is a fault, then it is the
refusal of the last offer, and nothing was taken but perhaps the carriage return for a line feed at
the beginning of the buffer. -/
theorem lineFeeds_write_counts (inner : Sink σ) (bytes : Bytes) (s : σ) :
    let call := inner.noted.lineFeeds.write bytes (s, [])
    let offers := call.2.2
    (call.1, call.2.1) = inner.lineFeeds.write bytes s ∧
      match call.1 with
      | .ok n =>
        n ≤ bytes.length ∧ (n = 0 ↔ bytes = []) ∧
          (n < bytes.length ↔ ∃ fault, stop offers = some fault) ∧
          (taken offers = translated (bytes.take n) ∨
            taken offers = translated (bytes.take n) ++ [0x0D] ∧
              bytes[n]? = some Source.lineFeed)
      | .error fault =>
        stop offers = some fault ∧
          (taken offers = [] ∨ taken offers = [0x0D] ∧ bytes[0]? = some Source.lineFeed) := by
  intro call offers
  constructor
  · obtain ⟨hanswer, hstate⟩ := inner.noted_lockstep.lineFeeds.write bytes (s, []) s rfl
    exact Prod.ext hanswer hstate
  · obtain ⟨noted, hnotes, hstop, hlength, hcarried⟩ := inner.translate_noted bytes (s, [])
    have hle := inner.noted.translate_le bytes (s, [])
    have hoffers : offers = noted := hnotes
    rw [hoffers]
    show match reported (inner.noted.translate bytes (s, [])).1 with
      | .ok n => _
      | .error fault => _
    rcases hthrough : (inner.noted.translate bytes (s, [])).1 with ⟨n, stopped⟩
    rw [hthrough] at hstop hlength hcarried hle
    dsimp only at hstop hlength hcarried hle
    subst hstop
    have hshort : n < bytes.length ↔ ∃ fault, stop noted = some fault := by
      rw [← Option.ne_none_iff_exists', Ne, ← hlength]
      omega
    cases n with
    | succ n =>
      have hne : bytes ≠ [] := List.ne_nil_of_length_pos (Nat.lt_of_lt_of_le n.succ_pos hle)
      exact ⟨hle, iff_of_false n.succ_ne_zero hne, hshort, hcarried⟩
    | zero =>
      cases hstopped : stop noted with
      | some fault => exact ⟨rfl, hcarried⟩
      | none =>
        -- Nothing stopped the translation, so there was nothing to be translated.
        have hnil : bytes = [] := List.length_eq_zero_iff.1 (hlength.2 hstopped).symm
        rw [hstopped] at hshort
        exact ⟨hle, iff_of_true rfl hnil, hshort, hcarried⟩

end Sink

end Honeypot
