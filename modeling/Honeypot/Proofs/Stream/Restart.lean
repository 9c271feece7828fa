import Honeypot.Proofs.Stream.Counting
import Honeypot.Stream.Wiring

/-!
# Whole buffers over translated line feeds

A whole buffer is written call by call, each call starting where the count of the last one says. The
translation counts a line feed when both bytes of its line end were taken, so if a refusal comes
between the two, and the call has counted bytes before it, then the next call starts with that line
feed again, and its carriage return is taken twice. Here it is shown that nothing else goes wrong.

* `Offer.isTorn`, `Offers.tears`: the refusals that come between the two bytes of a line end.
* `Sink.Stuttered`: a translated buffer with carriage returns that were taken more than once.
* `Sink.translate_stuttered`: what is taken of a buffer before the rest of it is written.
* `Sink.lineFeeds_writeAll_tears`: what is taken of a whole buffer.

## References

- [SPEC] `SPEC_FULL.md`: §4.3, Terminal Output Adapter
-/

namespace Honeypot

open Source (lineFeed)

/-- Answers can be compared. -/
instance decidableEqAnswer {α : Type} [DecidableEq α] : DecidableEq (Except Fault α)
  | .ok answer, .ok other => decidable_of_iff (answer = other) ⟨congrArg _, Except.ok.inj⟩
  | .error fault, .error other => decidable_of_iff (fault = other) ⟨congrArg _, Except.error.inj⟩
  | .ok _, .error _ | .error _, .ok _ => isFalse nofun

/-! ## Torn line ends -/

/-- Whether an offer is the second byte of a line end that was refused for good. A line feed is
offered by itself only as the rest of a line end. -/
def Offer.isTorn (offer : Offer) : Bool :=
  offer.bytes == [lineFeed] && offer.refusal.any (· != .interrupted)

namespace Offers

/-- How many line ends among the offers were torn. -/
def tears (offers : List Offer) : Nat :=
  offers.countP Offer.isTorn

theorem tears_append (offers more : List Offer) :
    tears (offers ++ more) = tears offers + tears more :=
  List.countP_append

/-- An offer of anything but the second byte of a line end tears nothing. -/
theorem tears_cons_of_ne {offer : Offer} (h : offer.bytes ≠ [lineFeed]) (offers : List Offer) :
    tears (offer :: offers) = tears offers := by
  apply List.countP_cons_of_neg
  simp [Offer.isTorn, h]

/-- An offer of which something was taken tears nothing. -/
theorem tears_cons_of_taken (bytes : Bytes) (n : Nat) (offers : List Offer) :
    tears (⟨bytes, .ok (n + 1)⟩ :: offers) = tears offers := by
  apply List.countP_cons_of_neg
  simp [Offer.isTorn, Offer.refusal]

/-- Nor does one that is made again. -/
theorem tears_cons_of_interrupted (bytes : Bytes) (offers : List Offer) :
    tears (⟨bytes, .error .interrupted⟩ :: offers) = tears offers := by
  apply List.countP_cons_of_neg
  simp [Offer.isTorn, Offer.refusal]

/-- A refusal for good tears a line end if its second byte was offered. -/
theorem tears_of_refused {bytes : Bytes} {answer : Except Fault Nat} {fault : Fault}
    (h : Offer.refusal ⟨bytes, answer⟩ = some fault) (hfault : fault ≠ .interrupted) :
    tears [⟨bytes, answer⟩] = if bytes = [lineFeed] then 1 else 0 := by
  rw [tears, List.countP_singleton, Offer.isTorn, h]
  simp [hfault]

/-- The offers for a whole buffer tear a line end just if the second byte of one is all that is left
after them. -/
theorem Made.tears_eq {bytes rest : Bytes} {offers : List Offer} (h : Made bytes offers rest) :
    tears offers = if rest = [lineFeed] then 1 else 0 := by
  induction h with
  | done => rfl
  | part later ih => rw [tears_cons_of_taken, ih]
  | again hne later ih => rw [tears_cons_of_interrupted, ih]
  | refused hne hrefusal hfault => exact tears_of_refused hrefusal hfault

end Offers

variable {σ : Type} [Supply σ]

namespace Sink

open Offers

/-! ## Stuttering -/

/-- A translated buffer in which so many carriage returns were taken once too often, each before the
line end that it belongs to. -/
inductive Stuttered : Bytes → Nat → Bytes → Prop
  | nil : Stuttered [] 0 []
  | plain {byte rest n out} (h : byte ≠ lineFeed) (later : Stuttered rest n out) :
      Stuttered (byte :: rest) n (byte :: out)
  | lineEnd {rest n out} (later : Stuttered rest n out) :
      Stuttered (lineFeed :: rest) n (lineEnd ++ out)
  | again {rest n out} (later : Stuttered (lineFeed :: rest) n out) :
      Stuttered (lineFeed :: rest) (n + 1) (0x0D :: out)

namespace Stuttered

variable {bytes rest out : Bytes} {n : Nat}

/-- Only the carriage returns that were taken once too often add to the length. -/
theorem length_eq (h : Stuttered bytes n out) : out.length = (translated bytes).length + n := by
  induction h with
  | nil => rfl
  | plain hbyte later ih =>
    rw [translated_cons_of_ne hbyte, List.length_cons, List.length_cons, ih, Nat.add_right_comm]
  | lineEnd later ih =>
    rw [translated_lineFeed_cons, List.length_append, List.length_append, ih, Nat.add_assoc]
  | again later ih => rw [List.length_cons, ih, Nat.add_assoc]

/-- Without such carriage returns it is just the translation. -/
theorem eq_translated (h : Stuttered bytes n out) (hn : n = 0) : out = translated bytes := by
  induction h with
  | nil => rfl
  | plain hbyte later ih => rw [ih hn, translated_cons_of_ne hbyte]
  | lineEnd later ih => rw [ih hn, translated_lineFeed_cons]
  | again later ih => exact absurd hn (Nat.succ_ne_zero _)

theorem eq_translated_iff (h : Stuttered bytes n out) : out = translated bytes ↔ n = 0 := by
  constructor
  · rintro rfl
    have hlength := h.length_eq
    omega
  · exact h.eq_translated

/-- Bytes without a line feed go through as they are. -/
theorem append {first : Bytes} (hfirst : ∀ byte ∈ first, byte ≠ lineFeed)
    (h : Stuttered rest n out) : Stuttered (first ++ rest) n (first ++ out) := by
  induction first with
  | nil => exact h
  | cons byte first ih =>
    rw [List.forall_mem_cons] at hfirst
    exact .plain hfirst.1 (ih hfirst.2)

end Stuttered

/-! ## What is taken -/

/-- Of a line end that did not go through, nothing was taken, or it was torn. -/
theorem tears_of_cut {offers : List Offer} {rest : Bytes} (h : Made lineEnd offers rest)
    (hrest : rest ≠ []) :
    taken offers = [] ∧ tears offers = 0 ∨ taken offers = [0x0D] ∧ tears offers = 1 := by
  have htears := h.tears_eq
  replace h := h.eq_taken_append
  generalize taken offers = out at h ⊢
  rcases out with _ | ⟨first, _ | ⟨second, out⟩⟩
  · rw [List.nil_append] at h
    subst h
    exact .inl ⟨rfl, htears⟩
  · obtain ⟨rfl, hsecond⟩ := List.cons.inj h
    obtain rfl : [0x0A] = rest := hsecond
    exact .inr ⟨rfl, htears⟩
  · -- Both bytes were taken, so nothing is left.
    simp [lineEnd, hrest] at h

/-- A line feed by itself is no run of bytes before one. -/
theorem untilLineFeed_ne_lineFeed (bytes : Bytes) : untilLineFeed bytes ≠ [lineFeed] := by
  intro h
  exact ne_of_mem_untilLineFeed (h ▸ List.mem_singleton_self lineFeed) rfl

/-- What is taken of a buffer before the translation stops, with what becomes of the rest of it when
that is written later. A carriage return that was taken for the line feed where it stopped is one
too many. -/
theorem translate_stuttered (inner : Sink σ) (bytes : Bytes) (s : σ × List Offer) :
    ∃ offers, (inner.noted.translate bytes s).2.2 = s.2 ++ offers ∧ ∀ n out,
      Stuttered (bytes.drop (inner.noted.translate bytes s).1.1) n out →
        Stuttered bytes (tears offers + n) (taken offers ++ out) := by
  fun_induction inner.noted.translate bytes s with
  | case1 s =>
    refine ⟨[], (List.append_nil _).symm, fun n out hlater => ?_⟩
    show Stuttered [] (0 + n) out
    rwa [Nat.zero_add]
  | case2 s rest s' hw through ih =>
    obtain ⟨offers, missing, hnotes, hmade, hanswer⟩ := inner.writeAll_made lineEnd s
    obtain ⟨more, hmore, hstuttered⟩ := ih
    rw [hw] at hnotes hanswer
    -- The line end went through, so nothing of it is missing.
    obtain rfl : missing = [] := hmade.rest_eq_nil_iff.2 (ended_eq_ok_iff.1 hanswer.symm)
    have hend := hmade.eq_taken_append
    have hnone : tears offers = 0 := hmade.tears_eq
    rw [List.append_nil] at hend
    refine ⟨offers ++ more, by rw [hmore, hnotes, List.append_assoc], fun n out hlater => ?_⟩
    rw [tears_append, hnone, Nat.zero_add, taken_append, ← hend, List.append_assoc]
    exact .lineEnd (hstuttered n out hlater)
  | case3 s rest fault s' hw =>
    obtain ⟨offers, missing, hnotes, hmade, hanswer⟩ := inner.writeAll_made lineEnd s
    rw [hw] at hnotes hanswer
    have hmissing : missing ≠ [] := by
      rw [Ne, hmade.rest_eq_nil_iff, ← ended_eq_ok_iff, ← hanswer]
      simp
    refine ⟨offers, hnotes, fun n out hlater => ?_⟩
    rcases tears_of_cut hmade hmissing with ⟨htaken, hnone⟩ | ⟨htaken, hone⟩
    · rw [htaken, hnone, Nat.zero_add]
      exact hlater
    · -- The line feed is written again, with a carriage return of its own.
      rw [htaken, hone, Nat.add_comm]
      exact .again hlater
  | case4 s byte rest hbyte s' hw | case6 s byte rest hbyte fault s' hw =>
    obtain ⟨hanswer, rfl⟩ := Prod.mk.inj hw
    refine ⟨[⟨untilLineFeed (byte :: rest), _⟩], rfl, fun n out hlater => ?_⟩
    rw [tears_cons_of_ne (untilLineFeed_ne_lineFeed _), hanswer]
    show Stuttered (byte :: rest) (0 + n) out
    rw [Nat.zero_add]
    exact hlater
  | case5 s byte rest hbyte n s' hw through ih =>
    have hle := inner.noted.write_le (congrArg Prod.fst hw)
    obtain ⟨hanswer, rfl⟩ := Prod.mk.inj hw
    obtain ⟨more, hmore, hstuttered⟩ := ih
    refine ⟨⟨untilLineFeed (byte :: rest), .ok (n + 1)⟩ :: more, ?_, fun m out hlater => ?_⟩
    · rw [hmore, hanswer, List.append_assoc]
      rfl
    -- What was taken of the first offer are the first bytes of the buffer, and none is a line feed.
    have hplain : ∀ first ∈ (untilLineFeed (byte :: rest)).take (n + 1), first ≠ lineFeed :=
      fun first hfirst => ne_of_mem_untilLineFeed (List.mem_of_mem_take hfirst)
    have hwhole : (untilLineFeed (byte :: rest)).take (n + 1) ++ rest.drop n = byte :: rest := by
      rw [← take_eq_of_le_untilLineFeed hle, ← List.drop_succ_cons, List.take_append_drop]
    have hrest : Stuttered (rest.drop n) (tears more + m) (taken more ++ out) := by
      apply hstuttered
      rw [List.drop_drop]
      rwa [Nat.add_comm, Nat.add_right_comm, List.drop_succ_cons] at hlater
    rw [tears_cons_of_ne (untilLineFeed_ne_lineFeed _), taken_cons, List.append_assoc]
    have happend := hrest.append hplain
    rwa [hwhole] at happend

/-- What is taken of a whole buffer if all of it goes through. -/
theorem writeAll_lineFeeds_stuttered (inner : Sink σ) (bytes : Bytes) (s : σ × List Offer)
    (h : (inner.noted.lineFeeds.writeAll bytes s).1 = .ok ()) :
    ∃ offers, (inner.noted.lineFeeds.writeAll bytes s).2.2 = s.2 ++ offers ∧
      Stuttered bytes (tears offers) (taken offers) := by
  fun_induction inner.noted.lineFeeds.writeAll bytes s with
  | case1 s => exact ⟨[], (List.append_nil _).symm, .nil⟩
  | case2 | case5 => simp at h
  | case3 bytes s hne n s' hw ih =>
    obtain ⟨offers, hnotes, hstuttered⟩ := inner.translate_stuttered bytes s
    obtain ⟨more, hmore, hlater⟩ := ih h
    obtain ⟨hanswer, rfl⟩ := Prod.mk.inj hw
    rw [reported_eq_ok hanswer] at hstuttered
    refine ⟨offers ++ more, ?_, ?_⟩
    · rw [hmore, hnotes, List.append_assoc]
    · rw [tears_append, taken_append]
      exact hstuttered _ _ hlater
  | case4 bytes s hne s' hw ih =>
    obtain ⟨offers, hnotes, hstuttered⟩ := inner.translate_stuttered bytes s
    obtain ⟨more, hmore, hlater⟩ := ih h
    obtain ⟨hanswer, rfl⟩ := Prod.mk.inj hw
    -- Nothing was counted, so the whole buffer is written again.
    rw [reported_eq_error hanswer] at hstuttered
    refine ⟨offers ++ more, ?_, ?_⟩
    · rw [hmore, hnotes, List.append_assoc]
    · rw [tears_append, taken_append]
      exact hstuttered _ _ hlater

/-- What a sink took of a whole buffer that went through the translation of line feeds. Noting the
offers changes nothing. The bytes that were taken are the buffer with a carriage return before every
line feed, and with one more for every line end that was torn: its first byte was taken, and its
second one refused with another fault than a disturbance. So they are just the translated buffer if
and only if no line end was torn. -/
theorem lineFeeds_writeAll_tears (inner : Sink σ) (bytes : Bytes) (s : σ)
    (h : (inner.lineFeeds.writeAll bytes s).1 = .ok ()) :
    let run := inner.noted.lineFeeds.writeAll bytes (s, [])
    let offers := run.2.2
    (run.1, run.2.1) = inner.lineFeeds.writeAll bytes s ∧
      Stuttered bytes (tears offers) (taken offers) ∧
      (taken offers = translated bytes ↔ tears offers = 0) := by
  intro run offers
  have halike := inner.noted_lockstep.lineFeeds.writeAll bytes
  obtain ⟨hanswer, hstate⟩ := halike (s, []) s rfl
  obtain ⟨noted, hnotes, hstuttered⟩ :=
    inner.writeAll_lineFeeds_stuttered bytes (s, []) (hanswer.trans h)
  have hoffers : offers = noted := hnotes
  rw [hoffers]
  exact ⟨Prod.ext hanswer hstate, hstuttered, hstuttered.eq_translated_iff⟩

theorem lineFeeds_writeAll_tears_twice :
    let wiring : Wiring := { output := { script := [.accept 1, .fail .interrupted, .accept 1,
      .fail .wouldBlock, .accept 2, .accept 1, .accept 1, .accept 0] } }
    let bytes : Bytes := [0x61, 0x0A, 0x62, 0x0A]
    let run := (Wiring.sink .output).noted.lineFeeds.writeAll bytes (wiring, [])
    ((Wiring.sink .output).lineFeeds.writeAll bytes wiring).1 = .ok () ∧ run.1 = .ok () ∧
      tears run.2.2 = 2 ∧
      Stuttered bytes 2 [0x61, 0x0D, 0x0D, 0x0A, 0x62, 0x0D, 0x0D, 0x0A] := by
  intro wiring bytes run
  have hok : ((Wiring.sink .output).lineFeeds.writeAll bytes wiring).1 = .ok () := by
    decide +kernel
  obtain ⟨herased, hstuttered, -⟩ := lineFeeds_writeAll_tears (Wiring.sink .output) bytes wiring hok
  have hanswer : run.1 = .ok () := (congrArg Prod.fst herased).trans hok
  have htears : tears run.2.2 = 2 := by decide +kernel
  have htaken : taken run.2.2 = [0x61, 0x0D, 0x0D, 0x0A, 0x62, 0x0D, 0x0D, 0x0A] := by
    decide +kernel
  refine ⟨hok, hanswer, htears, ?_⟩
  rw [← htears, ← htaken]
  exact hstuttered

/-- A whole buffer may go through and yet not arrive as its translation: here a call is refused
after the carriage return, which is taken again in the next one. -/
theorem taken_ne_translated_of_torn :
    let wiring : Wiring := { output := { script := [.accept 1, .accept 1, .fail .wouldBlock] } }
    let bytes : Bytes := [0x61, 0x0A]
    let run := (Wiring.sink .output).noted.lineFeeds.writeAll bytes (wiring, [])
    run.1 = .ok () ∧ taken run.2.2 = [0x61, 0x0D, 0x0D, 0x0A] ∧
      translated bytes = [0x61, 0x0D, 0x0A] := by
  decide +kernel

end Sink

end Honeypot
