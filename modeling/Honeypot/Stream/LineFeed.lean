import Honeypot.Stream.Basic

/-!
# Line feeds for a terminal

A terminal in raw mode takes a line feed as "one line down" only, so every line feed on the way to
it becomes a carriage return and a line feed.

* `Sink.translate`: how many bytes of a buffer went through, and what stopped it.
* `Sink.lineFeeds`: the sink that translates; its counts are those of the caller's buffer.

## References

- [SPEC] `SPEC_FULL.md`: §4.3, Terminal Output Adapter
-/

namespace Honeypot

open Supply (left)

variable {σ : Type} [Supply σ]

namespace Sink

/-- What a terminal needs for the end of a line. -/
def lineEnd : Bytes := [0x0D, 0x0A]

/-- The bytes of a buffer before its first line feed. -/
def untilLineFeed (bytes : Bytes) : Bytes :=
  bytes.takeWhile (· != Source.lineFeed)

theorem length_untilLineFeed_le (bytes : Bytes) : (untilLineFeed bytes).length ≤ bytes.length :=
  (List.takeWhile_sublist _).length_le

/-- Passes a buffer on with its line feeds translated. Each run of other bytes is offered whole,
what was not taken of it again, and each line end is written as a whole buffer. Gives the number
of the buffer's bytes that went through, and the fault that stopped it before its end. -/
def translate (inner : Sink σ) (bytes : Bytes) (s : σ) : (Nat × Option Fault) × σ :=
  match bytes with
  | [] => ((0, none), s)
  | byte :: rest =>
    if byte = Source.lineFeed then
      -- A carriage return that got through before a fault is not taken back.
      match inner.writeAll lineEnd s with
      | (.ok (), s') =>
        let through := inner.translate rest s'
        ((through.1.1 + 1, through.1.2), through.2)
      | (.error fault, s') => ((0, some fault), s')
    else
      match inner.write (untilLineFeed (byte :: rest)) s with
      | (.ok 0, s') => ((0, some .writeZero), s')
      | (.ok (n + 1), s') =>
        let through := inner.translate (rest.drop n) s'
        ((through.1.1 + (n + 1), through.1.2), through.2)
      | (.error fault, s') => ((0, some fault), s')
termination_by bytes.length

theorem translate_le (inner : Sink σ) (bytes : Bytes) (s : σ) :
    (inner.translate bytes s).1.1 ≤ bytes.length := by
  fun_induction inner.translate bytes s with
  | case1 | case3 | case4 | case6 => simp
  | case2 s rest s' _ through ih => simpa [through] using ih
  | case5 s byte rest _ n s' hw through ih =>
    have hn := inner.write_le (n := n + 1) (by rw [hw])
    have := length_untilLineFeed_le (byte :: rest)
    simp only [List.length_cons, List.length_drop, through] at *
    omega

theorem left_translate_le (inner : Sink σ) (bytes : Bytes) (s : σ) :
    left (inner.translate bytes s).2 ≤ left s := by
  fun_induction inner.translate bytes s with
  | case1 => exact Nat.le_refl _
  | case2 s rest s' hw through ih =>
    exact Nat.le_trans ih (by simpa [hw] using inner.left_writeAll_le lineEnd s)
  | case3 s rest fault s' hw => simpa [hw] using inner.left_writeAll_le lineEnd s
  | case4 s byte rest _ s' hw | case6 s byte rest _ _ s' hw =>
    simpa [hw] using inner.left_write_le (untilLineFeed (byte :: rest)) s
  | case5 s byte rest _ n s' hw through ih =>
    exact Nat.le_trans ih
      (by simpa [hw] using inner.left_write_le (untilLineFeed (byte :: rest)) s)

/-- A buffer that was stopped by a disturbance before its first byte used that disturbance up. -/
theorem left_translate_lt (inner : Sink σ) (bytes : Bytes) (s : σ)
    (h : (inner.translate bytes s).1 = (0, some .interrupted)) :
    left (inner.translate bytes s).2 < left s := by
  unfold translate at h ⊢
  split at h
  · simp at h
  · rename_i byte rest
    split at h
    · split at h
      · simp at h
      -- A line end is a whole buffer, and those repeat disturbed calls by themselves.
      · rename_i fault s' hw
        have := inner.writeAll_ne_interrupted lineEnd s
        simp_all
    · rename_i hb
      split at h <;> rename_i hw
      · simp at h
      · simp at h
      · simp only [Prod.mk.injEq, Option.some.injEq, true_and] at h
        subst h
        simp only [hb, if_false]
        have := inner.left_write_lt _ _ (by rw [hw])
        rwa [hw] at this

/-- What a call reports of a translated buffer: the bytes that went through if there are any, or
else what stopped it. -/
def reported : Nat × Option Fault → Except Fault Nat
  | (0, some fault) => .error fault
  | (n, _) => .ok n

theorem reported_eq_ok {through : Nat × Option Fault} {n : Nat} (h : reported through = .ok n) :
    through.1 = n := by
  unfold reported at h
  split at h <;> simp_all

theorem reported_eq_error {through : Nat × Option Fault} {fault : Fault}
    (h : reported through = .error fault) : through = (0, some fault) := by
  unfold reported at h
  split at h <;> simp_all

/-- The sink that passes bytes on to another one with every line feed translated ([SPEC] §4.3). -/
def lineFeeds (inner : Sink σ) : Sink σ where
  write bytes s :=
    let through := inner.translate bytes s
    (reported through.1, through.2)
  flush := inner.flush
  write_le {bytes s _} h := reported_eq_ok h ▸ inner.translate_le bytes s
  left_write_le bytes s := inner.left_translate_le bytes s
  left_write_lt bytes s h := inner.left_translate_lt bytes s (reported_eq_error h)
  left_flush_le := inner.left_flush_le

@[simp] theorem lineFeeds_write (inner : Sink σ) (bytes : Bytes) (s : σ) :
    inner.lineFeeds.write bytes s =
      (reported (inner.translate bytes s).1, (inner.translate bytes s).2) := rfl

@[simp] theorem lineFeeds_flush (inner : Sink σ) (s : σ) :
    inner.lineFeeds.flush s = inner.flush s := rfl

end Sink

end Honeypot
