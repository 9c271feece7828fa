import Honeypot.Failure
import Honeypot.Text.Utf8

/-!
# Byte streams

A stream is an end of some plumbing: a `Sink` takes bytes and a `Source` gives them, and both act
on the state `σ` of the plumbing, which several streams may share. A call may move fewer bytes
than asked for, or fail. What keeps whole-buffer calls finite is the amount that the plumbing has
`left`: no call raises it, and a call that delivers bytes or asks to be repeated lowers it.

* `Sink.writeAll`: a whole buffer, disturbed calls repeated.
* `Sink.writeParts`: several buffers, up to the first that fails.
* `Source.readAll`: everything up to the end, disturbed calls repeated.
* `Source.readLine`: one line, taken byte by byte.

## References

- [SPEC] `SPEC_FULL.md`: §6, External Interfaces
-/

namespace Honeypot

/-- Plumbing of which only so much is left. -/
class Supply (σ : Type) where
  /-- A bound on the deliveries and disturbances still to come. -/
  left : σ → Nat

open Supply (left)

variable {σ : Type} [Supply σ]

/-- A stream that takes bytes. -/
structure Sink (σ : Type) [Supply σ] where
  /-- Offers bytes; gives how many of them were taken. -/
  write : Bytes → σ → Except Fault Nat × σ
  /-- Passes on what may be held back. -/
  flush : σ → Except Fault Unit × σ
  /-- No more is taken than was offered. -/
  write_le : ∀ {bytes s n}, (write bytes s).1 = .ok n → n ≤ bytes.length
  left_write_le : ∀ bytes s, left (write bytes s).2 ≤ left s
  left_write_lt : ∀ bytes s, (write bytes s).1 = .error .interrupted →
    left (write bytes s).2 < left s
  left_flush_le : ∀ s, left (flush s).2 ≤ left s

/-- A stream that gives bytes. -/
structure Source (σ : Type) [Supply σ] where
  /-- Gives at most so many bytes, none at the end. -/
  read : Nat → σ → Except Fault Bytes × σ
  /-- No more is given than was asked for. -/
  read_le : ∀ {most s bytes}, (read most s).1 = .ok bytes → bytes.length ≤ most
  left_read_le : ∀ most s, left (read most s).2 ≤ left s
  left_read_lt : ∀ most s, (read most s).1 = .error .interrupted →
    left (read most s).2 < left s
  left_read_lt_of_ne_nil : ∀ most s {bytes}, (read most s).1 = .ok bytes → bytes ≠ [] →
    left (read most s).2 < left s

/-- A stream that gives bytes and takes them. -/
structure Duplex (σ : Type) [Supply σ] where
  source : Source σ
  sink : Sink σ

namespace Sink

/-- Offers a buffer until all of it is taken. A disturbed call is repeated, and a call that takes
nothing is a failure. -/
def writeAll (sink : Sink σ) (bytes : Bytes) (s : σ) : Except Fault Unit × σ :=
  if bytes = [] then (.ok (), s)
  else match hw : sink.write bytes s with
    | (.ok 0, s') => (.error .writeZero, s')
    | (.ok (n + 1), s') => sink.writeAll (bytes.drop (n + 1)) s'
    | (.error fault, s') =>
      if fault = .interrupted then sink.writeAll bytes s' else (.error fault, s')
termination_by bytes.length + left s
decreasing_by
  -- Some bytes were taken: the buffer is shorter, and the plumbing has no more left than before.
  · have := sink.left_write_le bytes s
    rw [hw] at this
    have : 0 < bytes.length := List.length_pos_iff.2 ‹_›
    simp only [List.length_drop] at *
    omega
  -- The call was disturbed: the buffer is the same, and the disturbance is used up.
  · rename_i hf
    have := sink.left_write_lt bytes s (by rw [hw, hf])
    rw [hw] at this
    dsimp only at this
    omega

/-- Writes buffers one after the other, up to the first that fails. -/
def writeParts (sink : Sink σ) : List Bytes → σ → Except Fault Unit × σ
  | [], s => (.ok (), s)
  | part :: parts, s =>
    match sink.writeAll part s with
    | (.ok (), s') => sink.writeParts parts s'
    | (.error fault, s') => (.error fault, s')

theorem left_writeAll_le (sink : Sink σ) (bytes : Bytes) (s : σ) :
    left (sink.writeAll bytes s).2 ≤ left s := by
  fun_induction sink.writeAll bytes s with
  | case1 => exact Nat.le_refl _
  | case2 bytes s _ s' hw => simpa [hw] using sink.left_write_le bytes s
  | case3 bytes s _ n s' hw ih =>
    exact Nat.le_trans ih (by simpa [hw] using sink.left_write_le bytes s)
  | case4 bytes s _ s' hw ih =>
    exact Nat.le_trans ih (by simpa [hw] using sink.left_write_le bytes s)
  | case5 bytes s _ fault s' hw => simpa [hw] using sink.left_write_le bytes s

/-- A whole buffer is never reported as disturbed: such calls are repeated. -/
theorem writeAll_ne_interrupted (sink : Sink σ) (bytes : Bytes) (s : σ) :
    (sink.writeAll bytes s).1 ≠ .error .interrupted := by
  fun_induction sink.writeAll bytes s with
  | case1 | case2 => simp
  | case3 _ _ _ _ _ _ ih | case4 _ _ _ _ _ ih => exact ih
  | case5 _ _ _ _ _ _ hf => simpa using hf

theorem left_writeParts_le (sink : Sink σ) (parts : List Bytes) (s : σ) :
    left (sink.writeParts parts s).2 ≤ left s := by
  induction parts generalizing s with
  | nil => exact Nat.le_refl _
  | cons part parts ih =>
    have h := sink.left_writeAll_le part s
    rw [writeParts]
    split <;> rename_i hw <;> rw [hw] at h
    · exact Nat.le_trans (ih _) h
    · exact h

end Sink

namespace Source

/-- The size of the buffer with which a stream is read to its end. -/
def bufferSize : Nat := 8192

/-- Reads up to the end. A disturbed call is repeated; after any other failure the bytes read
before it are gone. -/
def readAll (source : Source σ) (s : σ) : Except Fault Bytes × σ :=
  match _hr : source.read bufferSize s with
  | (.ok [], s') => (.ok [], s')
  | (.ok (byte :: bytes), s') =>
    match source.readAll s' with
    | (.ok more, s'') => (.ok (byte :: bytes ++ more), s'')
    | (.error fault, s'') => (.error fault, s'')
  | (.error fault, s') => if fault = .interrupted then source.readAll s' else (.error fault, s')
termination_by left s
decreasing_by
  · have := source.left_read_lt_of_ne_nil bufferSize s (by rw [_hr]) (by simp)
    rwa [_hr] at this
  · rename_i hf
    have := source.left_read_lt bufferSize s (by rw [_hr, hf])
    rwa [_hr] at this

/-- The byte that ends a line. -/
def lineFeed : UInt8 := 0x0A

/-- Reads on in a line whose bytes so far are given, the last one first. -/
def readLineAfter (source : Source σ) (typed : Bytes) (s : σ) :
    Except Fault (Option Bytes) × σ :=
  match _hr : source.read 1 s with
  | (.ok [], s') => (.ok (if typed = [] then none else some typed.reverse), s')
  | (.ok (byte :: _), s') =>
    if byte = lineFeed then (.ok (some typed.reverse), s')
    else source.readLineAfter (byte :: typed) s'
  | (.error fault, s') =>
    if fault = .interrupted then source.readLineAfter typed s' else (.error fault, s')
termination_by left s
decreasing_by
  · have := source.left_read_lt_of_ne_nil 1 s (by rw [_hr]) (by simp)
    rwa [_hr] at this
  · rename_i hf
    have := source.left_read_lt 1 s (by rw [_hr, hf])
    rwa [_hr] at this

/-- Reads one line, byte by byte, without the line feed that ends it. At the end of the stream
there is no line. -/
def readLine (source : Source σ) (s : σ) : Except Fault (Option Bytes) × σ :=
  source.readLineAfter [] s

theorem left_readAll_le (source : Source σ) (s : σ) : left (source.readAll s).2 ≤ left s := by
  fun_induction source.readAll s with
  | case1 s s' hr => simpa [hr] using source.left_read_le bufferSize s
  | case2 s _ _ s' hr _ _ ha ih | case3 s _ _ s' hr _ _ ha ih =>
    rw [ha] at ih
    exact Nat.le_trans ih (by simpa [hr] using source.left_read_le bufferSize s)
  | case4 s s' hr ih => exact Nat.le_trans ih (by simpa [hr] using source.left_read_le bufferSize s)
  | case5 s _ s' hr => simpa [hr] using source.left_read_le bufferSize s

theorem left_readLineAfter_le (source : Source σ) (typed : Bytes) (s : σ) :
    left (source.readLineAfter typed s).2 ≤ left s := by
  fun_induction source.readLineAfter typed s with
  | case1 _ s s' hr | case2 _ s _ s' hr => simpa [hr] using source.left_read_le 1 s
  | case3 _ s _ _ s' hr _ ih => exact Nat.le_trans ih (by simpa [hr] using source.left_read_le 1 s)
  | case4 _ s s' hr ih => exact Nat.le_trans ih (by simpa [hr] using source.left_read_le 1 s)
  | case5 _ s _ s' hr => simpa [hr] using source.left_read_le 1 s

/-- A line uses something up. -/
theorem left_readLineAfter_lt (source : Source σ) {typed line : Bytes} {s : σ}
    (h : (source.readLineAfter typed s).1 = .ok (some line)) (ht : typed = []) :
    left (source.readLineAfter typed s).2 < left s := by
  fun_induction source.readLineAfter typed s with
  | case1 _ s s' hr => simp [ht] at h
  | case2 _ s _ s' hr =>
    simpa [hr] using source.left_read_lt_of_ne_nil 1 s (by rw [hr]) (by simp)
  | case3 _ s _ _ s' hr _ ih =>
    refine Nat.lt_of_le_of_lt (source.left_readLineAfter_le _ _) ?_
    simpa [hr] using source.left_read_lt_of_ne_nil 1 s (by rw [hr]) (by simp)
  | case4 _ s s' hr ih =>
    exact Nat.lt_of_lt_of_le (ih h ht) (by simpa [hr] using source.left_read_le 1 s)
  | case5 _ s _ s' hr => simp at h

theorem left_readLine_lt (source : Source σ) {line : Bytes} {s : σ}
    (h : (source.readLine s).1 = .ok (some line)) : left (source.readLine s).2 < left s :=
  source.left_readLineAfter_lt h rfl

end Source

end Honeypot
