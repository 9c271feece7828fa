import Honeypot.Stream.Basic
import Honeypot.Text.Quoted

/-!
# Session recordings

A recording is a text in asciicast format, version 2: a header line, then one line per event, an
event being a read or a write that moved bytes at the recorded terminal. The time of an event is
what a clock shows, a number of seconds as a text.

* `Recording.Header`, `Recording.Event`: the lines and the parts in which they are written.
* `Recording.start`: writes the header, which may fail.
* `Duplex.recorded`: a terminal with its traffic recorded. A recording that cannot be written does
  not disturb reads and writes; a flush reports the failures of both.

## References

- [SPEC] `SPEC_FULL.md`: §10, Supplementary Features
-/

namespace Honeypot

namespace Recording

/-- The first line of a recording. -/
structure Header where
  width : UInt32
  height : UInt32
  /-- When the recording was started, in seconds. -/
  started : Nat
  /-- The type of the recorded terminal. -/
  term : String
deriving DecidableEq, Repr

/-- Which way the bytes of an event went. -/
inductive Direction where
  | input
  | output
deriving DecidableEq, Repr

/-- What a line of a recording tells after the first one, but for its time. -/
structure Event where
  direction : Direction
  text : String
deriving DecidableEq, Repr

/-- The letter of a direction. -/
def Direction.letter : Direction → String
  | .input => "i"
  | .output => "o"

/-- The parts of a string value. -/
def string (text : String) : List String :=
  (Text.Quoted.parts text.toList).map String.ofList

/-- The parts of a number value. -/
def number (n : Nat) : List String := [toString n]

/-- The parts of an object of named values. -/
def object (fields : List (String × List String)) : List String :=
  let field (entry : String × List String) := string entry.1 ++ ":" :: entry.2
  ["\x7b"] ++ (List.intercalate [","] (fields.map field)) ++ ["\x7d"]

/-- The parts of an array of values. -/
def array (values : List (List String)) : List String :=
  ["["] ++ List.intercalate [","] values ++ ["]"]

/-- The parts of a header line. -/
def Header.parts (header : Header) : List String :=
  object [("version", number 2), ("width", number header.width.toNat),
    ("height", number header.height.toNat), ("timestamp", number header.started),
    ("env", object [("TERM", string header.term)])] ++ ["\n"]

/-- The parts of an event line. The time is the text of a number, in seconds. -/
def Event.parts (event : Event) (time : String) : List String :=
  array [[time], string event.direction.letter, string event.text] ++ ["\n"]

variable {σ : Type} [Supply σ]

/-- Writes the header of a recording. -/
def start (cast : Sink σ) (header : Header) (s : σ) : Except Fault Unit × σ :=
  cast.writeParts (header.parts.map Text.encode) s

/-- Writes the event of moved bytes, if there are any, and lets failures pass. The clock is read
when there is an event to write. -/
def record (clock : σ → String) (cast : Sink σ) (direction : Direction) (moved : Bytes) (s : σ) :
    σ :=
  if moved = [] then s
  else
    let parts := (Event.mk direction (Text.decode moved)).parts (clock s)
    (cast.writeParts (parts.map Text.encode) s).2

open Supply (left)

theorem left_record_le (clock : σ → String) (cast : Sink σ) (direction : Direction)
    (moved : Bytes) (s : σ) : left (record clock cast direction moved s) ≤ left s := by
  unfold record
  split
  · exact Nat.le_refl _
  · exact cast.left_writeParts_le _ s

end Recording

open Supply (left)

variable {σ : Type} [Supply σ]

/-- The source that records the bytes that another one gives. -/
def Source.recorded (terminal : Source σ) (clock : σ → String) (cast : Sink σ) : Source σ where
  read most s :=
    match terminal.read most s with
    | (.ok bytes, s') => (.ok bytes, Recording.record clock cast .input bytes s')
    | (.error fault, s') => (.error fault, s')
  -- Recording changes the plumbing but neither the bytes given nor the fault.
  read_le {most s bytes} h := by
    split at h <;> rename_i hr
    · exact terminal.read_le (by rw [hr]; exact h)
    · simp at h
  left_read_le most s := by
    have := terminal.left_read_le most s
    split <;> rename_i hr <;> rw [hr] at this
    · exact Nat.le_trans (Recording.left_record_le ..) this
    · exact this
  left_read_lt most s h := by
    split at h <;> rename_i hr
    · simp at h
    · have := terminal.left_read_lt most s (by rw [hr]; exact h)
      rw [hr] at this
      exact this
  left_read_lt_of_ne_nil most s _ h hb := by
    split at h <;> rename_i hr
    · have := terminal.left_read_lt_of_ne_nil most s (by rw [hr]; exact h) hb
      rw [hr] at this
      exact Nat.lt_of_le_of_lt (Recording.left_record_le ..) this
    · simp at h

/-- The sink that records the bytes that another one takes. -/
def Sink.recorded (terminal : Sink σ) (clock : σ → String) (cast : Sink σ) : Sink σ where
  write bytes s :=
    match terminal.write bytes s with
    | (.ok n, s') => (.ok n, Recording.record clock cast .output (bytes.take n) s')
    | (.error fault, s') => (.error fault, s')
  flush s :=
    match terminal.flush s with
    | (.ok (), s') => cast.flush s'
    | (.error fault, s') => (.error fault, s')
  write_le {bytes s n} h := by
    split at h <;> rename_i hw
    · exact terminal.write_le (by rw [hw]; exact h)
    · simp at h
  left_write_le bytes s := by
    have := terminal.left_write_le bytes s
    split <;> rename_i hw <;> rw [hw] at this
    · exact Nat.le_trans (Recording.left_record_le ..) this
    · exact this
  left_write_lt bytes s h := by
    split at h <;> rename_i hw
    · simp at h
    · have := terminal.left_write_lt bytes s (by rw [hw]; exact h)
      rw [hw] at this
      simpa [hw] using this
  left_flush_le s := by
    have := terminal.left_flush_le s
    split <;> rename_i hf <;> rw [hf] at this
    · exact Nat.le_trans (cast.left_flush_le _) this
    · exact this

/-- A terminal whose traffic is recorded, with the times that a clock shows. -/
def Duplex.recorded (terminal : Duplex σ) (clock : σ → String) (cast : Sink σ) : Duplex σ :=
  ⟨terminal.source.recorded clock cast, terminal.sink.recorded clock cast⟩

end Honeypot
