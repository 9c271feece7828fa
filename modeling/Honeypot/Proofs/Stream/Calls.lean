import Honeypot.Stream.Basic
import Honeypot.Proofs.Stream.Lockstep

/-!
# Calls on a terminal

A terminal is known by what it replies to calls. To speak of two devices that have nothing in
common, each gets a plumbing of its own, and the plumbing of both is the pair.

* `StreamCall`, `StreamReply`, `Duplex.replies`: lists of calls and what a terminal replies.
* `Sink.first`, `Source.first`, `Sink.second`, …: streams on one plumbing of a pair.
* `Duplex.traced`: a terminal that keeps a list of the calls it gets.
-/

namespace Honeypot

/-- A call on a terminal. -/
inductive StreamCall where
  | read (most : Nat)
  | write (bytes : Bytes)
  | flush
deriving DecidableEq, Repr

/-- What a terminal replies to a call. -/
inductive StreamReply where
  | read (answer : Except Fault Bytes)
  | write (answer : Except Fault Nat)
  | flush (answer : Except Fault Unit)
deriving Repr

variable {σ τ : Type} [Supply σ] [Supply τ]

namespace Duplex

/-- The reply of a terminal to a call, and the plumbing after it. -/
def reply (terminal : Duplex σ) (call : StreamCall) (s : σ) : StreamReply × σ :=
  match call with
  | .read most => (.read (terminal.source.read most s).1, (terminal.source.read most s).2)
  | .write bytes => (.write (terminal.sink.write bytes s).1, (terminal.sink.write bytes s).2)
  | .flush => (.flush (terminal.sink.flush s).1, (terminal.sink.flush s).2)

/-- The replies of a terminal to a list of calls, and the plumbing after them. -/
def replies (terminal : Duplex σ) : List StreamCall → σ → List StreamReply × σ
  | [], s => ([], s)
  | call :: calls, s =>
    let step := terminal.reply call s
    let later := terminal.replies calls step.2
    (step.1 :: later.1, later.2)

end Duplex

/-! ## Pairs of plumbings -/

open Supply (left)

/-- In a pair of plumbings there is left what is left in both. -/
instance : Supply (σ × τ) where
  left s := left s.1 + left s.2

/-- The sink on the first plumbing of a pair. -/
def Sink.first (sink : Sink σ) : Sink (σ × τ) where
  write bytes s := ((sink.write bytes s.1).1, ((sink.write bytes s.1).2, s.2))
  flush s := ((sink.flush s.1).1, ((sink.flush s.1).2, s.2))
  write_le h := sink.write_le h
  left_write_le bytes s := Nat.add_le_add_right (sink.left_write_le bytes s.1) _
  left_write_lt bytes s h := Nat.add_lt_add_right (sink.left_write_lt bytes s.1 h) _
  left_flush_le s := Nat.add_le_add_right (sink.left_flush_le s.1) _

/-- The sink on the second plumbing of a pair. -/
def Sink.second (sink : Sink τ) : Sink (σ × τ) where
  write bytes s := ((sink.write bytes s.2).1, (s.1, (sink.write bytes s.2).2))
  flush s := ((sink.flush s.2).1, (s.1, (sink.flush s.2).2))
  write_le h := sink.write_le h
  left_write_le bytes s := Nat.add_le_add_left (sink.left_write_le bytes s.2) _
  left_write_lt bytes s h := Nat.add_lt_add_left (sink.left_write_lt bytes s.2 h) _
  left_flush_le s := Nat.add_le_add_left (sink.left_flush_le s.2) _

/-- The source on the first plumbing of a pair. -/
def Source.first (source : Source σ) : Source (σ × τ) where
  read most s := ((source.read most s.1).1, ((source.read most s.1).2, s.2))
  read_le h := source.read_le h
  left_read_le most s := Nat.add_le_add_right (source.left_read_le most s.1) _
  left_read_lt most s h := Nat.add_lt_add_right (source.left_read_lt most s.1 h) _
  left_read_lt_of_ne_nil most s _ h hne :=
    Nat.add_lt_add_right (source.left_read_lt_of_ne_nil most s.1 h hne) _

/-- The terminal on the first plumbing of a pair. -/
def Duplex.first (terminal : Duplex σ) : Duplex (σ × τ) :=
  ⟨terminal.source.first, terminal.sink.first⟩

/-- The source on the second plumbing of a pair. -/
def Source.second (source : Source τ) : Source (σ × τ) where
  read most s := ((source.read most s.2).1, (s.1, (source.read most s.2).2))
  read_le h := source.read_le h
  left_read_le most s := Nat.add_le_add_left (source.left_read_le most s.2) _
  left_read_lt most s h := Nat.add_lt_add_left (source.left_read_lt most s.2 h) _
  left_read_lt_of_ne_nil most s _ h hne :=
    Nat.add_lt_add_left (source.left_read_lt_of_ne_nil most s.2 h hne) _

/-- The terminal on the second plumbing of a pair. -/
def Duplex.second (terminal : Duplex τ) : Duplex (σ × τ) :=
  ⟨terminal.source.second, terminal.sink.second⟩

/-- A sink on the second plumbing goes as on its own, and the first plumbing stays as it is. -/
theorem Sink.second_lockstep (sink : Sink τ) (s : σ) :
    (sink.second : Sink (σ × τ)).Lockstep (fun pair t => pair = (s, t)) sink where
  write bytes := by
    rintro _ t rfl
    exact ⟨rfl, rfl⟩
  flush := by
    rintro _ t rfl
    exact ⟨rfl, rfl⟩

/-! ## Traces -/

/-- A trace is no plumbing: nothing is left in it. -/
instance : Supply (List StreamCall) where
  left _ := 0

/-- The terminal that keeps a list of the calls that it gets, the latest one last. -/
def Duplex.traced (terminal : Duplex σ) : Duplex (σ × List StreamCall) where
  source :=
    { read := fun most s =>
        ((terminal.source.read most s.1).1,
          ((terminal.source.read most s.1).2, s.2 ++ [.read most]))
      read_le := fun h => terminal.source.read_le h
      left_read_le := fun most s => terminal.source.left_read_le most s.1
      left_read_lt := fun most s h => terminal.source.left_read_lt most s.1 h
      left_read_lt_of_ne_nil := fun most s _ h hne =>
        terminal.source.left_read_lt_of_ne_nil most s.1 h hne }
  sink :=
    { write := fun bytes s =>
        ((terminal.sink.write bytes s.1).1,
          ((terminal.sink.write bytes s.1).2, s.2 ++ [.write bytes]))
      flush := fun s =>
        ((terminal.sink.flush s.1).1, ((terminal.sink.flush s.1).2, s.2 ++ [.flush]))
      write_le := fun h => terminal.sink.write_le h
      left_write_le := fun bytes s => terminal.sink.left_write_le bytes s.1
      left_write_lt := fun bytes s h => terminal.sink.left_write_lt bytes s.1 h
      left_flush_le := fun s => terminal.sink.left_flush_le s.1 }

/-- A terminal that keeps a list of its calls replies as it does without, and the list has the
calls in their order. -/
theorem Duplex.replies_traced (terminal : Duplex σ) (calls : List StreamCall) (s : σ)
    (trace : List StreamCall) :
    terminal.traced.replies calls (s, trace) =
      ((terminal.replies calls s).1, ((terminal.replies calls s).2, trace ++ calls)) := by
  induction calls generalizing s trace with
  | nil => simp [replies]
  | cons call calls ih =>
    -- One call is put at the end of the trace.
    have hreply : terminal.traced.reply call (s, trace) =
        ((terminal.reply call s).1, ((terminal.reply call s).2, trace ++ [call])) := by
      cases call <;> rfl
    rw [replies, hreply, ih, List.append_assoc]
    rfl

end Honeypot
