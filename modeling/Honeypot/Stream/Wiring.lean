import Honeypot.Stream.Basic

/-!
# Wirings

The plumbing of one session as a value: what arrives at each end that is read, how each end that
is written behaves, and a log of all bytes that crossed, in one order over all channels.

* `Inlet`: bytes to come with the faults between them.
* `Outlet`: how the coming writes are met, and after how many bytes or lines the end breaks.
* `Wiring.source`, `Wiring.sink`: the streams of a wiring.

## References

- [SPEC] `SPEC_FULL.md`: §3, Data Model; §6, External Interfaces
-/

namespace Honeypot

/-- What a reader meets next. -/
inductive Arrival where
  | byte (value : UInt8)
  | fault (reason : Fault)
deriving DecidableEq, Repr

/-- What is still to arrive at an end that is read. -/
abbrev Inlet := List Arrival

namespace Inlet

/-- The bytes that a read of at most so many gives: those before the next fault. -/
def available : Nat → Inlet → Bytes × Inlet
  | most + 1, .byte value :: rest =>
    let given := available most rest
    (value :: given.1, given.2)
  | _, rest => ([], rest)

/-- A read of at most so many bytes. A fault that is next makes it fail; an interruption goes by
with that, every other fault stays. -/
def read (most : Nat) : Inlet → Except Fault Bytes × Inlet
  | .fault .interrupted :: rest => (.error .interrupted, rest)
  | .fault reason :: rest => (.error reason, .fault reason :: rest)
  | inlet => (.ok (available most inlet).1, (available most inlet).2)

theorem available_length (most : Nat) (inlet : Inlet) :
    (available most inlet).1.length ≤ most ∧
      (available most inlet).1.length + (available most inlet).2.length = inlet.length := by
  fun_induction available most inlet with
  | case1 most value rest given ih =>
    simp only [List.length_cons, given]
    omega
  | case2 => simp

theorem length_read_le (most : Nat) (inlet : Inlet) :
    (inlet.read most).2.length ≤ inlet.length := by
  obtain ⟨-, hlength⟩ := available_length most inlet
  unfold read
  split
  · simp
  · simp
  · exact hlength ▸ Nat.le_add_left _ _

theorem length_read_lt {most : Nat} {inlet : Inlet}
    (h : (inlet.read most).1 = .error .interrupted) :
    (inlet.read most).2.length < inlet.length := by
  unfold read at h ⊢
  split at h <;> simp_all

theorem read_le {most : Nat} {inlet : Inlet} {bytes : Bytes}
    (h : (inlet.read most).1 = .ok bytes) : bytes.length ≤ most := by
  have := available_length most inlet
  unfold read at h
  split at h <;> simp at h
  subst h
  exact this.1

theorem length_read_lt_of_ne_nil {most : Nat} {inlet : Inlet} {bytes : Bytes}
    (h : (inlet.read most).1 = .ok bytes) (hb : bytes ≠ []) :
    (inlet.read most).2.length < inlet.length := by
  have := available_length most inlet
  have := List.length_pos_iff.2 hb
  unfold read at h ⊢
  split at h <;> simp_all
  omega

end Inlet

/-- How one coming write is met. -/
inductive Reaction where
  /-- At most so many bytes are taken. -/
  | accept (most : Nat)
  | fail (reason : Fault)
deriving DecidableEq, Repr

/-- How an end that is written behaves. -/
structure Outlet where
  /-- How the coming writes are met, one after the other; later ones are taken whole. -/
  script : List Reaction := []
  /-- How many bytes are taken before the end breaks. -/
  room : Option Nat := none
  /-- How many line feeds are taken before the end breaks. -/
  lineRoom : Option Nat := none
  /-- Whether flushing fails. -/
  flushFails : Bool := false
deriving DecidableEq, Repr

namespace Outlet

/-- The bytes of an offer that an end takes when its script lets it. A broken end fails, unless
nothing was offered to an end that ran out of bytes. -/
def take (outlet : Outlet) (offered : Bytes) : Except Fault Bytes :=
  if outlet.lineRoom = some 0 then .error .brokenPipe
  else match outlet.room with
    | none => .ok offered
    | some room =>
      if room = 0 ∧ offered ≠ [] then .error .brokenPipe else .ok (offered.take room)

/-- An end after it has taken some bytes. -/
def after (outlet : Outlet) (taken : Bytes) : Outlet :=
  { outlet with
    room := outlet.room.map (· - taken.length)
    lineRoom := outlet.lineRoom.map (· - taken.count Source.lineFeed) }

/-- A write: the bytes taken, and the end after it. -/
def write (outlet : Outlet) (offered : Bytes) : Except Fault Bytes × Outlet :=
  match outlet.script with
  | .fail reason :: later => (.error reason, { outlet with script := later })
  | .accept most :: later =>
    -- The script cuts the offer first, then the room that the end has.
    let outlet := { outlet with script := later }
    match outlet.take (offered.take most) with
    | .ok taken => (.ok taken, outlet.after taken)
    | .error fault => (.error fault, outlet)
  | [] =>
    match outlet.take offered with
    | .ok taken => (.ok taken, outlet.after taken)
    | .error fault => (.error fault, outlet)

theorem take_prefix {outlet : Outlet} {offered taken : Bytes}
    (h : outlet.take offered = .ok taken) : taken <+: offered := by
  unfold take at h
  split at h
  · simp at h
  · split at h
    · exact Except.ok.inj h ▸ List.prefix_refl _
    · split at h
      · simp at h
      · exact Except.ok.inj h ▸ List.take_prefix _ _

theorem take_ne_interrupted (outlet : Outlet) (offered : Bytes) :
    outlet.take offered ≠ .error .interrupted := by
  unfold take
  split
  · simp
  · split
    · simp
    · split <;> simp

@[simp] theorem script_after (outlet : Outlet) (taken : Bytes) :
    (outlet.after taken).script = outlet.script := rfl

/-- What is taken is a beginning of what was offered. -/
theorem write_prefix {outlet : Outlet} {offered taken : Bytes}
    (h : (outlet.write offered).1 = .ok taken) : taken <+: offered := by
  unfold write at h
  split at h
  · simp at h
  · dsimp only at h
    split at h <;> simp at h
    rename_i ht
    exact (h ▸ take_prefix ht).trans (List.take_prefix _ _)
  · split at h <;> simp at h
    rename_i ht
    exact h ▸ take_prefix ht

theorem length_script_write_le (outlet : Outlet) (offered : Bytes) :
    (outlet.write offered).2.script.length ≤ outlet.script.length := by
  unfold write
  split
  · simp [*]
  · dsimp only
    split <;> simp [*]
  · split <;> simp [*]

theorem length_script_write_lt (outlet : Outlet) (offered : Bytes)
    (h : (outlet.write offered).1 = .error .interrupted) :
    (outlet.write offered).2.script.length < outlet.script.length := by
  unfold write at h ⊢
  split at h
  · simp [*]
  · dsimp only at h ⊢
    split at h <;> simp [*]
  · split at h <;> simp at h
    rename_i ht
    exact absurd (h ▸ ht) (take_ne_interrupted outlet offered)

end Outlet

/-- An end of a session's plumbing that can be read. -/
inductive Incoming where
  | input
  | error
  | observer
deriving DecidableEq, Repr

/-- An end of a session's plumbing that can be written. -/
inductive Outgoing where
  | output
  | error
  | observer
  /-- The end that takes the recording of a session. -/
  | cast
deriving DecidableEq, Repr

/-- Bytes that crossed one end of the plumbing. -/
inductive Crossing where
  | read (channel : Incoming) (bytes : Bytes)
  | wrote (channel : Outgoing) (bytes : Bytes)
deriving DecidableEq, Repr

/-- The plumbing of one session. -/
structure Wiring where
  input : Inlet := []
  output : Outlet := {}
  errorInput : Inlet := []
  error : Outlet := {}
  observerInput : Inlet := []
  observer : Outlet := {}
  cast : Outlet := {}
  /-- What crossed so far, the latest first. -/
  log : List Crossing := []

namespace Wiring

/-- What is still to arrive at an end. -/
def inlet (wiring : Wiring) : Incoming → Inlet
  | .input => wiring.input
  | .error => wiring.errorInput
  | .observer => wiring.observerInput

/-- How an end behaves. -/
def outlet (wiring : Wiring) : Outgoing → Outlet
  | .output => wiring.output
  | .error => wiring.error
  | .observer => wiring.observer
  | .cast => wiring.cast

/-- The wiring with another inlet at an end. -/
def setInlet (wiring : Wiring) (inlet : Inlet) : Incoming → Wiring
  | .input => { wiring with input := inlet }
  | .error => { wiring with errorInput := inlet }
  | .observer => { wiring with observerInput := inlet }

/-- The wiring with another outlet at an end. -/
def setOutlet (wiring : Wiring) (outlet : Outlet) : Outgoing → Wiring
  | .output => { wiring with output := outlet }
  | .error => { wiring with error := outlet }
  | .observer => { wiring with observer := outlet }
  | .cast => { wiring with cast := outlet }

/-- The wiring after bytes crossed an end. -/
def logged (wiring : Wiring) (crossing : Crossing) : Wiring :=
  { wiring with log := crossing :: wiring.log }

/-- A read at an end. -/
def read (channel : Incoming) (most : Nat) (wiring : Wiring) : Except Fault Bytes × Wiring :=
  let step := (wiring.inlet channel).read most
  let wiring := wiring.setInlet step.2 channel
  match step.1 with
  | .ok bytes => (.ok bytes, if bytes = [] then wiring else wiring.logged (.read channel bytes))
  | .error fault => (.error fault, wiring)

/-- A write at an end. -/
def write (channel : Outgoing) (offered : Bytes) (wiring : Wiring) : Except Fault Nat × Wiring :=
  let step := (wiring.outlet channel).write offered
  let wiring := wiring.setOutlet step.2 channel
  match step.1 with
  | .ok taken =>
    (.ok taken.length, if taken = [] then wiring else wiring.logged (.wrote channel taken))
  | .error fault => (.error fault, wiring)

/-- A flush of an end. -/
def flush (channel : Outgoing) (wiring : Wiring) : Except Fault Unit × Wiring :=
  (if (wiring.outlet channel).flushFails then .error .brokenPipe else .ok (), wiring)

/-- What is still to arrive at all ends, and how many writes are still scripted. -/
instance : Supply Wiring where
  left wiring :=
    wiring.input.length + wiring.errorInput.length + wiring.observerInput.length +
      wiring.output.script.length + wiring.error.script.length + wiring.observer.script.length +
      wiring.cast.script.length

open Supply (left)

theorem left_logged (wiring : Wiring) (crossing : Crossing) :
    left (wiring.logged crossing) = left wiring := rfl

theorem left_setInlet (wiring : Wiring) (inlet : Inlet) (channel : Incoming) :
    left (wiring.setInlet inlet channel) + (wiring.inlet channel).length =
      left wiring + inlet.length := by
  cases channel <;> simp [left, setInlet, Wiring.inlet] <;> omega

theorem left_setOutlet (wiring : Wiring) (outlet : Outlet) (channel : Outgoing) :
    left (wiring.setOutlet outlet channel) + (wiring.outlet channel).script.length =
      left wiring + outlet.script.length := by
  cases channel <;> simp [left, setOutlet, Wiring.outlet] <;> omega

theorem left_read (channel : Incoming) (most : Nat) (wiring : Wiring) :
    left (wiring.read channel most).2 + (wiring.inlet channel).length =
      left wiring + ((wiring.inlet channel).read most).2.length := by
  have h : left (wiring.read channel most).2 =
      left (wiring.setInlet ((wiring.inlet channel).read most).2 channel) := by
    unfold read
    dsimp only
    split
    · split <;> simp only [left_logged]
    · rfl
  rw [h, left_setInlet]

theorem left_write (channel : Outgoing) (offered : Bytes) (wiring : Wiring) :
    left (wiring.write channel offered).2 + (wiring.outlet channel).script.length =
      left wiring + ((wiring.outlet channel).write offered).2.script.length := by
  have h : left (wiring.write channel offered).2 =
      left (wiring.setOutlet ((wiring.outlet channel).write offered).2 channel) := by
    unfold write
    dsimp only
    split
    · split <;> simp only [left_logged]
    · rfl
  rw [h, left_setOutlet]

theorem read_fst (channel : Incoming) (most : Nat) (wiring : Wiring) :
    (wiring.read channel most).1 = ((wiring.inlet channel).read most).1 := by
  unfold read
  dsimp only
  split <;> simp [*]

theorem write_fst (channel : Outgoing) (offered : Bytes) (wiring : Wiring) :
    (wiring.write channel offered).1 =
      ((wiring.outlet channel).write offered).1.map List.length := by
  unfold write
  dsimp only
  split <;> simp [*, Except.map]

/-- The stream that reads at an end of a wiring. -/
def source (channel : Incoming) : Source Wiring where
  read := read channel
  read_le h := Inlet.read_le (by rwa [read_fst] at h)
  left_read_le most wiring := by
    have := left_read channel most wiring
    have := Inlet.length_read_le most (wiring.inlet channel)
    omega
  left_read_lt most wiring h := by
    have := left_read channel most wiring
    have := Inlet.length_read_lt (by rwa [read_fst] at h)
    omega
  left_read_lt_of_ne_nil most wiring _ h hb := by
    have := left_read channel most wiring
    have := Inlet.length_read_lt_of_ne_nil (by rwa [read_fst] at h) hb
    omega

/-- The stream that writes at an end of a wiring. -/
def sink (channel : Outgoing) : Sink Wiring where
  write := write channel
  flush := flush channel
  write_le {bytes wiring n} h := by
    rw [write_fst] at h
    cases ht : ((wiring.outlet channel).write bytes).1 with
    | error fault => simp [ht, Except.map] at h
    | ok taken =>
      simp only [ht, Except.map, Except.ok.injEq] at h
      exact h ▸ (Outlet.write_prefix ht).length_le
  left_write_le bytes wiring := by
    have := left_write channel bytes wiring
    have := Outlet.length_script_write_le (wiring.outlet channel) bytes
    omega
  left_write_lt bytes wiring h := by
    have := left_write channel bytes wiring
    have := Outlet.length_script_write_lt (wiring.outlet channel) bytes (by
      rw [write_fst] at h
      cases ht : ((wiring.outlet channel).write bytes).1 <;> simp_all [Except.map])
    omega
  left_flush_le _ := Nat.le_refl _

/-- The observer's end, read and written. -/
def observerDuplex : Duplex Wiring := ⟨source .observer, sink .observer⟩

end Wiring

end Honeypot
