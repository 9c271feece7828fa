import Mathlib.Logic.Function.Basic
import Honeypot.Proofs.Stream.Accord
import Honeypot.Stream.Wiring

/-!
# Ledgers

A ledger says of a wiring what neither the size of the calls nor a disturbance shows in: what is
still to come at each end, how much room is left, and what crossed, byte by byte.

* `Wiring.transcript`, `Wiring.ledger`: what crossed byte by byte, and the ledger of a wiring.
* `Ledger.put`, `Ledger.intake`: what is done to a ledger by whole buffers that are written.
* `Ledger.consume`, `Ledger.reserve`: what is done to it by bytes that are read.
-/

namespace Honeypot

/-! ## What crossed -/

/-- The bytes that arrive at an end. -/
def Inlet.bytes : Inlet → Bytes
  | [] => []
  | .byte value :: rest => value :: bytes rest
  | .fault _ :: rest => bytes rest

/-- The bytes of a crossing, each as a crossing of its own. -/
def Crossing.singles : Crossing → List Crossing
  | .read channel bytes => bytes.map fun byte => .read channel [byte]
  | .wrote channel bytes => bytes.map fun byte => .wrote channel [byte]

/-- The bytes that a crossing brought to an end that is written. -/
def Crossing.written (channel : Outgoing) : Crossing → Bytes
  | .wrote place bytes => if place = channel then bytes else []
  | .read _ _ => []

/-- Byte by byte a crossing brings the same. -/
theorem Crossing.flatMap_written_singles (channel : Outgoing) (crossing : Crossing) :
    crossing.singles.flatMap (written channel) = crossing.written channel := by
  cases crossing with
  | read place bytes => simp [singles, List.flatMap_map, written]
  | wrote place bytes =>
    by_cases hplace : place = channel
    · simp [singles, List.flatMap_map, written, hplace]
    · simp [singles, List.flatMap_map, written, hplace]

namespace Wiring

variable (wiring : Wiring)

/-- What crossed so far byte by byte, in order. -/
def transcript : List Crossing := wiring.log.reverse.flatMap Crossing.singles

/-- The bytes that were written so far at an end. -/
def written (channel : Outgoing) : Bytes := wiring.log.reverse.flatMap (Crossing.written channel)

/-- What was written at an end shows in the transcript. -/
theorem flatMap_written_transcript (channel : Outgoing) :
    wiring.transcript.flatMap (Crossing.written channel) = wiring.written channel := by
  simp only [transcript, written, List.flatMap_assoc, Crossing.flatMap_written_singles]

/-- Where the same crossed, the same was written. -/
theorem written_eq_of_transcript_eq {one other : Wiring} (h : one.transcript = other.transcript)
    (channel : Outgoing) : one.written channel = other.written channel := by
  rw [← flatMap_written_transcript, h, flatMap_written_transcript]

theorem transcript_logged (crossing : Crossing) :
    (wiring.logged crossing).transcript = wiring.transcript ++ crossing.singles := by
  simp [transcript, logged]

theorem inlet_setInlet (inlet : Inlet) (channel : Incoming) :
    (wiring.setInlet inlet channel).inlet = Function.update wiring.inlet channel inlet := by
  funext other
  cases channel <;> cases other <;> rfl

theorem outlet_setOutlet (outlet : Outlet) (channel : Outgoing) :
    (wiring.setOutlet outlet channel).outlet = Function.update wiring.outlet channel outlet := by
  funext other
  cases channel <;> cases other <;> rfl

@[simp] theorem outlet_setInlet (inlet : Inlet) (channel : Incoming) :
    (wiring.setInlet inlet channel).outlet = wiring.outlet := by
  funext other
  cases channel <;> cases other <;> rfl

@[simp] theorem inlet_setOutlet (outlet : Outlet) (channel : Outgoing) :
    (wiring.setOutlet outlet channel).inlet = wiring.inlet := by
  funext other
  cases channel <;> cases other <;> rfl

@[simp] theorem transcript_setInlet (inlet : Inlet) (channel : Incoming) :
    (wiring.setInlet inlet channel).transcript = wiring.transcript := by
  cases channel <;> rfl

@[simp] theorem transcript_setOutlet (outlet : Outlet) (channel : Outgoing) :
    (wiring.setOutlet outlet channel).transcript = wiring.transcript := by
  cases channel <;> rfl

end Wiring

/-! ## Ledgers -/

/-- What counts of a wiring that loses nothing. -/
@[ext]
structure Ledger where
  /-- What is still to come at each end that is read. -/
  pending : Incoming → Bytes
  /-- How many bytes each end that is written still takes. -/
  room : Outgoing → Option Nat
  /-- What crossed so far, byte by byte. -/
  crossed : List Crossing

/-- The ledger of a wiring. -/
def Wiring.ledger (wiring : Wiring) : Ledger where
  pending channel := (wiring.inlet channel).bytes
  room channel := (wiring.outlet channel).room
  crossed := wiring.transcript

namespace Ledger

variable (ledger : Ledger)

/-- The ledger after an end took bytes. -/
def after (channel : Outgoing) (taken : Bytes) : Ledger where
  pending := ledger.pending
  room := Function.update ledger.room channel ((ledger.room channel).map (· - taken.length))
  crossed := ledger.crossed ++ (Crossing.wrote channel taken).singles

@[simp] theorem after_nil (channel : Outgoing) : ledger.after channel [] = ledger := by
  ext1
  · rfl
  · simp [after]
  · exact List.append_nil _

theorem after_append (channel : Outgoing) (first more : Bytes) :
    ledger.after channel (first ++ more) = (ledger.after channel first).after channel more := by
  ext1
  · rfl
  · simp only [after, Function.update_idem, Function.update_self, Option.map_map]
    congr
    funext room
    rw [List.length_append, Function.comp_apply, Nat.sub_sub]
  · simp [after, Crossing.singles]

/-- The room of the end that took bytes. -/
theorem room_after (channel : Outgoing) (taken : Bytes) :
    (ledger.after channel taken).room channel =
      (ledger.room channel).map (· - taken.length) :=
  Function.update_self _ _ _

theorem room_after_of_ne {other channel : Outgoing} (h : other ≠ channel) (taken : Bytes) :
    (ledger.after channel taken).room other = ledger.room other :=
  Function.update_of_ne h _ _

/-- An end without a limit keeps none, whatever end took bytes. -/
theorem room_after_eq_none {ledger : Ledger} {other : Outgoing} (h : ledger.room other = none)
    (channel : Outgoing) (taken : Bytes) : (ledger.after channel taken).room other = none := by
  by_cases hsame : other = channel
  · rw [← hsame, room_after, h]
    rfl
  · rw [room_after_of_ne _ hsame, h]

/-- What becomes of a whole buffer: as much of it is taken as there is room for. -/
def put (channel : Outgoing) (bytes : Bytes) (ledger : Ledger) : Except Fault Unit × Ledger :=
  match ledger.room channel with
  | none => (.ok (), ledger.after channel bytes)
  | some room =>
    (if bytes.length ≤ room then .ok () else .error .brokenPipe,
      ledger.after channel (bytes.take room))

variable {ledger} {channel : Outgoing}

theorem put_of_room_eq_none (h : ledger.room channel = none) (bytes : Bytes) :
    ledger.put channel bytes = (.ok (), ledger.after channel bytes) := by
  rw [put, h]

theorem put_of_room_eq_some {room : Nat} (h : ledger.room channel = some room) (bytes : Bytes) :
    ledger.put channel bytes =
      (if bytes.length ≤ room then .ok () else .error .brokenPipe,
        ledger.after channel (bytes.take room)) := by
  rw [put, h]

/-- A buffer for which there is room is taken. -/
theorem put_of_fits {bytes : Bytes}
    (h : ∀ room, ledger.room channel = some room → bytes.length ≤ room) :
    ledger.put channel bytes = (.ok (), ledger.after channel bytes) := by
  cases hroom : ledger.room channel with
  | none => exact put_of_room_eq_none hroom bytes
  | some room =>
    have hfits := h room hroom
    rw [put_of_room_eq_some hroom, if_pos hfits, List.take_of_length_le hfits]

/-- A buffer is put in part by part. -/
theorem put_append (channel : Outgoing) (first more : Bytes) (ledger : Ledger) :
    ledger.put channel (first ++ more) =
      andThen (put channel first) (fun _ => put channel more) ledger := by
  unfold andThen
  cases hroom : ledger.room channel with
  | none =>
    have hlater : (ledger.after channel first).room channel = none := by
      rw [room_after, hroom]
      rfl
    rw [put_of_room_eq_none hroom, put_of_room_eq_none hroom, after_append]
    exact (put_of_room_eq_none hlater more).symm
  | some room =>
    rw [put_of_room_eq_some hroom, put_of_room_eq_some hroom]
    by_cases hfirst : first.length ≤ room
    · -- The first part fits, and the second one meets the room that is left after it.
      have hlater : (ledger.after channel first).room channel = some (room - first.length) := by
        rw [room_after, hroom]
        rfl
      rw [if_pos hfirst, List.take_of_length_le hfirst]
      dsimp only
      rw [put_of_room_eq_some hlater, List.take_append, List.take_of_length_le hfirst, after_append,
        List.length_append]
      congr 2
      exact propext (by omega)
    · -- The first part does not fit, and of the second one nothing is taken.
      rw [if_neg hfirst, if_neg (by rw [List.length_append]; omega),
        List.take_append_of_le_length (by omega)]

/-- An end that ran out of room stays so. -/
theorem put_of_error {bytes : Bytes} {fault : Fault} {ledger' : Ledger}
    (h : ledger.put channel bytes = (.error fault, ledger')) (more : Bytes) (hmore : more ≠ []) :
    ledger'.put channel more = (.error fault, ledger') := by
  cases hroom : ledger.room channel with
  | none =>
    rw [put_of_room_eq_none hroom] at h
    simp at h
  | some room =>
    rw [put_of_room_eq_some hroom] at h
    obtain ⟨hanswer, rfl⟩ := Prod.mk.inj h
    by_cases hfits : bytes.length ≤ room
    · rw [if_pos hfits] at hanswer
      simp at hanswer
    · -- The end has taken all that it had room for.
      have hfull : (ledger.after channel (bytes.take room)).room channel = some 0 := by
        rw [room_after, hroom, List.length_take, Nat.min_eq_left (by omega)]
        exact congrArg some (Nat.sub_self room)
      rw [if_neg hfits] at hanswer
      rw [put_of_room_eq_some hfull, if_neg (by simpa using hmore), hanswer, List.take_zero,
        after_nil]

/-- What becomes of whole buffers at an end. -/
def intake (channel : Outgoing) : Intake Ledger where
  put := put channel
  put_nil ledger := by
    have hput : ledger.put channel [] = (.ok (), ledger.after channel []) :=
      put_of_fits fun _ _ => Nat.zero_le _
    rwa [after_nil] at hput
  put_append := put_append channel
  put_of_error := put_of_error

/-- The ledger after bytes were read at an end. -/
def consume (channel : Incoming) (n : Nat) (ledger : Ledger) : Ledger where
  pending := Function.update ledger.pending channel ((ledger.pending channel).drop n)
  room := ledger.room
  crossed := ledger.crossed ++ (Crossing.read channel ((ledger.pending channel).take n)).singles

/-- The bytes that are still to come at an end. -/
def reserve (channel : Incoming) : Reserve Ledger where
  pending ledger := ledger.pending channel
  consume := consume channel
  consume_zero ledger := by
    ext1
    · simp [consume]
    · rfl
    · exact List.append_nil _
  consume_add n more ledger := by
    ext1
    · simp [consume, List.drop_drop]
    · rfl
    · simp only [consume, Crossing.singles, Function.update_self, List.take_add, List.map_append,
        List.append_assoc]
  pending_consume n ledger := Function.update_self _ _ _

end Ledger

/-! ## The ledger of a wiring after a call -/

namespace Wiring

theorem room_setOutlet (wiring : Wiring) (outlet : Outlet) (channel : Outgoing) :
    (wiring.setOutlet outlet channel).ledger.room =
      Function.update wiring.ledger.room channel outlet.room := by
  funext other
  simp only [ledger, outlet_setOutlet, Function.update_apply]
  split <;> rfl

theorem pending_setInlet (wiring : Wiring) (inlet : Inlet) (channel : Incoming) :
    (wiring.setInlet inlet channel).ledger.pending =
      Function.update wiring.ledger.pending channel inlet.bytes := by
  funext other
  simp only [ledger, inlet_setInlet, Function.update_apply]
  split <;> rfl

theorem pending_setOutlet (wiring : Wiring) (outlet : Outlet) (channel : Outgoing) :
    (wiring.setOutlet outlet channel).ledger.pending = wiring.ledger.pending := by
  simp only [ledger, inlet_setOutlet]

theorem room_setInlet (wiring : Wiring) (inlet : Inlet) (channel : Incoming) :
    (wiring.setInlet inlet channel).ledger.room = wiring.ledger.room := by
  simp only [ledger, outlet_setInlet]

theorem crossed_logged (wiring : Wiring) (crossing : Crossing) :
    (wiring.logged crossing).ledger.crossed = wiring.ledger.crossed ++ crossing.singles :=
  wiring.transcript_logged crossing

/-- The ledger does not show how the coming writes are met. -/
theorem ledger_setOutlet (wiring : Wiring) (channel : Outgoing) (outlet : Outlet)
    (hroom : outlet.room = (wiring.outlet channel).room) :
    (wiring.setOutlet outlet channel).ledger = wiring.ledger := by
  ext1
  · exact pending_setOutlet wiring outlet channel
  · rw [room_setOutlet, hroom]
    exact Function.update_eq_self _ _
  · exact transcript_setOutlet wiring outlet channel

/-- The ledger of a wiring after an end took bytes. -/
theorem ledger_wrote (wiring : Wiring) (channel : Outgoing) (outlet : Outlet)
    (hroom : outlet.room = (wiring.outlet channel).room) (taken : Bytes) :
    ((wiring.setOutlet (outlet.after taken) channel).logged (.wrote channel taken)).ledger =
      wiring.ledger.after channel taken := by
  ext1
  · exact pending_setOutlet wiring _ channel
  · refine (room_setOutlet wiring _ channel).trans ?_
    rw [Outlet.after, hroom]
    rfl
  · rw [crossed_logged]
    exact congrArg (· ++ _) (transcript_setOutlet wiring _ channel)

/-- The ledger does not show the disturbances at an end. -/
theorem ledger_setInlet (wiring : Wiring) (channel : Incoming) {inlet : Inlet}
    (hbytes : inlet.bytes = (wiring.inlet channel).bytes) :
    (wiring.setInlet inlet channel).ledger = wiring.ledger := by
  ext1
  · rw [pending_setInlet, hbytes]
    exact Function.update_eq_self _ _
  · exact room_setInlet wiring inlet channel
  · exact transcript_setInlet wiring inlet channel

/-- The ledger of a wiring after bytes were read. -/
theorem ledger_read (wiring : Wiring) (channel : Incoming) {given : Bytes} {inlet : Inlet}
    (hbytes : given ++ inlet.bytes = (wiring.inlet channel).bytes) :
    ((wiring.setInlet inlet channel).logged (.read channel given)).ledger =
      wiring.ledger.consume channel given.length := by
  have hpending : wiring.ledger.pending channel = given ++ inlet.bytes := hbytes.symm
  ext1
  · refine (pending_setInlet wiring inlet channel).trans ?_
    rw [Ledger.consume, hpending, List.drop_left]
  · exact room_setInlet wiring inlet channel
  · rw [crossed_logged, Ledger.consume, hpending, List.take_left]
    exact congrArg (· ++ _) (transcript_setInlet wiring inlet channel)

/-- Reading adds to what crossed. -/
theorem transcript_prefix_read (wiring : Wiring) (channel : Incoming) (most : Nat) :
    wiring.transcript <+: (wiring.read channel most).2.transcript := by
  unfold read
  rcases (wiring.inlet channel).read most with ⟨answer, inlet⟩
  cases answer with
  | error fault => exact (transcript_setInlet wiring inlet channel).symm ▸ List.prefix_refl _
  | ok given =>
    dsimp only
    split
    · exact (transcript_setInlet wiring inlet channel).symm ▸ List.prefix_refl _
    · rw [transcript_logged, transcript_setInlet]
      exact List.prefix_append _ _

/-- Writing adds to what crossed. -/
theorem transcript_prefix_write (wiring : Wiring) (channel : Outgoing) (offered : Bytes) :
    wiring.transcript <+: (wiring.write channel offered).2.transcript := by
  unfold write
  rcases (wiring.outlet channel).write offered with ⟨answer, outlet⟩
  cases answer with
  | error fault => exact (transcript_setOutlet wiring outlet channel).symm ▸ List.prefix_refl _
  | ok taken =>
    dsimp only
    split
    · exact (transcript_setOutlet wiring outlet channel).symm ▸ List.prefix_refl _
    · rw [transcript_logged, transcript_setOutlet]
      exact List.prefix_append _ _

end Wiring

end Honeypot
