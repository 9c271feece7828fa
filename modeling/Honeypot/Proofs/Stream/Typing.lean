import Honeypot.Proofs.Stream.Patience

/-!
# Lines that are typed

Lines are read byte by byte, so that nothing after a line feed is taken with the line before it.
At an end that may be interrupted anywhere, but loses nothing, the lines that are read are those of
the input, and what a line leaves behind can be said exactly.

* `Source.linesOf`, `Source.linesOf_of_ne_nil`: the lines of an input, one after the other.
* `Inlet.skip`, `Wiring.took`: an end, and a wiring, after so many bytes were taken one by one.
* `Wiring.readLine_of_isPatient`: what reading a line gives, and what it leaves.
* `Source.readLine_lt`: a line uses up some of the bytes to come, whatever faults there are.
-/

namespace Honeypot

/-! ## The lines of an input -/

namespace Source

/-- The lines of an input: its pieces between line feeds, a last empty one left out. -/
def linesOf (input : Bytes) : List Bytes :=
  let pieces := input.splitOn lineFeed
  if pieces.getLast? = some [] then pieces.dropLast else pieces

@[simp] theorem linesOf_nil : linesOf [] = [] := rfl

/-- The bytes before the first line feed hold none. -/
theorem lineFeed_notMem_untilLineFeed (input : Bytes) : lineFeed ∉ Sink.untilLineFeed input := by
  intro hmem
  have hplain := List.all_eq_true.1 List.all_takeWhile lineFeed hmem
  simp at hplain

/-- After the bytes before the first line feed the input ends, or the line feed comes. -/
theorem untilLineFeed_cases (input : Bytes) :
    input = Sink.untilLineFeed input ∨
      ∃ rest, input = Sink.untilLineFeed input ++ lineFeed :: rest := by
  have hparts : Sink.untilLineFeed input ++ input.dropWhile (· != lineFeed) = input :=
    List.takeWhile_append_dropWhile
  cases hrest : input.dropWhile (· != lineFeed) with
  | nil =>
    rw [hrest, List.append_nil] at hparts
    exact .inl hparts.symm
  | cons byte rest =>
    have hbyte := List.head?_dropWhile_not (· != lineFeed) input
    rw [hrest] at hbyte hparts
    obtain rfl : byte = lineFeed := by simpa using hbyte
    exact .inr ⟨rest, hparts.symm⟩

/-- The first line of an input is what comes before the first line feed, and the other lines are
those of the input after it. -/
theorem linesOf_of_ne_nil {input : Bytes} (h : input ≠ []) :
    linesOf input = Sink.untilLineFeed input ::
      linesOf (input.drop ((Sink.untilLineFeed input).length + 1)) := by
  have hplain := lineFeed_notMem_untilLineFeed input
  have hcases := untilLineFeed_cases input
  generalize Sink.untilLineFeed input = line at hplain hcases ⊢
  obtain rfl | ⟨rest, rfl⟩ := hcases
  · -- The last line is not ended by a line feed, and it is not empty.
    rw [linesOf, List.splitOn_eq_singleton hplain, List.drop_of_length_le (Nat.le_succ _)]
    simp [h]
  · -- The first piece is cut off. Whether the last one is empty, the others decide.
    have hdrop : (line ++ lineFeed :: rest).drop (line.length + 1) = rest := by simp
    rw [hdrop, linesOf, List.splitOn_append_cons_self_of_not_mem hplain, linesOf]
    obtain ⟨piece, pieces, hpieces⟩ :=
      List.exists_cons_of_ne_nil (List.splitOn_ne_nil lineFeed rest)
    rw [hpieces, List.getLast?_cons_cons, List.dropLast_cons_cons]
    split
    · rfl
    · rfl

/-- Only an input without bytes has no lines. -/
theorem linesOf_eq_nil_iff {input : Bytes} : linesOf input = [] ↔ input = [] := by
  constructor
  · intro hlines
    by_contra hne
    rw [linesOf_of_ne_nil hne] at hlines
    exact List.cons_ne_nil _ _ hlines
  · rintro rfl
    exact linesOf_nil

end Source

/-! ## Bytes that are taken one by one -/

namespace Inlet

/-- An end after so many bytes were taken one by one, with the faults before them. -/
def skip : Nat → Inlet → Inlet
  | 0, inlet => inlet
  | _ + 1, [] => []
  | n + 1, .byte _ :: rest => skip n rest
  | n + 1, .fault _ :: rest => skip (n + 1) rest

theorem bytes_skip (n : Nat) (inlet : Inlet) : (inlet.skip n).bytes = inlet.bytes.drop n := by
  fun_induction skip n inlet with
  | case1 => rfl
  | case2 => rfl
  | case3 n value rest ih => exact ih
  | case4 n reason rest ih => exact ih

/-- What is still to come later is the end of what is to come. -/
theorem bytes_suffix {later inlet : Inlet} (h : later <:+ inlet) : later.bytes <:+ inlet.bytes := by
  induction inlet with
  | nil =>
    obtain rfl := List.suffix_nil.1 h
    exact List.suffix_refl _
  | cons arrival rest ih =>
    rcases List.suffix_cons_iff.1 h with rfl | hrest
    · exact List.suffix_refl _
    · cases arrival with
      | byte value => exact (ih hrest).trans (List.suffix_cons _ _)
      | fault reason => exact ih hrest

theorem IsPatient.of_suffix {later inlet : Inlet} (hpatient : inlet.IsPatient)
    (h : later <:+ inlet) : later.IsPatient :=
  fun reason hreason => hpatient reason (h.mem hreason)

theorem available_suffix (most : Nat) (inlet : Inlet) : (available most inlet).2 <:+ inlet := by
  fun_induction available most inlet with
  | case1 most value rest given ih => exact ih.trans (List.suffix_cons _ _)
  | case2 => exact List.suffix_refl _

/-- What a read leaves is the end of what was to arrive. -/
theorem read_suffix (most : Nat) (inlet : Inlet) : (inlet.read most).2 <:+ inlet := by
  unfold Inlet.read
  split
  · exact List.suffix_cons _ _
  · exact List.suffix_refl _
  · exact available_suffix most inlet

theorem length_bytes_read_le (most : Nat) (inlet : Inlet) :
    (inlet.read most).2.bytes.length ≤ inlet.bytes.length :=
  (bytes_suffix (read_suffix most inlet)).length_le

/-- A read that gives something leaves less to come. -/
theorem length_bytes_read_lt {most : Nat} {inlet : Inlet} {given : Bytes}
    (h : (inlet.read most).1 = .ok given) (hne : given ≠ []) :
    (inlet.read most).2.bytes.length < inlet.bytes.length := by
  have hgiven := List.length_pos_iff.2 hne
  unfold Inlet.read at h ⊢
  split at h
  · simp at h
  · simp at h
  · obtain rfl := Except.ok.inj h
    have hparts := congrArg List.length (available_append_bytes most inlet)
    rw [List.length_append] at hparts
    dsimp only
    omega

theorem skip_suffix (n : Nat) (inlet : Inlet) : inlet.skip n <:+ inlet := by
  fun_induction skip n inlet with
  | case1 => exact List.suffix_refl _
  | case2 => exact List.suffix_refl _
  | case3 n value rest ih => exact ih.trans (List.suffix_cons _ _)
  | case4 n reason rest ih => exact ih.trans (List.suffix_cons _ _)

end Inlet

namespace Wiring

/-- A wiring after so many bytes were taken one by one at an end. -/
def took (wiring : Wiring) (channel : Incoming) (n : Nat) : Wiring :=
  { wiring.setInlet ((wiring.inlet channel).skip n) channel with
    log := (((wiring.inlet channel).bytes.take n).map fun byte => .read channel [byte]).reverse ++
      wiring.log }

theorem inlet_took (wiring : Wiring) (channel : Incoming) (n : Nat) :
    (wiring.took channel n).inlet =
      Function.update wiring.inlet channel ((wiring.inlet channel).skip n) :=
  inlet_setInlet _ _ _

theorem outlet_took (wiring : Wiring) (channel : Incoming) (n : Nat) :
    (wiring.took channel n).outlet = wiring.outlet :=
  outlet_setInlet _ _ _

@[simp] theorem took_zero (wiring : Wiring) (channel : Incoming) :
    wiring.took channel 0 = wiring := by
  cases channel <;> simp [took, setInlet, inlet, Inlet.skip]

variable {wiring : Wiring} {channel : Incoming} {rest : Inlet}

theorem took_of_nil (h : wiring.inlet channel = []) (n : Nat) :
    wiring.took channel (n + 1) = wiring.setInlet [] channel := by
  unfold took
  rw [h]
  cases channel <;> rfl

theorem took_of_byte {value : UInt8} (h : wiring.inlet channel = .byte value :: rest) (n : Nat) :
    wiring.took channel (n + 1) =
      ((wiring.setInlet rest channel).logged (.read channel [value])).took channel n := by
  unfold took
  rw [h]
  cases channel <;> simp [setInlet, logged, inlet, Inlet.bytes, Inlet.skip]

theorem took_of_fault {reason : Fault} (h : wiring.inlet channel = .fault reason :: rest)
    (n : Nat) :
    wiring.took channel (n + 1) = (wiring.setInlet rest channel).took channel (n + 1) := by
  unfold took
  rw [h]
  cases channel <;> simp [setInlet, inlet, Inlet.bytes, Inlet.skip]

theorem inlet_setInlet_self (wiring : Wiring) (inlet : Inlet) (channel : Incoming) :
    (wiring.setInlet inlet channel).inlet channel = inlet := by
  rw [inlet_setInlet, Function.update_self]

/-! ### Reads of one byte -/

theorem read_of_nil (h : wiring.inlet channel = []) :
    wiring.read channel 1 = (.ok [], wiring.setInlet [] channel) := by
  unfold read
  rw [h]
  rfl

theorem read_of_byte {value : UInt8} (h : wiring.inlet channel = .byte value :: rest) :
    wiring.read channel 1 =
      (.ok [value], (wiring.setInlet rest channel).logged (.read channel [value])) := by
  unfold read
  rw [h]
  rfl

theorem read_of_interrupted (h : wiring.inlet channel = .fault .interrupted :: rest) :
    wiring.read channel 1 = (.error .interrupted, wiring.setInlet rest channel) := by
  unfold read
  rw [h]
  rfl

/-- Reading on in a line at a patient end gives what comes before the first line feed, and takes
nothing that comes after it. -/
theorem readLineAfter_of_isPatient (typed : Bytes) (h : (wiring.inlet channel).IsPatient) :
    (source channel).readLineAfter typed wiring =
      (.ok (if (wiring.inlet channel).bytes = [] ∧ typed = [] then none
        else some (typed.reverse ++ Sink.untilLineFeed (wiring.inlet channel).bytes)),
        wiring.took channel ((Sink.untilLineFeed (wiring.inlet channel).bytes).length + 1)) := by
  -- Arrival by arrival: what was typed grows by a byte, or a disturbance goes by.
  induction hinlet : wiring.inlet channel generalizing wiring typed with
  | nil =>
    have hread : (source channel).read 1 wiring = _ := read_of_nil hinlet
    rw [Source.readLineAfter_eq, hread, took_of_nil hinlet]
    simp [Inlet.bytes, Sink.untilLineFeed]
  | cons arrival rest ih =>
    rw [hinlet] at h
    have hrest : Inlet.IsPatient rest := fun reason hreason => h reason (.tail _ hreason)
    cases arrival with
    | byte value =>
      have hread : (source channel).read 1 wiring = _ := read_of_byte hinlet
      rw [Source.readLineAfter_eq, hread, took_of_byte hinlet]
      have hlater : ((wiring.setInlet rest channel).logged (.read channel [value])).inlet channel =
          rest := inlet_setInlet_self wiring rest channel
      dsimp only
      by_cases hvalue : value = Source.lineFeed
      · rw [if_pos hvalue]
        simp [Inlet.bytes, Sink.untilLineFeed, hvalue]
      · rw [if_neg hvalue, ih (value :: typed) (hlater.symm ▸ hrest) hlater]
        simp [Inlet.bytes, Sink.untilLineFeed, hvalue]
    | fault reason =>
      obtain rfl := h reason (.head _)
      have hread : (source channel).read 1 wiring = _ := read_of_interrupted hinlet
      have hlater := inlet_setInlet_self wiring rest channel
      rw [Source.readLineAfter_eq, hread, took_of_fault hinlet]
      dsimp only
      rw [if_pos rfl, ih typed (hlater.symm ▸ hrest) hlater]
      rfl

/-- A line that is read at a patient end is what comes before the first line feed, without anything
that comes after that. There is no line where nothing is to come. -/
theorem readLine_of_isPatient (h : (wiring.inlet channel).IsPatient) :
    (source channel).readLine wiring =
      (.ok (if (wiring.inlet channel).bytes = [] then none
        else some (Sink.untilLineFeed (wiring.inlet channel).bytes)),
        wiring.took channel ((Sink.untilLineFeed (wiring.inlet channel).bytes).length + 1)) := by
  rw [Source.readLine, readLineAfter_of_isPatient [] h]
  simp

end Wiring

/-! ## Lines use up what is to come -/

namespace Source

variable {σ : Type} [Supply σ]

/-- A line lowers every size that no read of a byte raises and every byte lowers. -/
theorem readLine_lt (source : Source σ) (size : σ → Nat)
    (hle : ∀ s, size (source.read 1 s).2 ≤ size s)
    (hlt : ∀ s given, (source.read 1 s).1 = .ok given → given ≠ [] →
      size (source.read 1 s).2 < size s)
    {line : Bytes} {s : σ} (h : (source.readLine s).1 = .ok (some line)) :
    size (source.readLine s).2 < size s := by
  -- From the second byte on the size need not be lowered, but it is not raised.
  suffices hafter : ∀ typed s, size (source.readLineAfter typed s).2 ≤ size s ∧
      ((source.readLineAfter typed s).1 = .ok (some line) → typed = [] →
        size (source.readLineAfter typed s).2 < size s) from (hafter [] s).2 h rfl
  intro typed s
  fun_induction source.readLineAfter typed s with
  | case1 typed s s' hr =>
    have hread := hle s
    rw [hr] at hread
    refine ⟨hread, fun hanswer htyped => ?_⟩
    simp [htyped] at hanswer
  | case2 typed s given s' hr =>
    have hread := hlt s _ (by rw [hr]) (List.cons_ne_nil _ _)
    rw [hr] at hread
    exact ⟨Nat.le_of_lt hread, fun _ _ => hread⟩
  | case3 typed s byte given s' hr hbyte ih =>
    have hread := hlt s _ (by rw [hr]) (List.cons_ne_nil _ _)
    rw [hr] at hread
    have hall := Nat.lt_of_le_of_lt ih.1 hread
    exact ⟨Nat.le_of_lt hall, fun _ _ => hall⟩
  | case4 typed s s' hr ih =>
    have hread := hle s
    rw [hr] at hread
    exact ⟨Nat.le_trans ih.1 hread, fun hanswer htyped =>
      Nat.lt_of_lt_of_le (ih.2 hanswer htyped) hread⟩
  | case5 typed s fault s' hr hfault =>
    have hread := hle s
    rw [hr] at hread
    exact ⟨hread, fun hanswer => by simp at hanswer⟩

end Source

end Honeypot
