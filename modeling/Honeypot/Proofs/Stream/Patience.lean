import Honeypot.Proofs.Stream.Ledger

/-!
# Wirings that lose nothing

An end is patient if it may be disturbed and may take bytes in portions, but gives and takes all of
them in the end, as far as it has room. What whole buffers, lines and inputs come to at patient ends
shows in the ledger of the wiring.

* `Outlet.IsPatient`, `Inlet.IsPatient`: ends that lose nothing.
* `Ends`: the ends of a wiring on which a session runs.
* `Wiring.Patient`: those ends are patient, and the others as they were.
* `Wiring.steady_sink`, `Wiring.steady_source`: the streams of patient ends work towards what is
  done to the ledger.
-/

namespace Honeypot

/-! ## Patient ends -/

/-- Whether a reaction to a write loses nothing: something is taken, or the call may be repeated. -/
def Reaction.IsPatient : Reaction → Prop
  | .accept most => 0 < most
  | .fail reason => reason = .interrupted

/-- An end that takes what it is offered as long as it has room, at once or by and by. -/
structure Outlet.IsPatient (outlet : Outlet) : Prop where
  script : ∀ reaction ∈ outlet.script, reaction.IsPatient
  lineRoom : outlet.lineRoom = none
  flushes : outlet.flushFails = false

/-- An end that takes everything, at once or by and by. -/
structure Outlet.NeverFails (outlet : Outlet) : Prop extends outlet.IsPatient where
  room : outlet.room = none

/-- Whether an end gives what arrives at it, at once or by and by. -/
def Inlet.IsPatient (inlet : Inlet) : Prop :=
  ∀ reason, .fault reason ∈ inlet → reason = .interrupted

namespace Outlet.IsPatient

variable {outlet : Outlet}

/-- The end with another script. -/
theorem withScript (h : outlet.IsPatient) {later : List Reaction}
    (hlater : ∀ reaction ∈ later, reaction.IsPatient) :
    ({ outlet with script := later } : Outlet).IsPatient :=
  ⟨hlater, h.lineRoom, h.flushes⟩

theorem after (h : outlet.IsPatient) (taken : Bytes) : (outlet.after taken).IsPatient :=
  ⟨h.script, by rw [Outlet.after, h.lineRoom]; rfl, h.flushes⟩

/-- What a patient end takes of an offer: as much as it has room for. -/
theorem take_of_isPatient (h : outlet.IsPatient) {offered : Bytes} (hne : offered ≠ []) :
    (outlet.room = some 0 ∧ outlet.take offered = .error .brokenPipe) ∨
      ∃ n, 0 < n ∧ n ≤ offered.length ∧ (∀ room, outlet.room = some room → n ≤ room) ∧
        outlet.take offered = .ok (offered.take n) := by
  have hlength := List.length_pos_iff.2 hne
  unfold take
  rw [h.lineRoom, if_neg (by simp)]
  cases hroom : outlet.room with
  | none =>
    refine .inr ⟨offered.length, hlength, Nat.le_refl _, fun _ hsome => by simp at hsome, ?_⟩
    rw [List.take_length]
  | some room =>
    dsimp only
    -- A full channel breaks the pipe, one with room takes what fits, at least one byte.
    by_cases hzero : room = 0
    · rw [if_pos ⟨hzero, hne⟩, hzero]
      exact .inl ⟨rfl, rfl⟩
    · rw [if_neg fun hboth => hzero hboth.1]
      refine .inr ⟨min room offered.length, ?_, Nat.min_le_right _ _, ?_, ?_⟩
      · exact Nat.lt_min.2 ⟨Nat.pos_of_ne_zero hzero, hlength⟩
      · intro other hother
        exact Option.some.inj hother ▸ Nat.min_le_left _ _
      · rw [← List.take_eq_take_min]

/-- How a patient end meets a write: it is disturbed, it has no room left, or it takes some bytes.
Its script gets shorter, and apart from that only the bytes that it took show. -/
theorem write_of_isPatient (h : outlet.IsPatient) {offered : Bytes} (hne : offered ≠ []) :
    ∃ later : List Reaction, (∀ reaction ∈ later, reaction.IsPatient) ∧
      (outlet.write offered = (.error .interrupted, { outlet with script := later }) ∨
        (outlet.room = some 0 ∧
          outlet.write offered = (.error .brokenPipe, { outlet with script := later })) ∨
        ∃ n, 0 < n ∧ n ≤ offered.length ∧ (∀ room, outlet.room = some room → n ≤ room) ∧
          outlet.write offered = (.ok (offered.take n),
            ({ outlet with script := later } : Outlet).after (offered.take n))) := by
  unfold write
  cases hscript : outlet.script with
  | nil =>
    refine ⟨[], by simp, .inr ?_⟩
    have hsame : ({ outlet with script := [] } : Outlet) = outlet := by rw [← hscript]
    rw [hsame]
    rcases h.take_of_isPatient hne with ⟨hroom, htake⟩ | ⟨n, hpos, hle, hroom, htake⟩
    · exact .inl ⟨hroom, by rw [htake]⟩
    · exact .inr ⟨n, hpos, hle, hroom, by rw [htake]⟩
  | cons reaction later =>
    have hpatient := h.script
    rw [hscript, List.forall_mem_cons] at hpatient
    refine ⟨later, hpatient.2, ?_⟩
    cases reaction with
    | fail reason =>
      obtain rfl : reason = .interrupted := hpatient.1
      exact .inl rfl
    | accept most =>
      -- The script cuts the offer, and then the end takes of that what it has room for.
      have hcut : offered.take most ≠ [] := by
        have hmost : 0 < most := hpatient.1
        simp [hne, Nat.ne_of_gt hmost]
      have hlater := h.withScript hpatient.2
      dsimp only
      rcases hlater.take_of_isPatient hcut with ⟨hroom, htake⟩ | ⟨n, hpos, hle, hroom, htake⟩
      · exact .inr (.inl ⟨hroom, by rw [htake]⟩)
      · rw [List.length_take] at hle
        rw [List.take_take, Nat.min_eq_left (Nat.le_trans hle (Nat.min_le_left _ _))] at htake
        refine .inr (.inr ⟨n, hpos, Nat.le_trans hle (Nat.min_le_right _ _), hroom, ?_⟩)
        rw [htake]

end Outlet.IsPatient

namespace Inlet

/-- What a read gives and what is still to come after it are the bytes that were to come. -/
theorem available_append_bytes (most : Nat) (inlet : Inlet) :
    (available most inlet).1 ++ bytes (available most inlet).2 = bytes inlet := by
  fun_induction available most inlet with
  | case1 most value rest given ih => exact congrArg (value :: ·) ih
  | case2 => rfl

/-- A read of something meets nothing only before a fault or at the end. -/
theorem available_eq_nil {most : Nat} (hmost : 0 < most) {inlet : Inlet}
    (h : (available most inlet).1 = []) :
    inlet = [] ∨ ∃ reason rest, inlet = .fault reason :: rest := by
  unfold available at h
  split at h
  · simp at h
  · next hbyte =>
    cases inlet with
    | nil => exact .inl rfl
    | cons arrival rest =>
      cases arrival with
      | fault reason => exact .inr ⟨reason, rest, rfl⟩
      | byte value => exact absurd rfl (hbyte (most - 1) value rest (by omega))

theorem isPatient_available {most : Nat} {inlet : Inlet} (h : inlet.IsPatient) :
    (available most inlet).2.IsPatient := by
  fun_induction available most inlet with
  | case1 most value rest given ih => exact ih fun reason hreason => h reason (.tail _ hreason)
  | case2 => exact h

/-- A read at a patient end gives some of what is to come, and nothing only at the end, unless it
is disturbed. -/
theorem IsPatient.read {inlet : Inlet} (h : inlet.IsPatient) {most : Nat} (hmost : 0 < most) :
    (inlet.read most).2.IsPatient ∧
      match (inlet.read most).1 with
      | .ok given =>
        (given = [] → bytes inlet = []) ∧ given ++ bytes (inlet.read most).2 = bytes inlet
      | .error reason => reason = .interrupted ∧ bytes (inlet.read most).2 = bytes inlet := by
  unfold Inlet.read
  split
  · exact ⟨fun reason hreason => h reason (.tail _ hreason), rfl, rfl⟩
  · next reason rest hreason => exact absurd (h reason (.head _)) hreason
  · next hinterrupted hfault =>
    refine ⟨isPatient_available h, ?_, available_append_bytes most inlet⟩
    intro hnil
    obtain rfl | ⟨reason, rest, rfl⟩ := available_eq_nil hmost hnil
    · rfl
    · exact absurd rfl (hfault reason rest)

end Inlet

/-! ## Patient wirings -/

/-- The ends of a wiring on which a session runs. -/
structure Ends where
  input : Incoming
  output : Outgoing
  errorInput : Incoming
  error : Outgoing

namespace Ends

/-- The session's own ends. -/
def own : Ends := ⟨.input, .output, .error, .error⟩

/-- The observer's end, which gives and takes everything. -/
def observed : Ends := ⟨.observer, .observer, .observer, .observer⟩

/-- Whether a session on some ends writes at an end. -/
def Writes (ends : Ends) (channel : Outgoing) : Prop :=
  channel = ends.output ∨ channel = ends.error

theorem writes_output (ends : Ends) : ends.Writes ends.output := .inl rfl

theorem writes_error (ends : Ends) : ends.Writes ends.error := .inr rfl

end Ends

namespace Wiring

/-- The ends on which a session runs are patient, and the others are those of a wiring to compare
with. -/
structure Patient (ends : Ends) (base wiring : Wiring) : Prop where
  inlet : (wiring.inlet ends.input).IsPatient
  outlet : ∀ channel, ends.Writes channel → (wiring.outlet channel).IsPatient
  otherInlet : ∀ channel ≠ ends.input, wiring.inlet channel = base.inlet channel
  otherOutlet : ∀ channel, ¬ ends.Writes channel → wiring.outlet channel = base.outlet channel

namespace Patient

/-- A wiring is patient on the session's own ends if these are. -/
theorem of_own {wiring : Wiring} (hinput : (wiring.inlet .input).IsPatient)
    (houtput : (wiring.outlet .output).IsPatient) (herror : (wiring.outlet .error).IsPatient) :
    Patient .own wiring wiring where
  inlet := hinput
  outlet channel hchannel := by
    rcases hchannel with rfl | rfl
    · exact houtput
    · exact herror
  otherInlet _ _ := rfl
  otherOutlet _ _ := rfl

variable {ends : Ends} {base wiring : Wiring} (h : Patient ends base wiring)

include h

theorem logged (crossing : Crossing) : Patient ends base (wiring.logged crossing) :=
  ⟨h.inlet, h.outlet, h.otherInlet, h.otherOutlet⟩

theorem setInlet {inlet : Inlet} (hinlet : inlet.IsPatient) :
    Patient ends base (wiring.setInlet inlet ends.input) where
  inlet := by
    rw [inlet_setInlet, Function.update_self]
    exact hinlet
  outlet := by
    rw [outlet_setInlet]
    exact h.outlet
  otherInlet channel hchannel := by
    rw [inlet_setInlet, Function.update_of_ne hchannel]
    exact h.otherInlet channel hchannel
  otherOutlet := by
    rw [outlet_setInlet]
    exact h.otherOutlet

theorem setOutlet {channel : Outgoing} (hchannel : ends.Writes channel) {outlet : Outlet}
    (houtlet : outlet.IsPatient) : Patient ends base (wiring.setOutlet outlet channel) where
  inlet := by
    rw [inlet_setOutlet]
    exact h.inlet
  outlet other hother := by
    rw [outlet_setOutlet]
    by_cases hsame : other = channel
    · rw [hsame, Function.update_self]
      exact houtlet
    · rw [Function.update_of_ne hsame]
      exact h.outlet other hother
  otherInlet := by
    rw [inlet_setOutlet]
    exact h.otherInlet
  otherOutlet other hother := by
    have hne : other ≠ channel := fun hsame => hother (hsame ▸ hchannel)
    rw [outlet_setOutlet, Function.update_of_ne hne]
    exact h.otherOutlet other hother

end Patient

/-- How a patient end of a wiring meets a write. -/
theorem write_of_isPatient {wiring : Wiring} {channel : Outgoing}
    (h : (wiring.outlet channel).IsPatient) {offered : Bytes} (hne : offered ≠ []) :
    ∃ outlet : Outlet, outlet.IsPatient ∧ outlet.room = (wiring.outlet channel).room ∧
      (wiring.write channel offered = (.error .interrupted, wiring.setOutlet outlet channel) ∨
        (outlet.room = some 0 ∧
          wiring.write channel offered = (.error .brokenPipe, wiring.setOutlet outlet channel)) ∨
        ∃ n, 0 < n ∧ n ≤ offered.length ∧ (∀ room, outlet.room = some room → n ≤ room) ∧
          wiring.write channel offered =
            (.ok n, (wiring.setOutlet (outlet.after (offered.take n)) channel).logged
              (.wrote channel (offered.take n)))) := by
  obtain ⟨later, hlater, hcases⟩ := h.write_of_isPatient hne
  refine ⟨{ wiring.outlet channel with script := later }, h.withScript hlater, rfl, ?_⟩
  rcases hcases with hwrite | ⟨hroom, hwrite⟩ | ⟨n, hpos, hle, hroom, hwrite⟩
  · refine .inl ?_
    simp only [write, hwrite]
  · refine .inr (.inl ⟨hroom, ?_⟩)
    simp only [write, hwrite]
  · have htaken : offered.take n ≠ [] := by simp [hne, Nat.ne_of_gt hpos]
    refine .inr (.inr ⟨n, hpos, hle, hroom, ?_⟩)
    simp only [write, hwrite, if_neg htaken, List.length_take_of_le hle]

/-- The streams that write at patient ends work towards what whole buffers do to the ledger. -/
theorem steady_sink {ends : Ends} {channel : Outgoing} (hchannel : ends.Writes channel)
    (base : Wiring) :
    (sink channel).Steady (Patient ends base) ledger (Ledger.intake channel) where
  write bytes wiring hne hwiring := by
    obtain ⟨outlet, houtlet, hsame, hcases⟩ :=
      write_of_isPatient (hwiring.outlet channel hchannel) hne
    have hledger := wiring.ledger_setOutlet channel outlet hsame
    show Patient ends base (wiring.write channel bytes).2 ∧ Intake.Meets _ bytes wiring.ledger
      (wiring.write channel bytes).2.ledger (wiring.write channel bytes).1
    rcases hcases with hwrite | ⟨hroom, hwrite⟩ | ⟨n, hpos, hle, hroom, hwrite⟩
    · rw [hwrite]
      refine ⟨hwiring.setOutlet hchannel houtlet, ?_⟩
      dsimp only
      rw [hledger, Intake.Meets, if_pos rfl]
    · rw [hwrite]
      refine ⟨hwiring.setOutlet hchannel houtlet, ?_⟩
      dsimp only
      rw [hledger, Intake.Meets, if_neg (by simp)]
      have hfull : wiring.ledger.room channel = some 0 := hsame.symm.trans hroom
      refine (Ledger.put_of_room_eq_some hfull bytes).trans ?_
      rw [if_neg (by simpa using hne), List.take_zero, Ledger.after_nil]
    · rw [hwrite]
      refine ⟨(hwiring.setOutlet hchannel (houtlet.after _)).logged _, hpos, ?_⟩
      dsimp only
      rw [wiring.ledger_wrote channel outlet hsame]
      -- What was taken and then the rest is the whole buffer.
      have hlength : (bytes.take n).length = n := List.length_take_of_le hle
      have hfits : wiring.ledger.put channel (bytes.take n) =
          (.ok (), wiring.ledger.after channel (bytes.take n)) :=
        Ledger.put_of_fits fun room hsome => hlength.symm ▸ hroom room (hsame.trans hsome)
      have hparts := (Ledger.intake channel).put_append_of_ok hfits (bytes.drop n)
      rw [List.take_append_drop] at hparts
      exact hparts.symm
  flush := by
    rintro wiring _ ⟨hwiring, rfl⟩
    refine ⟨?_, hwiring, rfl⟩
    show (if _ then _ else _) = _
    rw [(hwiring.outlet channel hchannel).flushes]
    rfl

/-- The streams that read at patient ends give what is still to come in the ledger. -/
theorem steady_source (ends : Ends) (base : Wiring) :
    (source ends.input).Steady (Patient ends base) ledger (Ledger.reserve ends.input) where
  read most wiring hmost hwiring := by
    obtain ⟨hlater, hread⟩ := hwiring.inlet.read hmost
    simp only [source, Wiring.read]
    rcases hstep : (wiring.inlet ends.input).read most with ⟨answer, inlet⟩
    rw [hstep] at hlater hread
    cases answer with
    | error fault =>
      obtain ⟨hfault, hbytes⟩ := hread
      exact ⟨hwiring.setInlet hlater, hfault, wiring.ledger_setInlet _ hbytes⟩
    | ok given =>
      obtain ⟨hend, hbytes⟩ := hread
      dsimp only at hbytes ⊢
      -- A read without bytes leaves no entry in the transcript, so the books are compared apart.
      by_cases hgiven : given = []
      · subst hgiven
        rw [if_pos rfl]
        exact ⟨hwiring.setInlet hlater, fun _ => hend rfl, rfl,
          (wiring.ledger_setInlet _ hbytes).trans ((Ledger.reserve _).consume_zero _).symm⟩
      · rw [if_neg hgiven]
        refine ⟨(hwiring.setInlet hlater).logged _, fun hnil => absurd hnil hgiven, ?_,
          wiring.ledger_read _ hbytes⟩
        show given = (wiring.inlet ends.input).bytes.take _
        rw [← hbytes, List.take_left]

end Wiring

end Honeypot
