import Honeypot.Proofs.Shell.Arrangement
import Honeypot.Proofs.Shell.Wired

/-!
# Observed sessions

A session that has an observer as its recorder is the session that it would be without one, with
everything that it reads and writes going to the observer instead. The two sessions may list their
environments in different orders, unless a name in their settings passes for another one.

* `Crossing.observed`: what crosses an end of the session, crossing the observer's end instead.
* `Wiring.Observes`: an observer who offers what the session's own input offers.
* `Console.run_observes`: an observed session goes as the session without an observer, and leaves
  its own ends alone.
* `Console.observed_elsewhere`: an observed session that finds another home directory.

## References

- [SPEC] `SPEC_FULL.md`: §4.4, IO-Redirecting Decorator; §10, Supplementary Features
-/

namespace Honeypot

/-- A crossing of one of the session's ends, at the observer's end instead. -/
def Crossing.observed : Crossing → Crossing
  | .read _ bytes => .read .observer bytes
  | .wrote _ bytes => .wrote .observer bytes

theorem Crossing.map_observed_singles_read (channel : Incoming) (bytes : Bytes) :
    (Crossing.read channel bytes).singles.map observed =
      (Crossing.read .observer bytes).singles := by
  simp [singles, observed]

theorem Crossing.map_observed_singles_wrote (channel : Outgoing) (bytes : Bytes) :
    (Crossing.wrote channel bytes).singles.map observed =
      (Crossing.wrote .observer bytes).singles := by
  simp [singles, observed]

/-! ## Ledgers -/

/-- The ledger of an observed session and the one that it would have on its own ends, none of which
runs out of room. -/
structure Ledger.Observes (observed own : Ledger) : Prop where
  input : observed.pending .observer = own.pending .input
  observer : observed.room .observer = none
  output : own.room .output = none
  error : own.room .error = none
  crossed : observed.crossed = own.crossed.map Crossing.observed

namespace Ledger.Observes

variable {observed own : Ledger} (h : observed.Observes own)

include h

/-- Bytes are read from the observer as from the session's own input. -/
theorem consume (n : Nat) : (observed.consume .observer n).Observes (own.consume .input n) where
  input := by simp [Ledger.consume, h.input]
  observer := h.observer
  output := h.output
  error := h.error
  crossed := by
    simp only [Ledger.consume, List.map_append, Crossing.map_observed_singles_read]
    rw [h.input, h.crossed]

/-- Bytes are taken by the observer as by the session's own ends. -/
theorem after {channel : Outgoing} (bytes : Bytes) :
    (observed.after .observer bytes).Observes (own.after channel bytes) where
  input := h.input
  observer := room_after_eq_none h.observer _ _
  output := room_after_eq_none h.output _ _
  error := room_after_eq_none h.error _ _
  crossed := by
    simp only [Ledger.after, List.map_append, Crossing.map_observed_singles_wrote]
    rw [h.crossed]

/-- Whole buffers go to the observer as to the session's own ends. -/
theorem put {channel : Outgoing} (hroom : own.room channel = none) (bytes : Bytes) :
    (observed.put .observer bytes).1 = (own.put channel bytes).1 ∧
      (observed.put .observer bytes).2.Observes (own.put channel bytes).2 := by
  rw [Ledger.put_of_room_eq_none h.observer, Ledger.put_of_room_eq_none hroom]
  exact ⟨rfl, h.after bytes⟩

end Ledger.Observes

/-- Whole buffers, lines and inputs do the same to the ledgers of observed sessions. -/
theorem Ledger.accord_observes : Ledger.Accord Observes Never .observed .own := by
  apply Ledger.Accord.of_alike
  case heverything => exact Reserve.alike_everything (fun _ _ h => h.input) fun _ _ h => h.consume
  case hline => exact Reserve.alike_line (fun _ _ h => h.input) fun _ _ h => h.consume
  case hput =>
    intro bytes
    constructor
    · exact fun observed own h => h.put h.output bytes
    · exact fun observed own h => h.put h.error bytes

/-! ## Sessions -/

/-- A wiring whose observer offers what another one's own input offers. The streams of both may be
disturbed, but they never fail. -/
structure Wiring.Observes (observed own : Wiring) : Prop where
  sameInput : (observed.inlet .observer).bytes = (own.inlet .input).bytes
  observerInput : (observed.inlet .observer).IsPatient
  ownInput : (own.inlet .input).IsPatient
  observer : (observed.outlet .observer).NeverFails
  output : (own.outlet .output).NeverFails
  error : (own.outlet .error).NeverFails
  transcript : observed.transcript = own.transcript.map Crossing.observed

namespace Wiring.Observes

variable {observed own : Wiring} (h : observed.Observes own)

include h

theorem patient_observed : Patient .observed observed observed where
  inlet := h.observerInput
  outlet channel hchannel := by
    obtain rfl : channel = .observer := hchannel.elim id id
    exact h.observer.toIsPatient
  otherInlet _ _ := rfl
  otherOutlet _ _ := rfl

theorem patient_own : Patient .own own own :=
  .of_own h.ownInput h.output.toIsPatient h.error.toIsPatient

theorem ledger : observed.ledger.Observes own.ledger :=
  ⟨h.sameInput, h.observer.room, h.output.room, h.error.room, h.transcript⟩

end Wiring.Observes

namespace Console

/-- An observed session of the demo commands goes as the session of the same settings without an
observer, if both list their environments alike or no name in the settings passes for one that
commands look up: it comes to the same result and leaves the same status, process, reports and
prompt. The observer gets and gives byte by byte what crosses the ends of the other session, in one
order over all of them. The observed session leaves the other ends of its wiring alone, and it is
the same session with any streams in the place of its own. -/
theorem run_observes {settings : Settings} {volume : Volume} {order order' : Arrangement}
    {process process' : Process}
    (hprocess : Console.process settings volume order = .ok process)
    (hprocess' : Console.process settings volume order' = .ok process')
    (horder : order = order' ∨ Environment.IsHonest settings.environment) {observed own : Wiring}
    (h : observed.Observes own) (reports : List Report) (status : Status) :
    let watched := shell settings (registry settings) Wiring.streams (some Wiring.observerDuplex)
      process
    let alone := shell settings (registry settings) Wiring.streams none process'
    let one := watched.run ⟨⟨process, observed, reports⟩, status⟩
    let other := alone.run ⟨⟨process', own, reports⟩, status⟩
    one.1 = other.1 ∧ one.2.status = other.2.status ∧
      one.2.machine.process.Matches other.2.machine.process ∧
      one.2.machine.reports = other.2.machine.reports ∧
      watched.prompt one.2 = alone.prompt other.2 ∧
      one.2.machine.plumbing.transcript =
        other.2.machine.plumbing.transcript.map Crossing.observed ∧
      (∀ channel ≠ .observer, one.2.machine.plumbing.inlet channel = observed.inlet channel) ∧
      (∀ channel ≠ .observer, one.2.machine.plumbing.outlet channel = observed.outlet channel) ∧
      ∀ streams, (shell settings (registry settings) streams (some Wiring.observerDuplex)
        process).run ⟨⟨process, observed, reports⟩, status⟩ = one := by
  intro watched alone one other
  -- Up to the order the other session is the one that starts with the same process.
  let same := (shell settings (registry settings) Wiring.streams none process).run
    ⟨⟨process, own, reports⟩, status⟩
  have hother : other = (same.1, same.2.relisted order') :=
    run_of_process hprocess hprocess' horder Wiring.streams none own reports status
  obtain rfl := eq_relisted_of_process hprocess hprocess'
  rw [hother]
  -- The observed session is the one on the observer's ends, and that one is compared.
  have hone : one = (shell settings (registry settings) Ends.observed.streams none process).run
      ⟨⟨process, observed, reports⟩, status⟩ := run_observed settings process _ _
  have hrelated : Session.Related (Wiring.Matched .observed .own observed own Ledger.Observes)
      ⟨⟨process, observed, reports⟩, status⟩ ⟨⟨process, own, reports⟩, status⟩ :=
    ⟨⟨rfl, ⟨h.patient_observed, h.patient_own, h.ledger⟩, rfl⟩, rfl⟩
  have hrun := (accord_wired settings process Ledger.accord_observes observed own).run_until.alike
    fun _ _ hapart => hapart.2
  obtain ⟨hanswer, hlater⟩ := hrun _ _ hrelated
  rw [← hone] at hanswer hlater
  obtain ⟨hpatient, -, hledger⟩ := hlater.machine.plumbing
  have hmatches : one.2.machine.process.Matches (same.2.relisted order').machine.process := by
    rw [hlater.machine.process]
    exact Process.matches_relisted _ order'
  have hprompt : watched.prompt one.2 = alone.prompt (same.2.relisted order') := by
    show alone.promptIn one.2.machine.process.directory = alone.prompt _
    rw [hlater.machine.process]
    rfl
  refine ⟨hanswer, hlater.status, hmatches, hlater.machine.reports, hprompt, hledger.crossed,
    hpatient.otherInlet, ?_, ?_⟩
  · intro channel hne
    exact hpatient.otherOutlet channel fun hwrites => hwrites.elim hne hne
  · intro streams
    rw [hone]
    exact run_observed settings process streams _

/-- A session that prints and complains, typed by an observer. -/
def watchedComplaint : Wiring where
  observerInput := (Text.encode "pwd\nnothing\n").map .byte
  observer := { script := [.accept 3, .fail .interrupted] }

/-- The same session, typed at its own input. -/
def ownComplaint : Wiring where
  input := (Text.encode "pwd\nnothing\n").map .byte

/-- An observed session that prints and complains goes as the one without an observer, all of it at
the observer's end, though they list their environments the other way round. -/
theorem run_watchedComplaint :
    watchedComplaint.Observes ownComplaint ∧
      ∃ process process', Console.process posingOthers (.ofStore .empty) .insertion = .ok process ∧
        Console.process posingOthers (.ofStore .empty) .reversed = .ok process' ∧
        Environment.IsHonest posingOthers.environment ∧
        ((shell posingOthers (registry posingOthers) Wiring.streams (some Wiring.observerDuplex)
            process).run ⟨⟨process, watchedComplaint, []⟩, 0⟩).2.machine.plumbing.transcript =
          ((shell posingOthers (registry posingOthers) Wiring.streams none process').run
            ⟨⟨process', ownComplaint, []⟩, 0⟩).2.machine.plumbing.transcript.map
              Crossing.observed := by
  have hobserves : watchedComplaint.Observes ownComplaint := by
    constructor
    case sameInput => rfl
    case observerInput => simp [Inlet.IsPatient, Wiring.inlet, watchedComplaint]
    case ownInput => simp [Inlet.IsPatient, Wiring.inlet, ownComplaint]
    case observer =>
      refine ⟨⟨?_, rfl, rfl⟩, rfl⟩
      simp [Wiring.outlet, watchedComplaint, Reaction.IsPatient]
    case output => exact ⟨⟨by simp [Wiring.outlet, ownComplaint], rfl, rfl⟩, rfl⟩
    case error => exact ⟨⟨by simp [Wiring.outlet, ownComplaint], rfl, rfl⟩, rfl⟩
    case transcript => rfl
  have hprocess : Console.process posingOthers (.ofStore .empty) .insertion = .ok _ := rfl
  have hprocess' : Console.process posingOthers (.ofStore .empty) .reversed = .ok _ := rfl
  exact ⟨hobserves, _, _, hprocess, hprocess', isHonest_posingOthers,
    (run_observes hprocess hprocess' (.inr isHonest_posingOthers) hobserves [] 0).2.2.2.2.2.1⟩

/-- The way home, typed by an observer. -/
def watchedReturn : Wiring where
  observerInput := (Text.encode "cd\n").map .byte

/-- The way home, typed at the session's own input. -/
def ownReturn : Wiring where
  input := (Text.encode "cd\n").map .byte

/-- A session whose settings have a name that passes for `HOME` finds its home directory or another
one, as its environment is listed. So an observed session may end elsewhere than the one without an
observer. -/
theorem observed_elsewhere :
    posingHome.check = .ok posingHome ∧ (RootTree.populate posingHome .empty).1 = .ok () ∧
      watchedReturn.Observes ownReturn ∧
      ∃ process process', Console.process posingHome posingVolume .insertion = .ok process ∧
        Console.process posingHome posingVolume .reversed = .ok process' ∧
        ((shell posingHome (registry posingHome) Wiring.streams (some Wiring.observerDuplex)
          process).run ⟨⟨process, watchedReturn, []⟩, 0⟩).2.machine.process.directory = "/tmp" ∧
        ((shell posingHome (registry posingHome) Wiring.streams none process').run
          ⟨⟨process', ownReturn, []⟩, 0⟩).2.machine.process.directory = "/root" := by
  have hobserves : watchedReturn.Observes ownReturn := by
    constructor
    case sameInput | transcript => rfl
    case observerInput => simp [Inlet.IsPatient, Wiring.inlet, watchedReturn]
    case ownInput => simp [Inlet.IsPatient, Wiring.inlet, ownReturn]
    case observer => exact ⟨⟨by simp [Wiring.outlet, watchedReturn], rfl, rfl⟩, rfl⟩
    case output | error => exact ⟨⟨by simp [Wiring.outlet, ownReturn], rfl, rfl⟩, rfl⟩
  exact ⟨rfl, by decide +kernel, hobserves, _, _, rfl, rfl, by decide +kernel, by decide +kernel⟩

end Console

end Honeypot
