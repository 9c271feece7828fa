import Honeypot.Proofs.Shell.Arrangement
import Honeypot.Proofs.Shell.Wired

/-!
# Disturbed sessions

Reads and writes may be interrupted, and writes may be cut short. A session of the demo commands
repeats what was interrupted and goes on after what was cut short, at every place where it reads or
writes. So it is the same session, byte by byte, as without the disturbances. The two may list
their environments in different orders, unless a name in their settings passes for another one.

* `Wiring.IsCalm`: a wiring at which no call is disturbed.
* `Wiring.Disturbs`: the same wiring with interruptions and short writes put in.
* `Console.run_disturbed`: disturbances do not show in a session.
* `Console.disturbed_elsewhere`: a disturbed session that finds another home directory.

## References

- [SPEC] `SPEC_FULL.md`: §4.3, Terminal Output Adapter; §10, Supplementary Features
-/

namespace Honeypot

/-- What arrives at an end, without the interruptions. -/
def Inlet.calmed (inlet : Inlet) : Inlet := inlet.filter (· ≠ .fault .interrupted)

/-- An end that takes every write at once, as far as it has room. -/
def Outlet.calmed (outlet : Outlet) : Outlet := { outlet with script := [] }

namespace Wiring

/-- Nothing but bytes arrives, every write is met by the room of its end alone, and flushing does
not fail. -/
structure IsCalm (wiring : Wiring) : Prop where
  inlet : ∀ channel, ∃ bytes : Bytes, wiring.inlet channel = bytes.map .byte
  outlet : ∀ channel, ∃ room, wiring.outlet channel = { room }

/-- A wiring with any number of interruptions put in before what arrives and before any write, and
with any writes cut short, but not to nothing. -/
structure Disturbs (disturbed calm : Wiring) : Prop where
  inlet : ∀ channel, (disturbed.inlet channel).calmed = calm.inlet channel
  outlet : ∀ channel, (disturbed.outlet channel).calmed = calm.outlet channel
  script : ∀ channel, ∀ reaction ∈ (disturbed.outlet channel).script, reaction.IsPatient
  log : disturbed.log = calm.log

end Wiring

/-! ## Patience and ledgers of disturbed wirings -/

/-- Interruptions bring no bytes. -/
theorem Inlet.bytes_calmed (inlet : Inlet) : inlet.calmed.bytes = inlet.bytes := by
  unfold calmed
  induction inlet with
  | nil => rfl
  | cons arrival rest ih =>
    cases arrival with
    | byte value => exact congrArg (value :: ·) ih
    | fault reason =>
      rw [List.filter_cons]
      split
      · exact ih
      · exact ih

/-- Where only bytes are left without the interruptions, nothing else was lost. -/
theorem Inlet.isPatient_of_calmed_eq {inlet : Inlet} {bytes : Bytes}
    (h : inlet.calmed = bytes.map .byte) : inlet.IsPatient := by
  intro reason hreason
  by_contra hne
  have hmem : Arrival.fault reason ∈ inlet.calmed := by
    rw [calmed, List.mem_filter]
    exact ⟨hreason, by simpa using hne⟩
  rw [h] at hmem
  simp at hmem

namespace Wiring.Disturbs

variable {disturbed calm : Wiring} (h : disturbed.Disturbs calm)

include h

/-- The ends of a disturbed wiring are patient. -/
theorem patient (hcalm : calm.IsCalm) (ends : Ends) : Patient ends disturbed disturbed where
  inlet := by
    obtain ⟨bytes, hbytes⟩ := hcalm.inlet ends.input
    exact Inlet.isPatient_of_calmed_eq ((h.inlet ends.input).trans hbytes)
  outlet channel _ := by
    obtain ⟨room, hroom⟩ := hcalm.outlet channel
    have hsame := (h.outlet channel).trans hroom
    exact ⟨h.script channel, congrArg Outlet.lineRoom hsame, congrArg Outlet.flushFails hsame⟩
  otherInlet _ _ := rfl
  otherOutlet _ _ := rfl

/-- Disturbances do not show in the ledger. -/
theorem ledger_eq : disturbed.ledger = calm.ledger := by
  ext1
  · funext channel
    show (disturbed.inlet channel).bytes = (calm.inlet channel).bytes
    rw [← h.inlet channel, Inlet.bytes_calmed]
  · funext channel
    have hroom : (disturbed.outlet channel).calmed.room = (calm.outlet channel).room :=
      congrArg Outlet.room (h.outlet channel)
    exact hroom
  · show Wiring.transcript _ = Wiring.transcript _
    rw [transcript, transcript, h.log]

end Wiring.Disturbs

/-- A calm wiring is disturbed by nothing. -/
theorem Wiring.IsCalm.disturbs {calm : Wiring} (h : calm.IsCalm) : calm.Disturbs calm where
  inlet channel := by
    obtain ⟨bytes, hbytes⟩ := h.inlet channel
    rw [hbytes, Inlet.calmed, List.filter_eq_self]
    simp
  outlet channel := by
    obtain ⟨room, hroom⟩ := h.outlet channel
    rw [hroom]
    rfl
  script channel := by
    obtain ⟨room, hroom⟩ := h.outlet channel
    rw [hroom]
    simp
  log := rfl

/-! ## Disturbed sessions -/

namespace Console

/-- Sessions that end in the same way for everyone who looks at them: with the same result, status,
process and reports, and with the same bytes gone and still to come at every end. Their processes
may list their environments in different orders. -/
structure SameEnd (one other : Except Fault Status × Session Wiring) : Prop where
  result : one.1 = other.1
  status : one.2.status = other.2.status
  process : one.2.machine.process.Matches other.2.machine.process
  reports : one.2.machine.reports = other.2.machine.reports
  /-- What crossed byte by byte, in one order over all ends. -/
  transcript : one.2.machine.plumbing.transcript = other.2.machine.plumbing.transcript
  pending : ∀ channel, (one.2.machine.plumbing.inlet channel).bytes =
    (other.2.machine.plumbing.inlet channel).bytes

/-- Disturbances do not show in a session of the demo commands, observed or not: it ends in the same
way as the session of the same settings without them, and byte by byte the same crossed, in the same
order over all ends. Both list their environments alike, or no name in the settings passes for one
that commands look up. -/
theorem run_disturbed {settings : Settings} {volume : Volume} {order order' : Arrangement}
    {process process' : Process}
    (hprocess : Console.process settings volume order = .ok process)
    (hprocess' : Console.process settings volume order' = .ok process')
    (horder : order = order' ∨ Environment.IsHonest settings.environment) (observed : Bool)
    {disturbed calm : Wiring} (hcalm : calm.IsCalm) (h : disturbed.Disturbs calm)
    (reports : List Report) (status : Status) :
    let shellOf := shell settings (registry settings) Wiring.streams (recorder observed)
    SameEnd ((shellOf process).run ⟨⟨process, disturbed, reports⟩, status⟩)
      ((shellOf process').run ⟨⟨process', calm, reports⟩, status⟩) := by
  dsimp only
  -- Up to the order the calm session is the one that starts with the same process.
  rw [run_of_process hprocess hprocess' horder, run_eq_run_ends, run_eq_run_ends]
  -- Both sessions show in their ledgers only, and the ledgers are the same.
  have hledgers : Ledger.Accord Eq Never (ends observed) (ends observed) :=
    .of_alike (.refl _) (.refl _) fun _ => ⟨.refl _, .refl _⟩
  have hrelated : Session.Related
      (Wiring.Matched (ends observed) (ends observed) disturbed calm Eq)
      ⟨⟨process, disturbed, reports⟩, status⟩ ⟨⟨process, calm, reports⟩, status⟩ :=
    ⟨⟨rfl, ⟨h.patient hcalm _, hcalm.disturbs.patient hcalm _, h.ledger_eq⟩, rfl⟩, rfl⟩
  have hrun := (accord_wired settings process hledgers disturbed calm).run_until.alike
    fun _ _ hapart => hapart.2
  obtain ⟨hanswer, hlater⟩ := hrun _ _ hrelated
  have hledger := hlater.machine.plumbing.2.2
  constructor
  case result => exact hanswer
  case status => exact hlater.status
  case process =>
    rw [hlater.machine.process]
    exact Process.matches_relisted _ order'
  case reports => exact hlater.machine.reports
  case transcript => exact congrArg Ledger.crossed hledger
  case pending => exact fun channel => congrFun (congrArg Ledger.pending hledger) channel

/-- A wiring at which input alone arrives, and that takes everything at once, is calm. -/
theorem isCalm_of_input (bytes : Bytes) : Wiring.IsCalm { input := bytes.map .byte } where
  inlet
    | .input => ⟨bytes, rfl⟩
    | .error | .observer => ⟨[], rfl⟩
  outlet channel := ⟨none, by cases channel <;> rfl⟩

/-- It may be disturbed at its input and its output alone. -/
theorem disturbs_of_input {bytes : Bytes} {input : Inlet} {script : List Reaction}
    (hinput : input.calmed = bytes.map .byte)
    (hscript : ∀ reaction ∈ script, reaction.IsPatient) :
    Wiring.Disturbs { input, output := { script } } { input := bytes.map .byte } where
  inlet
    | .input => hinput
    | .error | .observer => rfl
  outlet channel := by cases channel <;> rfl
  script
    | .output => hscript
    | .error | .observer | .cast => by simp [Wiring.outlet]
  log := rfl

/-- A session in which two words are printed, with every call disturbed. -/
def disturbedEcho : Wiring where
  input := (Text.encode "echo one two\n").flatMap fun byte => [.fault .interrupted, .byte byte]
  output := { script := [.fail .interrupted, .accept 1, .fail .interrupted, .accept 2, .accept 1] }

/-- The same session with no call disturbed. -/
def calmEcho : Wiring where
  input := (Text.encode "echo one two\n").map .byte

/-- The session with disturbances ends in the same way as the one without, though they list their
environments the other way round. -/
theorem sameEnd_disturbedEcho :
    calmEcho.IsCalm ∧ disturbedEcho.Disturbs calmEcho ∧
      ∃ process process', Console.process posingOthers (.ofStore .empty) .insertion = .ok process ∧
        Console.process posingOthers (.ofStore .empty) .reversed = .ok process' ∧
        Environment.IsHonest posingOthers.environment ∧
        SameEnd ((shell posingOthers (registry posingOthers) Wiring.streams none process).run
            ⟨⟨process, disturbedEcho, []⟩, 0⟩)
          ((shell posingOthers (registry posingOthers) Wiring.streams none process').run
            ⟨⟨process', calmEcho, []⟩, 0⟩) := by
  have hcalm : calmEcho.IsCalm := isCalm_of_input _
  have hdisturbs : disturbedEcho.Disturbs calmEcho :=
    disturbs_of_input (by decide) (by simp [Reaction.IsPatient])
  have hprocess : Console.process posingOthers (.ofStore .empty) .insertion = .ok _ := rfl
  have hprocess' : Console.process posingOthers (.ofStore .empty) .reversed = .ok _ := rfl
  exact ⟨hcalm, hdisturbs, _, _, hprocess, hprocess', isHonest_posingOthers,
    run_disturbed hprocess hprocess' (.inr isHonest_posingOthers) false hcalm hdisturbs [] 0⟩

/-- The way home, with every call disturbed. -/
def disturbedReturn : Wiring where
  input := (Text.encode "cd\n").flatMap fun byte => [.fault .interrupted, .byte byte]
  output := { script := [.fail .interrupted, .accept 1] }

/-- The same way with no call disturbed. -/
def calmReturn : Wiring where
  input := (Text.encode "cd\n").map .byte

/-- A session whose settings have a name that passes for `HOME` may end elsewhere with disturbances
than without, as its environment is listed. -/
theorem disturbed_elsewhere :
    posingHome.check = .ok posingHome ∧ (RootTree.populate posingHome .empty).1 = .ok () ∧
      calmReturn.IsCalm ∧ disturbedReturn.Disturbs calmReturn ∧
      ∃ process process', Console.process posingHome posingVolume .insertion = .ok process ∧
        Console.process posingHome posingVolume .reversed = .ok process' ∧
        ((shell posingHome (registry posingHome) Wiring.streams none process).run
          ⟨⟨process, disturbedReturn, []⟩, 0⟩).2.machine.process.directory = "/tmp" ∧
        ((shell posingHome (registry posingHome) Wiring.streams none process').run
          ⟨⟨process', calmReturn, []⟩, 0⟩).2.machine.process.directory = "/root" := by
  have hdisturbs : disturbedReturn.Disturbs calmReturn :=
    disturbs_of_input (by decide) (by simp [Reaction.IsPatient])
  exact ⟨rfl, by decide +kernel, isCalm_of_input _, hdisturbs, _, _, rfl, rfl, by decide +kernel,
    by decide +kernel⟩

end Console

end Honeypot
