import Honeypot.Proofs.Process.Environment
import Honeypot.Proofs.Shell.Upkeep
import Honeypot.Proofs.Userland.Exports

/-!
# Variables looked up in two ways

The shell finds a variable in the environment itself. Commands go through its `KEY=VALUE` texts, in
whatever order these come, and cut each of them at its first equals sign. The two ways give the same
unless a name holds an equals sign, which moves a part of the name into the value. No session makes
such a name, but one may start with it.

* `Console.mem_keys_of_process`: the names that a session starts with.
* `Console.lookUps_agree_iff`: when they agree throughout a session.
* `Console.lookUps_disagree`: a session that finds its user under another name.

## References

- [SPEC] `SPEC_FULL.md`: §4.2, Virtual Process Context; §10, Supplementary Features
-/

namespace Honeypot

/-! ## Sessions -/

namespace Console

variable {settings : Settings} {volume : Volume} {order : Arrangement} {process : Process}

/-- The variables that say who the user of a session is and where. -/
def ownNames : List String := ["HOME", "USER", "LOGNAME", "PWD"]

/-- The process of a session is one that was started in the home directory, with variables set. -/
theorem exists_start (h : Console.process settings volume order = .ok process) :
    ∃ started, Process.start "console" settings.home volume settings.geometry order = .ok started ∧
      process = started.withEnvironment (bindings settings) := by
  unfold Console.process at h
  cases hstart : Process.start "console" settings.home volume settings.geometry order with
  | error failure =>
    rw [hstart] at h
    cases h
  | ok started =>
    rw [hstart] at h
    exact ⟨started, rfl, (Except.ok.inj h).symm⟩

/-- A session starts with the variables that its settings give and those of its own. -/
theorem mem_keys_of_process (h : Console.process settings volume order = .ok process)
    {name : String} :
    name ∈ process.environment.keys ↔ name ∈ settings.environment.keys ∨ name ∈ ownNames := by
  obtain ⟨started, hstart, rfl⟩ := exists_start h
  obtain ⟨-, later, -, rfl⟩ := Process.start_eq_ok_iff.1 hstart
  show name ∈ (Dictionary.insertAll ∅ (bindings settings)).keys ↔ _
  rw [Dictionary.mem_keys_insertAll, bindings, List.map_append, List.mem_append]
  exact or_iff_right List.not_mem_nil

/-- In a session that was kept sound no name holds an equals sign unless one did in the settings. -/
theorem forall_equals_not_mem_iff {home : String} {later : Process}
    (hprocess : Console.process settings volume order = .ok process)
    (h : Process.Sound home process later) :
    (∀ name ∈ later.environment.keys, '=' ∉ name.toList) ↔
      ∀ name ∈ settings.environment.keys, '=' ∉ name.toList := by
  constructor
  · intro hnames name hname
    exact hnames name (h.initial name ((mem_keys_of_process hprocess).2 (.inl hname)))
  · intro hnames name hname
    rcases h.keys name hname with hfirst | rfl | hidentifier
    · rcases (mem_keys_of_process hprocess).1 hfirst with hsettings | hown
      · exact hnames name hsettings
      · have hall : ∀ name ∈ ownNames, '=' ∉ name.toList := by decide
        exact hall name hown
    · decide
    · exact hidentifier.equals_not_mem

variable {σ : Type} [Supply σ]

/-- Between all lines of a session and at its end, commands that go through the texts of the
environment, in whatever order these come, find under every name just what the shell finds in the
environment, exactly if no name in the settings of the session holds an equals sign. -/
theorem lookUps_agree_iff (hprocess : Console.process settings volume order = .ok process)
    (streams : Streams σ) (recorder : Option (Duplex σ)) (plumbing : σ) :
    let shell := Console.shell settings (registry settings) streams recorder process
    let start : Session σ := ⟨⟨process, plumbing, []⟩, 0⟩
    ∀ later, later = (shell.run start).2 ∨ shell.Passes (fun _ => True) start later →
      let reached := later.machine.process
      ((∀ order, order.Perm reached.environment.texts →
          ∀ key, Environment.lookUp key order = reached.valueOf? key) ↔
        ∀ name ∈ settings.environment.keys, '=' ∉ name.toList) := by
  intro shell start later hlater reached
  have hpasses : shell.Passes (fun _ => True) start later := by
    rcases hlater with rfl | hpasses
    · exact shell.passes_run fun _ _ => trivial
    · exact hpasses
  have hsound := (Shell.sound_of_passes rfl hpasses (sound_of_process hprocess).1).1
  exact Environment.lookUp_eq_find?_iff.trans (forall_equals_not_mem_iff hprocess hsound)

/-- A session that sets variables to values with equals signs, and tries to make such names. -/
def exporting : Wiring where
  input := (Text.encode "export A=B=1 '=' =C\ncd /\nexport HOME=~=\n").map .byte

theorem lookUps_agree_after_exports :
    ∃ process, Console.process .default (.ofStore .empty) .insertion = .ok process ∧
      let last := ((shell .default (registry .default) Wiring.streams none process).run
        ⟨⟨process, exporting, []⟩, 0⟩).2.machine.process
      last.valueOf? "A" = some "B=1" ∧ last.valueOf? "HOME" = some "~=" ∧
      last.valueOf? "OLDPWD" = some "/root" ∧
      ∀ key, Environment.lookUp key last.environment.texts.reverse = last.valueOf? key := by
  have hprocess : Console.process .default (.ofStore .empty) .insertion = .ok _ := rfl
  refine ⟨_, hprocess, ?_⟩
  intro last
  -- The kernel runs the session once.
  have hrun : last.valueOf? "A" = some "B=1" ∧ last.valueOf? "HOME" = some "~=" ∧
      last.valueOf? "OLDPWD" = some "/root" := by decide +kernel
  refine ⟨hrun.1, hrun.2.1, hrun.2.2, ?_⟩
  refine (lookUps_agree_iff hprocess Wiring.streams none exporting _ (.inl rfl)).2 ?_ _
    (List.reverse_perm _)
  decide +kernel

/-- Settings with a variable whose name begins as that of the user does. -/
def nearlyUser : Settings :=
  { Settings.default with environment := .ofList [("USER=guest", "1")] }

/-- A session may start with a variable whose text also reads as another value of its user. The
shell and a command that comes across that text first take the user for different ones, and no
command finds that variable at all. -/
theorem lookUps_disagree :
    nearlyUser.check = .ok nearlyUser ∧ (RootTree.populate nearlyUser .empty).1 = .ok () ∧
    ∃ process, Console.process nearlyUser (.ofStore (RootTree.populate nearlyUser .empty).2)
        .insertion = .ok process ∧
      process.valueOf? "USER" = some "root" ∧
      Environment.lookUp "USER" process.environment.texts = some "guest=1" ∧
      process.valueOf? "USER=guest" = some "1" ∧
      ∀ order, Environment.lookUp "USER=guest" order = none := by
  refine ⟨rfl, by decide +kernel, _, rfl, by decide +kernel, by decide +kernel,
    by decide +kernel, ?_⟩
  intro order
  rw [Option.eq_none_iff_forall_ne_some]
  exact fun value h => absurd (Environment.not_mem_of_lookUp h) (by decide)

end Console

end Honeypot
