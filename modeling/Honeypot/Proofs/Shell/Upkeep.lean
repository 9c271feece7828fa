import Honeypot.Proofs.Process.Footing
import Honeypot.Proofs.Shell.Accord
import Honeypot.Proofs.Userland.Effects
import Honeypot.Proofs.Userland.Names

/-!
# What a session never loses

Whatever is typed and whatever becomes of its streams, a session with the commands of a pretend
machine keeps its filesystem and stands in a directory of it. Its variables are those that it
started with, the one for the old directory, and those with valid names. No command crashes, and
`PWD` says where the session is until it is exported itself.

* `Process.Sound`: what a process keeps, and `Process.Sound.effect`, that every command keeps it.
* `Shell.command?`, `Shell.process_turn`: the command that a turn of the shell runs, and that a turn
  does nothing else to the process.
* `Shell.Passes`: sessions that come one after the other, turn by turn.
* `Console.sound_all_along`: what holds throughout every session.

## References

- [SPEC] `SPEC_FULL.md`: §3, Data Model; §10, Supplementary Features
-/

namespace Honeypot

/-! ## What commands keep -/

namespace Process

/-- What a process has kept since it was first seen: the filesystem, a directory of it to stand in,
under the name of the home directory or a name in normal form, and variables to which only those
with valid names and the one for the old directory were added. -/
structure Sound (home : String) (first process : Process) : Prop where
  volume : process.volume = first.volume
  stands : process.Stands
  directory : process.directory = home ∨ (Location.isAbsolute process.directory = true ∧
    Location.normalize process.directory = process.directory)
  initial : ∀ key ∈ first.environment.keys, key ∈ process.environment.keys
  keys : ∀ key ∈ process.environment.keys,
    key ∈ first.environment.keys ∨ key = "OLDPWD" ∨ Userland.IsIdentifier key

namespace Sound

variable {home : String} {first process : Process} (h : Sound home first process)

include h

/-- A variable may be set under every valid name. -/
theorem assign {key : String} (hkey : key = "OLDPWD" ∨ Userland.IsIdentifier key)
    (value : String) : Sound home first (process.assign key value) where
  volume := h.volume
  stands := h.stands
  directory := h.directory
  initial name hname := by
    have hmem := h.initial name hname
    rw [Process.assign, Dictionary.keys_insert]
    split_ifs
    · exact hmem
    · exact List.mem_append_left _ hmem
  keys name hname := by
    rw [Process.assign, Dictionary.keys_insert] at hname
    split_ifs at hname
    · exact h.keys name hname
    · rcases List.mem_append.1 hname with hname | hname
      · exact h.keys name hname
      · obtain rfl := List.mem_singleton.1 hname
        exact .inr hkey

theorem moved (path : String) :
    Sound home first (process.moved (Location.resolve process.directory path)) := by
  unfold Process.moved
  split
  · rename_i hdirectory
    -- The directory was seen to be there, and its name is a folded one.
    have hthere : Sound home first
        { process with directory := Location.resolve process.directory path } :=
      { volume := h.volume
        stands := Volume.find?_of_isDirectory hdirectory
        directory := .inr ⟨Location.isAbsolute_resolve _ _, Location.normalize_resolve _ _⟩
        initial := h.initial
        keys := h.keys }
    have hpwd : Userland.IsIdentifier "PWD" := Userland.isIdentifier_iff.1 (by decide)
    exact (hthere.assign (.inl rfl) _).assign (.inr hpwd) _
  · exact h

theorem exported (argument : String) : Sound home first (process.exported argument) := by
  unfold Process.exported
  split
  · rename_i hname
    exact h.assign (.inr (Userland.isIdentifier_iff.1 hname)) _
  · exact h

theorem foldl_exported (arguments : List String) :
    Sound home first (arguments.foldl Process.exported process) := by
  induction arguments generalizing process with
  | nil => exact h
  | cons argument arguments ih => exact ih (h.exported argument)

/-- Every command keeps a process sound. -/
theorem effect (name : String) (args : List String) :
    Sound home first (Userland.effect name args process) := by
  unfold Userland.effect
  split_ifs
  · exact h.moved _
  · exact h.foldl_exported args
  · exact h

end Sound

/-- The variable `PWD` says where the process is. -/
def IsSigned (process : Process) : Prop := process.valueOf? "PWD" = some process.directory

theorem valueOf?_assign (process : Process) (key name value : String) :
    (process.assign key value).valueOf? name =
      if key = name then some value else process.valueOf? name :=
  Dictionary.find?_insert _ _ _ _

namespace IsSigned

variable {process : Process} (h : process.IsSigned)

include h

theorem moved (path : String) : (process.moved path).IsSigned := by
  unfold Process.moved
  split
  · -- `PWD` is set last, to the directory that was moved to.
    rw [IsSigned, valueOf?_assign, if_pos rfl]
    rfl
  · exact h

theorem exported {argument : String} (hargument : (binding argument).1 ≠ "PWD") :
    (process.exported argument).IsSigned := by
  unfold Process.exported
  split
  · rw [IsSigned, valueOf?_assign, if_neg hargument]
    exact h
  · exact h

theorem foldl_exported {arguments : List String}
    (harguments : ∀ argument ∈ arguments, (binding argument).1 ≠ "PWD") :
    (arguments.foldl Process.exported process).IsSigned := by
  induction arguments generalizing process with
  | nil => exact h
  | cons argument arguments ih =>
    rw [List.forall_mem_cons] at harguments
    exact ih (h.exported harguments.1) harguments.2

/-- Every command keeps `PWD` in step, unless it exports it. -/
theorem effect {name : String} {args : List String}
    (hname : name = "export" → ∀ argument ∈ args, (binding argument).1 ≠ "PWD") :
    (Userland.effect name args process).IsSigned := by
  unfold Userland.effect
  split_ifs with hcd hexport
  · exact h.moved _
  · exact h.foldl_exported (hname hexport)
  · exact h

end IsSigned

end Process

/-! ## What a turn does to the process -/

/-- Whether two sessions have the same process and the same reports about it. -/
structure Session.Beside {σ : Type} (session later : Session σ) : Prop where
  process : later.machine.process = session.machine.process
  reports : later.machine.reports = session.machine.reports

theorem Session.Beside.refl {σ : Type} (session : Session σ) : session.Beside session := ⟨rfl, rfl⟩

theorem Session.Beside.trans {σ : Type} {one other third : Session σ} (h : one.Beside other)
    (h' : other.Beside third) : one.Beside third :=
  ⟨h'.process.trans h.process, h'.reports.trans h.reports⟩

theorem Session.Beside.crashReports {σ : Type} {session later : Session σ}
    (h : session.Beside later) : later.machine.crashReports = session.machine.crashReports := by
  rw [Machine.crashReports, h.reports, Machine.crashReports]

namespace Shell

variable {σ : Type}

/-- Streams do nothing to the process. -/
theorem beside_stream {α : Type} (action : σ → α × σ) (session : Session σ) :
    session.Beside (session.stream action).2 := ⟨rfl, rfl⟩

variable [Supply σ] (shell : Shell σ)

theorem beside_say (sink : Sink σ) (texts : List String) (session : Session σ) :
    session.Beside (say sink texts session).2 := ⟨rfl, rfl⟩

/-- What is said before something else keeps what saying keeps, if the rest does. -/
theorem snd_say_then {α : Type} {P : Session σ → Prop} (sink : Sink σ) (texts : List String)
    {session : Session σ} (hsay : P (say sink texts session).2)
    {next : Session σ → Except Fault α × Session σ} (hnext : ∀ later, P later → P (next later).2) :
    P (match say sink texts session with
      | (.ok (), session) => next session
      | (.error fault, session) => (.error fault, session)).2 := by
  split <;> rename_i hanswer <;> rw [hanswer] at hsay
  · exact hnext _ hsay
  · exact hsay

/-- What is said before something else is beside the process if the rest is. -/
theorem beside_say_then {α : Type} (sink : Sink σ) (texts : List String)
    {next : Session σ → Except Fault α × Session σ}
    (hnext : ∀ later : Session σ, later.Beside (next later).2) (session : Session σ) :
    session.Beside (match say sink texts session with
      | (.ok (), session) => next session
      | (.error fault, session) => (.error fault, session)).2 :=
  snd_say_then sink texts (beside_say sink texts session) fun later h => h.trans (hnext later)

theorem beside_nextLine (session : Session σ) : session.Beside (shell.nextLine session).2 := by
  have hprompt : session.Beside (shell.showPrompt session).2 :=
    beside_say_then _ _ (beside_stream _) session
  unfold nextLine
  split <;> rename_i hanswer <;> rw [hanswer] at hprompt
  · exact hprompt.trans (beside_stream _ _)
  · exact hprompt

/-- The command that a line makes the shell run, with its arguments. -/
def lineCommand? (line : String) (session : Session σ) : Option (String × List String) :=
  match words session line with
  | .error _ => none
  | .ok list =>
    match Line.ofWords list with
    | .command name args => some (name, args)
    | _ => none

/-- The command that a turn makes the shell run, with its arguments. -/
def command? (session : Session σ) : Option (String × List String) :=
  match shell.nextLine session with
  | (.ok (some line), later) => lineCommand? (typedText line) later
  | _ => none

/-- What a command does to a process, if there is one. -/
def effectOf (command : Option (String × List String)) (process : Process) : Process :=
  match command with
  | none => process
  | some (name, args) => Userland.effect (Path.baseName name) args process

variable {hostname : String} (hregistry : shell.registry = .ofList (Userland.commands hostname))

include hregistry

theorem process_runCommand (name : String) (args : List String) (session : Session σ) :
    let later := (shell.runCommand name args session).2
    later.machine.process = effectOf (some (name, args)) session.machine.process ∧
      later.machine.crashReports = session.machine.crashReports := by
  have hexecute := Userland.process_execute shell.streams hostname shell.recorder name args
    session.machine
  rw [← hregistry] at hexecute
  unfold runCommand
  split <;> rename_i hanswer <;> rw [hanswer] at hexecute
  · exact hexecute
  · rename_i failure machine
    dsimp only
    split
    · -- That there is no such command is said on the streams only.
      suffices hbeside : Session.Beside { session with machine } _ from
        ⟨hbeside.process.trans hexecute.1, hbeside.crashReports.trans hexecute.2⟩
      exact beside_say_then _ _ (fun later => ⟨rfl, rfl⟩) _
    · exact hexecute

theorem process_runLine (line : String) (session : Session σ) :
    let later := (shell.runLine line session).2
    later.machine.process = effectOf (lineCommand? line session) session.machine.process ∧
      later.machine.crashReports = session.machine.crashReports := by
  have hbeside {later : Session σ} (h : session.Beside later) :
      later.machine.process = effectOf none session.machine.process ∧
        later.machine.crashReports = session.machine.crashReports := ⟨h.process, h.crashReports⟩
  unfold runLine lineCommand?
  rcases words session line with quotation | list
  · exact hbeside (beside_say_then _ _ (fun later => ⟨rfl, rfl⟩) session)
  · dsimp only
    cases Line.ofWords list with
    | blank => exact hbeside (.refl session)
    | leave args => exact hbeside (beside_say_then _ _ (fun later => ⟨rfl, rfl⟩) session)
    | help topics => exact hbeside (beside_say_then _ _ (fun later => ⟨rfl, rfl⟩) session)
    | command name args => exact shell.process_runCommand hregistry name args session

/-- A turn does to the process what the command that it runs does, and nothing else. -/
theorem process_turn (session : Session σ) :
    let later := (shell.turn session).2
    later.machine.process = effectOf (shell.command? session) session.machine.process ∧
      later.machine.crashReports = session.machine.crashReports := by
  have hbeside := shell.beside_nextLine session
  unfold turn command?
  rcases hread : shell.nextLine session with ⟨_ | _ | line, read⟩ <;> rw [hread] at hbeside
  · -- Without a line nothing is run.
    exact ⟨hbeside.process, hbeside.crashReports⟩
  · exact ⟨hbeside.process, hbeside.crashReports⟩
  · obtain ⟨hprocess, hcrashes⟩ := shell.process_runLine hregistry (typedText line) read
    rw [hbeside.process] at hprocess
    exact ⟨hprocess, hcrashes.trans hbeside.crashReports⟩

/-! ## Turn after turn -/

omit hregistry

/-- Whether a session comes to another one by turns that satisfy a condition. Turns may also be
taken after the session has ended, as when it is run again. -/
def Passes (shell : Shell σ) (allowed : Session σ → Prop) : Session σ → Session σ → Prop :=
  Relation.ReflTransGen fun session later => allowed session ∧ (shell.turn session).2 = later

/-- A run passes from its beginning to its end. -/
theorem passes_run {allowed : Session σ → Prop} {session : Session σ}
    (h : ∀ later, shell.Reaches session later → allowed later) :
    shell.Passes allowed session (shell.run session).2 := by
  have hallowed : allowed session := h session .refl
  -- Turn by turn: a run is its last turn, or one turn and the run after it.
  induction session using Shell.run.induct shell with
  | case1 session fault later hturn =>
    rw [run_eq, hturn]
    exact .single ⟨hallowed, by rw [hturn]⟩
  | case2 session later status hturn =>
    rw [run_eq, hturn]
    exact .single ⟨hallowed, by rw [hturn]⟩
  | case3 session later hturn ih =>
    have hrest (other : Session σ) (hother : shell.Reaches later other) : allowed other :=
      h other (.head hturn hother)
    rw [run_eq, hturn]
    exact .head ⟨hallowed, by rw [hturn]⟩ (ih hrest (hrest later .refl))

/-- Whether a turn exports a variable. -/
def Exports (shell : Shell σ) (key : String) (session : Session σ) : Prop :=
  ∃ name args argument, shell.command? session = some (name, args) ∧
    Path.baseName name = "export" ∧ argument ∈ args ∧ (Process.binding argument).1 = key

variable {shell} {home : String} {first : Process} {session later : Session σ}

include hregistry

/-- Sessions keep their processes sound, and no command in them crashes. -/
theorem sound_of_passes {allowed : Session σ → Prop} (h : shell.Passes allowed session later)
    (hsound : Process.Sound home first session.machine.process) :
    Process.Sound home first later.machine.process ∧
      later.machine.crashReports = session.machine.crashReports := by
  induction h with
  | refl => exact ⟨hsound, rfl⟩
  | @tail middle later _ hturn ih =>
    obtain ⟨-, rfl⟩ := hturn
    obtain ⟨hprocess, hcrashes⟩ := shell.process_turn hregistry middle
    refine ⟨?_, hcrashes.trans ih.2⟩
    rw [hprocess]
    cases shell.command? middle with
    | none => exact ih.1
    | some command => exact ih.1.effect _ _

/-- In sessions that do not export it, `PWD` says where the process is. -/
theorem isSigned_of_passes
    (h : shell.Passes (fun session => ¬ shell.Exports "PWD" session) session later)
    (hsigned : session.machine.process.IsSigned) : later.machine.process.IsSigned := by
  induction h with
  | refl => exact hsigned
  | @tail middle later _ hturn ih =>
    obtain ⟨hexports, rfl⟩ := hturn
    rw [(shell.process_turn hregistry middle).1]
    cases hcommand : shell.command? middle with
    | none => exact ih
    | some command =>
      obtain ⟨name, args⟩ := command
      refine ih.effect fun hname argument hargument hkey => hexports ?_
      exact ⟨name, args, argument, hcommand, hname, hargument, hkey⟩

end Shell

/-! ## Whole sessions -/

namespace Console

/-- The process of a session starts in an existing home directory, and `PWD` says so. -/
theorem sound_of_process {settings : Settings} {volume : Volume} {order : Arrangement}
    {process : Process}
    (h : Console.process settings volume order = .ok process) :
    Process.Sound settings.home process process ∧ process.IsSigned := by
  unfold Console.process at h
  cases hstart : Process.start "console" settings.home volume settings.geometry order with
  | error failure =>
    rw [hstart] at h
    cases h
  | ok started =>
    rw [hstart] at h
    obtain rfl := Except.ok.inj h
    have hstands : started.Stands := Process.stands_of_start hstart
    have hhome : started.directory = settings.home := Process.directory_of_start hstart
    refine ⟨⟨rfl, hstands, .inl hhome, fun _ => id, fun _ => .inl⟩, ?_⟩
    -- `PWD` is the last variable that is set.
    show (started.environment.insertAll (bindings settings)).find? "PWD" = some started.directory
    rw [bindings, Dictionary.insertAll, List.foldl_append, hhome]
    exact (Dictionary.find?_insert _ _ _ _).trans (if_pos rfl)

variable {σ : Type} [Supply σ]

/-- Whatever is typed and whatever becomes of its streams, between all of its lines and at its end
a session has the filesystem that it started with and stands in a directory of it, under the name
of the home directory or a name in normal form. Its variables are the first ones, and others that
are `OLDPWD` or have valid names, and no command has crashed. Until `PWD` is exported it says where
the session is. -/
theorem sound_all_along {settings : Settings} {volume : Volume} {order : Arrangement}
    {process : Process}
    (hprocess : Console.process settings volume order = .ok process) (streams : Streams σ)
    (recorder : Option (Duplex σ)) (plumbing : σ) :
    let shell := Console.shell settings (registry settings) streams recorder process
    let start : Session σ := ⟨⟨process, plumbing, []⟩, 0⟩
    (∀ later, later = (shell.run start).2 ∨ shell.Passes (fun _ => True) start later →
      Process.Sound settings.home process later.machine.process ∧
        later.machine.crashReports = 0) ∧
    (∀ later, shell.Passes (fun session => ¬ shell.Exports "PWD" session) start later →
      later.machine.process.valueOf? "PWD" = some later.machine.process.directory) ∧
    ((∀ session, shell.Reaches start session → ¬ shell.Exports "PWD" session) →
      (shell.run start).2.machine.process.valueOf? "PWD" =
        some (shell.run start).2.machine.process.directory) := by
  intro shell start
  obtain ⟨hsound, hsigned⟩ := sound_of_process hprocess
  have hend : shell.Passes (fun _ => True) start (shell.run start).2 :=
    shell.passes_run fun _ _ => trivial
  refine ⟨?_, fun later hpasses => ?_, fun hexports => ?_⟩
  · rintro later (rfl | hpasses)
    · exact Shell.sound_of_passes rfl hend hsound
    · exact Shell.sound_of_passes rfl hpasses hsound
  · exact Shell.isSigned_of_passes rfl hpasses hsigned
  · exact Shell.isSigned_of_passes rfl (shell.passes_run hexports) hsigned

/-- A session that moves, exports and fails to move, on an output that breaks soon. -/
def wandering : Wiring where
  input := (Text.encode "cd ..//.\nexport A=1 9=2\ncd nowhere\n").map .byte
  output := { room := some 40 }

theorem sound_wandering :
    ∃ process, Console.process .default ⟨.empty, [(.write, "/")]⟩ .insertion = .ok process ∧
      let last := ((shell .default (registry .default) Wiring.streams none process).run
        ⟨⟨process, wandering, []⟩, 0⟩).2
      last.machine.process.directory = "/" ∧
      Process.Sound "/root" process last.machine.process ∧ last.machine.crashReports = 0 := by
  have hprocess : Console.process .default ⟨.empty, [(.write, "/")]⟩ .insertion = .ok _ := rfl
  refine ⟨_, hprocess, by decide +kernel, ?_⟩
  exact (sound_all_along hprocess Wiring.streams none wandering).1 _ (.inl rfl)

end Console

end Honeypot
