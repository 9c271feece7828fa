import Honeypot.Proofs.Path.Normal
import Honeypot.Proofs.Process.Containment
import Honeypot.Proofs.Process.Footing
import Honeypot.Proofs.Userland

/-!
# What the commands of a session do to its process

Of the commands that a pretend machine offers, only `cd` and `export` change the process that they
run in. `cd` moves it and keeps two variables in step, if the directory exists. `export` goes
through its arguments and sets a variable for each that names one. None of them touches the
filesystem, and none of them crashes.

* `Program.Makes`: programs that make calls of one kind only.
* `Process.moved`, `Process.exported`: what `cd` and one argument of `export` do to a process.
* `Userland.run_cd_of_shows`, `Userland.run_cd_of_not_shows`, `Userland.run_exportAll`: all that
  these two commands do.
* `Userland.effect`: what a command does to a process, by its name.
* `Userland.process_execute`: that is all that running a command does to a process, on any streams
  and whatever becomes of its output.

## References

- [SPEC] `SPEC_FULL.md`: §10, Supplementary Features
-/

namespace Honeypot

variable {σ α β : Type} [Supply σ]

/-! ## Programs that leave the process alone -/

namespace Program

/-- Whether a program makes calls of one kind only, whatever they are answered. -/
def Makes (allowed : Call → Prop) : Program α → Prop
  | .done _ => True
  | .crashed _ => True
  | .call request next => allowed request ∧ ∀ answer, (next answer).Makes allowed

variable {allowed : Call → Prop}

/-- Programs one after the other make the calls that each of them makes. -/
theorem Makes.bind {program : Program α} {next : α → Program β} (h : program.Makes allowed)
    (hnext : ∀ result, (next result).Makes allowed) : (program >>= next).Makes allowed := by
  induction program with
  | done result => exact hnext result
  | crashed crash => trivial
  | call request rest ih => exact ⟨h.1, fun answer => ih answer (h.2 answer)⟩

/-- The calls that such a program comes to make are of that kind. -/
theorem Makes.forall_mem_calls {program : Program α} (h : program.Makes allowed)
    (streams : Streams σ) (machine : Machine σ) :
    ∀ request ∈ program.calls streams machine, allowed request := by
  induction program generalizing machine with
  | done result => exact fun _ hmem => absurd hmem List.not_mem_nil
  | crashed crash => exact fun _ hmem => absurd hmem List.not_mem_nil
  | call request next ih => exact List.forall_mem_cons.2 ⟨h.1, ih _ (h.2 _) _⟩

theorem makes_printParts (h : ∀ bytes, allowed (.print bytes)) (parts : List Bytes) :
    (printParts parts).Makes allowed := by
  induction parts with
  | nil => trivial
  | cons part parts ih =>
    refine ⟨h part, fun answer => ?_⟩
    cases answer with
    | ok _ => exact ih
    | error _ => trivial

theorem makes_printErrorParts (h : ∀ bytes, allowed (.printError bytes)) (parts : List Bytes) :
    (printErrorParts parts).Makes allowed := by
  induction parts with
  | nil => trivial
  | cons part parts ih =>
    refine ⟨h part, fun answer => ?_⟩
    cases answer with
    | ok _ => exact ih
    | error _ => trivial

end Program

/-- Whether a call leaves the process as it is. -/
def Call.IsStill : Call → Prop
  | .changeDirectory _ | .assign _ _ => False
  | .files (.write _ _) | .files (.mkdir _) | .files (.remove _) => False
  | _ => True

theorem Machine.process_answer (streams : Streams σ) (machine : Machine σ) {request : Call}
    (h : request.IsStill) : (machine.answer streams request).2.process = machine.process := by
  cases request with
  | changeDirectory | assign => exact h.elim
  | files request =>
    cases request with
    | write | mkdir | remove => exact h.elim
    | _ => rfl
  | _ => rfl

/-- A program that only makes calls which leave the process alone does so itself, whether it comes
to a result or crashes. -/
theorem Program.process_run (streams : Streams σ) {program : Program α}
    (h : program.Makes Call.IsStill) (machine : Machine σ) :
    (program.run streams machine).2.process = machine.process := by
  induction program generalizing machine with
  | done result => rfl
  | crashed crash => rfl
  | call request next ih =>
    rw [run, ih _ (h.2 _), Machine.process_answer streams machine h.1]

theorem Program.run_directory (streams : Streams σ) (machine : Machine σ) :
    directory.run streams machine = (.ok machine.process.directory, machine) := rfl

theorem Program.run_changeDirectory (streams : Streams σ) (path : String) (machine : Machine σ) :
    (changeDirectory path).run streams machine =
      (.ok (machine.process.changeDirectory path).1,
        { machine with process := (machine.process.changeDirectory path).2 }) := rfl

theorem Program.run_assign (streams : Streams σ) (key value : String) (machine : Machine σ) :
    (assign key value).run streams machine =
      (.ok (), { machine with process := machine.process.assign key value }) := rfl

/-- Of programs one after the other, the second runs where the first comes to a result. -/
theorem Program.run_bind (streams : Streams σ) (program : Program α) (next : α → Program β)
    (machine : Machine σ) :
    (program >>= next).run streams machine =
      match program.run streams machine with
      | (.ok result, later) => (next result).run streams later
      | (.error crash, later) => (.error crash, later) := by
  induction program generalizing machine with
  | done result => rfl
  | crashed crash => rfl
  | call request rest ih => exact ih _ _

/-- A complaint is one attempt to write its parts to the error channel, and goes on whatever becomes
of it. -/
theorem Program.run_printErrorParts (streams : Streams σ) (parts : List Bytes)
    (machine : Machine σ) :
    (printErrorParts parts).run streams machine =
      (.ok (machine.stream (streams.error.sink.writeParts parts)).1,
        (machine.stream (streams.error.sink.writeParts parts)).2) := by
  induction parts generalizing machine with
  | nil => rfl
  | cons part parts ih =>
    have hpart : (printError part).run streams machine =
        (.ok (machine.stream (streams.error.sink.writeAll part)).1,
          (machine.stream (streams.error.sink.writeAll part)).2) := rfl
    rw [printErrorParts, run_bind, hpart]
    simp only [Machine.stream, Sink.writeParts]
    -- The next part is written only where this one was.
    rcases streams.error.sink.writeAll part machine.plumbing with ⟨fault | _, later⟩
    · rfl
    · exact ih _

/-! ## Moving, and setting variables -/

namespace Process

/-- Where `cd` goes with its arguments. -/
def cdTarget (process : Process) : List String → String
  | target :: _ => target
  | [] => (Environment.lookUp "HOME" process.environ).getD "/"

/-- A process that was told to go to a directory: it is there if the directory exists, and its
variables say where it is and where it was. -/
def moved (process : Process) (path : String) : Process :=
  match process.volume.isDirectory path with
  | .ok true =>
    ({ process with directory := path }.assign "OLDPWD" process.directory).assign "PWD" path
  | _ => process

/-- The name and the value that an argument of `export` gives. -/
def binding (argument : String) : String × String :=
  (Text.nameAndValue argument).getD (argument, "")

/-- A process in which an argument of `export` was exported, if it names a variable. -/
def exported (process : Process) (argument : String) : Process :=
  if Userland.isIdentifier (binding argument).1 then
    process.assign (binding argument).1 (binding argument).2
  else process

variable {process : Process} {path : String}

theorem changeDirectory_of_shows
    (h : process.volume.Shows (Location.join process.directory path)) :
    process.changeDirectory path =
      (.ok (), { process with directory := Location.join process.directory path }) := by
  simp only [changeDirectory, Volume.isDirectory_eq_ok_true_iff.2 h]

theorem changeDirectory_of_not_shows
    (h : ¬ process.volume.Shows (Location.join process.directory path)) :
    ∃ failure, process.changeDirectory path = (.error failure, process) := by
  unfold changeDirectory
  dsimp only
  split
  · next hdirectory => exact absurd (Volume.isDirectory_eq_ok_true_iff.1 hdirectory) h
  · exact ⟨_, rfl⟩
  · exact ⟨_, rfl⟩

theorem moved_of_shows (h : process.volume.Shows path) :
    process.moved path =
      ({ process with directory := path }.assign "OLDPWD" process.directory).assign "PWD" path := by
  simp only [moved, Volume.isDirectory_eq_ok_true_iff.2 h]

theorem moved_of_not_shows (h : ¬ process.volume.Shows path) : process.moved path = process := by
  unfold moved
  split
  · next hdirectory => exact absurd (Volume.isDirectory_eq_ok_true_iff.1 hdirectory) h
  · rfl

end Process

namespace Userland

open Program

theorem still_printTexts (texts : List String) : (printTexts texts).Makes Call.IsStill :=
  makes_printParts (fun _ => trivial) _

theorem still_printErrorTexts (texts : List String) : (printErrorTexts texts).Makes Call.IsStill :=
  makes_printErrorParts (fun _ => trivial) _

theorem makes_status {allowed : Call → Prop} {program : Program (Except Fault Unit)}
    (h : program.Makes allowed) :
    (do return status (← program) : Program Status).Makes allowed :=
  h.bind fun _ => trivial

/-- All that `echo` does is print. -/
theorem makes_echo {allowed : Call → Prop} (h : ∀ bytes, allowed (.print bytes))
    (args : List String) : (echo.program args).Makes allowed := by
  unfold echo
  dsimp only
  split
  · exact makes_status (makes_printParts h _)
  · exact makes_status (makes_printParts h _)

/-! ## Commands that leave the process alone -/

theorem still_declareAll (texts : List String) : (declareAll texts).Makes Call.IsStill := by
  induction texts with
  | nil => trivial
  | cons text texts ih =>
    refine (still_printTexts _).bind fun answer => ?_
    cases answer with
    | ok _ => exact ih
    | error _ => trivial

theorem still_listAll (announce : Bool) (targets lines : List String) (code : Status) :
    (listAll announce targets lines code).Makes Call.IsStill := by
  induction targets generalizing lines code with
  | nil => trivial
  | cons target targets ih =>
    refine ⟨trivial, fun directory => ⟨trivial, fun answer => ?_⟩⟩
    rcases answer with _ | ⟨kind, _⟩
    · exact (still_printErrorTexts _).bind fun _ => ih lines 2
    · cases kind with
      | file => exact ih _ code
      | directory =>
        refine ⟨trivial, fun answer => ?_⟩
        cases answer with
        | error _ => exact ih lines 2
        | ok entries => exact ih _ code

theorem still_concatenate (names : List String) (code : Status) :
    (concatenate names code).Makes Call.IsStill := by
  induction names generalizing code with
  | nil => trivial
  | cons name names ih =>
    refine ⟨trivial, fun directory => ⟨trivial, fun answer => ?_⟩⟩
    cases answer with
    | ok content =>
      refine ⟨trivial, fun printed => ?_⟩
      cases printed with
      | ok _ => exact ih code
      | error _ => trivial
    | error failure => exact (still_printErrorTexts _).bind fun _ => ih 1

theorem still_echo (args : List String) : (echo.program args).Makes Call.IsStill :=
  makes_echo (fun _ => trivial) args

theorem still_pwd (args : List String) : (pwd.program args).Makes Call.IsStill :=
  ⟨trivial, fun _ => makes_status (still_printTexts _)⟩

theorem still_env (args : List String) : (env.program args).Makes Call.IsStill :=
  ⟨trivial, fun _ => makes_status ⟨trivial, fun _ => trivial⟩⟩

theorem still_whoami (args : List String) : (whoami.program args).Makes Call.IsStill :=
  ⟨trivial, fun _ => makes_status (still_printTexts _)⟩

/-- Without arguments `export` only lists the variables. -/
theorem still_exportVariables_nil : (exportVariables.program []).Makes Call.IsStill :=
  ⟨trivial, fun _ => still_declareAll _⟩

theorem still_ls (args : List String) : (ls.program args).Makes Call.IsStill := by
  refine (still_listAll _ _ _ _).bind fun listing => ⟨trivial, fun answer => ?_⟩
  cases answer with
  | ok _ => trivial
  | error _ => trivial

theorem still_cat (args : List String) : (cat.program args).Makes Call.IsStill := by
  show Makes _ (if args.isEmpty then _ else _)
  split
  · refine ⟨trivial, fun answer => ?_⟩
    cases answer with
    | ok content => exact ⟨trivial, fun _ => trivial⟩
    | error _ => trivial
  · exact still_concatenate args 0

/-! ## Commands that change the process -/

variable (streams : Streams σ)

theorem run_cdTarget (args : List String) (machine : Machine σ) :
    (cdTarget args).run streams machine = (.ok (machine.process.cdTarget args), machine) := by
  cases args with
  | nil => rfl
  | cons target rest => rfl

/-- The path that `cd` tries. -/
def cdPath (process : Process) (args : List String) : String :=
  Location.resolve process.directory (process.cdTarget args)

/-- What `cd` says when it cannot go somewhere. -/
def cdComplaint (target : String) : List Bytes :=
  ["-bash: cd: ", target, ": No such file or directory\n"].map Text.encode

theorem join_cdPath (process : Process) (args : List String) :
    Location.join process.directory (cdPath process args) = cdPath process args :=
  Location.join_of_isAbsolute (Location.isAbsolute_resolve _ _) _

/-- `cd` moves a process to a directory that it can see, without a word. -/
theorem run_cd_of_shows (args : List String) (machine : Machine σ)
    (h : machine.process.volume.Shows (cdPath machine.process args)) :
    (cd.program args).run streams machine =
      (.ok 0, { machine with process := machine.process.moved (cdPath machine.process args) }) := by
  -- The path is absolute, and is not put after the working directory again.
  have hmove := Process.changeDirectory_of_shows ((join_cdPath machine.process args).symm ▸ h)
  rw [join_cdPath] at hmove
  simp only [cd, run_bind, run_cdTarget, run_directory, run_changeDirectory]
  rw [← cdPath, hmove, Process.moved_of_shows h]
  rfl

/-- Where `cd` can see no directory, it complains once, and that is all that it does. -/
theorem run_cd_of_not_shows (args : List String) (machine : Machine σ)
    (h : ¬ machine.process.volume.Shows (cdPath machine.process args)) :
    (cd.program args).run streams machine =
      (.ok 1, (machine.stream
        (streams.error.sink.writeParts (cdComplaint (machine.process.cdTarget args)))).2) := by
  obtain ⟨failure, hmove⟩ :=
    Process.changeDirectory_of_not_shows ((join_cdPath machine.process args).symm ▸ h)
  simp only [cd, run_bind, run_cdTarget, run_directory, run_changeDirectory]
  rw [← cdPath, hmove]
  dsimp only
  rw [run_bind, printErrorTexts, run_printErrorParts]
  rfl

/-- `cd` moves the process to the normal form of where it is told to go. -/
theorem process_run_cd (args : List String) (machine : Machine σ) :
    ((cd.program args).run streams machine).2.process =
      machine.process.moved
        (Location.resolve machine.process.directory (machine.process.cdTarget args)) := by
  by_cases h : machine.process.volume.Shows (cdPath machine.process args)
  · rw [run_cd_of_shows streams args machine h]
    rfl
  · rw [run_cd_of_not_shows streams args machine h]
    exact (Process.moved_of_not_shows h).symm

/-- What `export` says of an argument that names no variable. -/
def exportComplaint (argument : String) : List Bytes :=
  ["-bash: export: \x60", argument, "\x27: not a valid identifier\n"].map Text.encode

/-- The arguments of `export` that name no variable. -/
def nameless (args : List String) : List String :=
  args.filter fun argument => !isIdentifier (Process.binding argument).1

/-- The plumbing after one complaint about each of some arguments. -/
def complain (args : List String) (plumbing : σ) : σ :=
  args.foldl
    (fun plumbing argument =>
      (streams.error.sink.writeParts (exportComplaint argument) plumbing).2)
    plumbing

/-- `export` goes through all of its arguments. It complains once about each that names no variable,
whatever becomes of the complaint, and then its status is 1. -/
theorem run_exportAll (args : List String) (code : Status) (machine : Machine σ) :
    (exportAll args code).run streams machine =
      (.ok (if nameless args = [] then code else 1),
        { machine with
          process := args.foldl Process.exported machine.process
          plumbing := complain streams (nameless args) machine.plumbing }) := by
  induction args generalizing code machine with
  | nil => rfl
  | cons argument args ih =>
    rw [exportAll, ← Process.binding, List.foldl_cons, Process.exported]
    split
    · next hname =>
      have hnameless : nameless (argument :: args) = nameless args :=
        List.filter_cons_of_neg (by simp [hname])
      rw [run_bind, run_assign, hnameless]
      exact ih _ _
    · next hname =>
      have hnameless : nameless (argument :: args) = argument :: nameless args :=
        List.filter_cons_of_pos (by simp [hname])
      rw [run_bind, printErrorTexts, run_printErrorParts, hnameless, if_neg (List.cons_ne_nil _ _)]
      -- Once there was a complaint, the status is 1 whatever comes later.
      exact (ih _ _).trans (by rw [ite_self]; rfl)

theorem process_run_exportVariables (args : List String) (machine : Machine σ) :
    ((exportVariables.program args).run streams machine).2.process =
      args.foldl Process.exported machine.process := by
  cases args with
  | nil => exact process_run streams still_exportVariables_nil machine
  | cons argument args =>
    show ((exportAll (argument :: args) 0).run streams machine).2.process = _
    rw [run_exportAll]

/-! ## All commands -/

/-- What a command does to the process that it runs in, by the name that it is registered under. -/
def effect (name : String) (args : List String) (process : Process) : Process :=
  if name = "cd" then
    process.moved (Location.resolve process.directory (process.cdTarget args))
  else if name = "export" then args.foldl Process.exported process
  else process

theorem find?_cd (hostname : String) :
    (Registry.ofList (commands hostname)).find? "cd" = some cd := rfl

theorem find?_export (hostname : String) :
    (Registry.ofList (commands hostname)).find? "export" = some exportVariables := rfl

/-- Running a command does to the process what its name says, and nothing else. -/
theorem process_run_command {hostname name : String} {command : Command}
    (hcommand : (Registry.ofList (commands hostname)).find? name = some command)
    (args : List String) (machine : Machine σ) :
    ((command.program args).run streams machine).2.process = effect name args machine.process := by
  have hmem : (name, command) ∈ commands hostname :=
    (Dictionary.mem_of_find?_insertAll hcommand).resolve_right (by simp)
  simp only [commands, List.mem_cons, Prod.mk.injEq, List.not_mem_nil, or_false] at hmem
  -- One case for each of the commands, in the order of their registration.
  rcases hmem with ⟨rfl, rfl⟩ | ⟨rfl, rfl⟩ | ⟨rfl, rfl⟩ | ⟨rfl, rfl⟩ | ⟨rfl, rfl⟩ | ⟨rfl, rfl⟩ |
    ⟨rfl, rfl⟩ | ⟨rfl, rfl⟩ | ⟨rfl, rfl⟩
  · exact process_run streams (still_echo args) machine
  · exact process_run streams (still_pwd args) machine
  · exact process_run_cd streams args machine
  · exact process_run streams (still_env args) machine
  · exact process_run_exportVariables streams args machine
  · exact process_run streams (still_ls args) machine
  · exact process_run streams (still_cat args) machine
  · exact process_run streams (still_whoami args) machine
  · exact process_run streams (makes_status (still_printTexts _)) machine

/-- Running a line's command does to the process what the base name of the path says, and no command
crashes. -/
theorem process_execute (hostname : String) (observer : Option (Duplex σ)) (path : String)
    (args : List String) (machine : Machine σ) :
    let later := ((Registry.ofList (commands hostname)).execute streams observer path args
      machine).2
    later.process = effect (Path.baseName path) args machine.process ∧
      later.crashReports = machine.crashReports := by
  cases hcommand : (Registry.ofList (commands hostname)).find? (Path.baseName path) with
  | none =>
    rw [Registry.execute_of_find?_eq_none hcommand]
    -- The two commands that change the process are there.
    have hcd : Path.baseName path ≠ "cd" := by
      intro hname
      rw [hname, find?_cd] at hcommand
      cases hcommand
    have hexport : Path.baseName path ≠ "export" := by
      intro hname
      rw [hname, find?_export] at hcommand
      cases hcommand
    refine ⟨?_, rfl⟩
    rw [effect, if_neg hcd, if_neg hexport]
  | some command =>
    obtain ⟨status, later, hrun⟩ := (isOrderly_commands hostname _ _ hcommand args).exists_run_eq
      (streams.boundTo observer) machine
    have hprocess := process_run_command (streams.boundTo observer) hcommand args machine
    have hcrash := Machine.crashReports_after (streams.boundTo observer) machine
      ((command.program args).calls (streams.boundTo observer) machine)
    rw [← Program.run_snd, hrun] at hcrash
    rw [hrun] at hprocess
    rw [Registry.execute_of_find? hcommand, hrun]
    exact ⟨hprocess, hcrash⟩

end Userland

end Honeypot
