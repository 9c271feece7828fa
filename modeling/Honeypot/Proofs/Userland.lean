import Honeypot.Proofs.Process.Orderly
import Honeypot.Proofs.Userland.Names
import Honeypot.Userland

/-!
# The commands of a session are orderly

None of the commands that a pretend machine offers crashes, none of them looks at how its buffers
and inputs are cut into calls, and each of them is done when it cannot print. `env` and `export`
sort the environment before they print it, and `cd` and `whoami` look up one value in it.

* `Userland.isOrderly_commands`: all commands are orderly, with any arguments.

## References

- [SPEC] `SPEC_FULL.md`: §10, Supplementary Features
-/

namespace Honeypot.Userland

open Program

/-- A command that only prints is orderly. -/
theorem orderly_status {program : Program (Except Fault Unit)} (h : program.Orderly Failed) :
    (do return status (← program) : Program Status).Orderly fun _ => True :=
  h.bind (fun answer _ => ⟨status answer, rfl, trivial⟩) fun _ => .done _

/-! ## Commands on the environment -/

theorem orderly_declareAll (texts : List String) :
    (declareAll texts).Orderly fun _ => True := by
  induction texts with
  | nil => exact .done _
  | cons text texts ih =>
    exact (orderly_printParts _).bind_of_failed (fun _ => ⟨1, rfl, trivial⟩) ih

theorem orderly_exportAll (arguments : List String) (code : Status) :
    (exportAll arguments code).Orderly fun _ => True := by
  induction arguments generalizing code with
  | nil => exact .done _
  | cons argument arguments ih =>
    unfold exportAll
    dsimp only
    split
    · next hname => exact .assign (isIdentifier_iff.1 hname).equals_not_mem (ih code)
    · exact .printErrorTexts_bind _ fun _ => ih 1

theorem orderly_env (args : List String) : (env.program args).Orderly fun _ => True :=
  .environ_bind Environment.isStable_mergeSort fun texts =>
    orderly_status (orderly_print (Text.encode (joinLines texts)))

theorem orderly_exportVariables (args : List String) :
    (exportVariables.program args).Orderly fun _ => True := by
  show Orderly _ (if args.isEmpty then _ else _)
  split
  · exact .environ_bind Environment.isStable_mergeSort orderly_declareAll
  · exact orderly_exportAll args 0

theorem orderly_whoami (args : List String) : (whoami.program args).Orderly fun _ => True := by
  have huser : "USER" ∈ Environment.soughtNames := by decide
  exact .environ_bind (Environment.isStable_lookUp huser) fun user =>
    orderly_status (orderly_printParts ([user.getD "root", "\n"].map Text.encode))

/-! ## Commands on files and directories -/

theorem orderly_pwd (args : List String) : (pwd.program args).Orderly fun _ => True :=
  .quiet trivial fun _ => orderly_status (orderly_printParts _)

theorem orderly_cdTarget (args : List String) : (cdTarget args).Orderly fun _ => False := by
  cases args with
  | nil =>
    have hhome : "HOME" ∈ Environment.soughtNames := by decide
    exact .environ_bind (Environment.isStable_lookUp hhome) fun home => .done (home.getD "/")
  | cons target _ => exact .done _

theorem orderly_cd (args : List String) : (cd.program args).Orderly fun _ => True := by
  refine (orderly_cdTarget args).bind (fun _ hfalse => hfalse.elim) fun target => ?_
  -- The old directory is asked for, and then the new one is tried.
  refine .quiet trivial fun old => .quiet trivial fun answer => ?_
  cases answer with
  | ok _ => exact .assign (by decide) (.assign (by decide) (.done _))
  | error _ => exact .printErrorTexts_bind _ fun _ => .done _

/-- A listing is made without printing, complaints apart. -/
theorem orderly_listAll (announce : Bool) (targets lines : List String) (code : Status) :
    (listAll announce targets lines code).Orderly fun _ => False := by
  induction targets generalizing lines code with
  | nil => exact .done _
  | cons target targets ih =>
    refine .quiet trivial fun directory => .quiet trivial fun answer => ?_
    rcases answer with _ | ⟨kind, _⟩
    · exact .printErrorTexts_bind _ fun _ => ih lines 2
    · cases kind with
      | file => exact ih _ code
      | directory =>
        refine .quiet trivial fun answer => ?_
        cases answer with
        | error _ => exact ih lines 2
        | ok entries => exact ih _ code

theorem orderly_ls (args : List String) : (ls.program args).Orderly fun _ => True := by
  refine (orderly_listAll _ _ _ _).bind (fun _ hfalse => hfalse.elim) fun listing => ?_
  exact (orderly_print _).bind_of_failed (fun _ => ⟨1, rfl, trivial⟩) (.done _)

theorem orderly_concatenate (names : List String) (code : Status) :
    (concatenate names code).Orderly fun _ => True := by
  induction names generalizing code with
  | nil => exact .done _
  | cons name names ih =>
    refine .quiet trivial fun directory => .quiet trivial fun answer => ?_
    cases answer with
    | ok content =>
      exact (orderly_print content).bind_of_failed (fun _ => ⟨1, rfl, trivial⟩) (ih code)
    | error failure => exact .printErrorTexts_bind _ fun _ => ih 1

theorem orderly_cat (args : List String) : (cat.program args).Orderly fun _ => True := by
  show Orderly _ (if args.isEmpty then _ else _)
  split
  · refine .quiet trivial fun answer => ?_
    cases answer with
    | ok content => exact orderly_status (orderly_print content)
    | error _ => exact .done _
  · exact orderly_concatenate args 0

/-! ## All commands -/

theorem orderly_echo (args : List String) : (echo.program args).Orderly fun _ => True := by
  unfold echo
  dsimp only
  split
  · exact orderly_status (orderly_printParts _)
  · exact orderly_status (orderly_printParts _)

theorem orderly_uname (hostname : String) (args : List String) :
    ((uname hostname).program args).Orderly fun _ => True :=
  orderly_status (orderly_printParts _)

/-- All commands are orderly. -/
theorem isOrderly_commands (hostname : String) :
    (Registry.ofList (commands hostname)).IsOrderly := by
  intro name command hcommand args
  have hmem : (name, command) ∈ commands hostname :=
    (Dictionary.mem_of_find?_insertAll hcommand).resolve_right (by simp)
  simp only [commands, List.mem_cons, Prod.mk.injEq, List.not_mem_nil, or_false] at hmem
  -- One case for each of the commands, in the order of their registration.
  rcases hmem with ⟨-, rfl⟩ | ⟨-, rfl⟩ | ⟨-, rfl⟩ | ⟨-, rfl⟩ | ⟨-, rfl⟩ | ⟨-, rfl⟩ | ⟨-, rfl⟩ |
    ⟨-, rfl⟩ | ⟨-, rfl⟩
  · exact orderly_echo args
  · exact orderly_pwd args
  · exact orderly_cd args
  · exact orderly_env args
  · exact orderly_exportVariables args
  · exact orderly_ls args
  · exact orderly_cat args
  · exact orderly_whoami args
  · exact orderly_uname hostname args

end Honeypot.Userland
