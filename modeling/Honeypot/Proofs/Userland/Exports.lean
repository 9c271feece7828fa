import Honeypot.Proofs.Text.Split
import Honeypot.Proofs.Userland.Effects
import Honeypot.Proofs.Userland.Names

/-!
# Exporting variables one after the other

`export` takes its arguments in order. One that gives a value to a name sets the variable, and one
that names no variable is complained about and changes nothing. A bare name should only mark its
variable, which is there with an empty value if there was none. But it empties the variable,
whatever it held, so that the two rules part where the name of a variable with a value stands alone.

* `Userland.Names`: which variable an argument is about.
* `Userland.Export`, `Userland.Exports`: what arguments do to the environment, one by one, under
  either rule for bare names.
* `Userland.Exports.kept_iff`: when the rules lead through the same environments.
* `Userland.exports_in_order`: what that means for a run of the command.

## References

- [SPEC] `SPEC_FULL.md`: §4.2, Virtual Process Context; §10, Supplementary Features
-/

namespace Honeypot

namespace Userland

/-! ## Arguments -/

/-- Whether an argument of `export` is about a variable: it is the bare name, or gives the name a
value. -/
def Names (argument name : String) : Prop :=
  IsIdentifier name ∧ (argument = name ∨ ∃ value, argument = name ++ "=" ++ value)

/-- Whether an argument of `export` is about no variable. -/
def Refused (argument : String) : Prop := ∀ name, ¬ Names argument name

variable {argument name value : String}

/-- A bare name is read as one with an empty value. -/
theorem binding_of_not_mem (h : '=' ∉ argument.toList) :
    Process.binding argument = (argument, "") := by
  have hnone : Text.nameAndValue argument = none := by
    rw [Option.eq_none_iff_forall_ne_some]
    rintro ⟨name, value⟩ hsome
    obtain ⟨-, rfl⟩ := Text.nameAndValue_eq_some_iff.1 hsome
    simp at h
  rw [Process.binding, hnone]
  rfl

theorem binding_of_value (h : '=' ∉ name.toList) (value : String) :
    Process.binding (name ++ "=" ++ value) = (name, value) := by
  rw [Process.binding, Text.nameAndValue_eq_some_iff.2 ⟨h, rfl⟩]
  rfl

/-- An argument is what it is read as: a name alone, or a name and a value. -/
theorem eq_of_binding (argument : String) :
    (argument = (Process.binding argument).1 ∧ (Process.binding argument).2 = "") ∨
      argument = (Process.binding argument).1 ++ "=" ++ (Process.binding argument).2 := by
  cases hbinding : Text.nameAndValue argument with
  | none =>
    left
    rw [Process.binding, hbinding]
    exact ⟨rfl, rfl⟩
  | some pair =>
    right
    rw [Process.binding, hbinding]
    exact (Text.nameAndValue_eq_some_iff.1 hbinding).2

/-- An argument is about the variable whose name is read in it. -/
theorem names_iff : Names argument name ↔
    IsIdentifier name ∧ (Process.binding argument).1 = name := by
  constructor
  · rintro ⟨h, rfl | ⟨value, rfl⟩⟩
    · exact ⟨h, by rw [binding_of_not_mem h.equals_not_mem]⟩
    · exact ⟨h, by rw [binding_of_value h.equals_not_mem]⟩
  · rintro ⟨h, rfl⟩
    exact ⟨h, (eq_of_binding argument).imp And.left fun hvalue => ⟨_, hvalue⟩⟩

instance (argument name : String) : Decidable (Names argument name) :=
  decidable_of_iff _ names_iff.symm

theorem refused_iff : Refused argument ↔ isIdentifier (Process.binding argument).1 = false := by
  rw [← Bool.not_eq_true, isIdentifier_iff]
  constructor
  · exact fun h hname => h _ (names_iff.2 ⟨hname, rfl⟩)
  · intro h name hnames
    obtain ⟨hname, rfl⟩ := names_iff.1 hnames
    exact h hname

instance : DecidablePred Refused := fun _ => decidable_of_iff _ refused_iff.symm

/-- The arguments without names are those that are about no variable. -/
theorem nameless_eq_filter (args : List String) : nameless args = args.filter Refused := by
  apply List.filter_congr
  intro argument _
  rw [Bool.eq_iff_iff, decide_eq_true_iff, refused_iff, Bool.not_eq_true']

/-! ## What arguments do to the environment -/

/-- What a bare name leaves in its variable by the rule that empties it. -/
def emptied (_ : Option String) : String := ""

/-- What a bare name leaves in its variable by the rule that only marks it. -/
def kept (value : Option String) : String := value.getD ""

/-- What one argument of `export` does to the environment, where `bare` says which value a bare name
leaves in its variable, by the value that it finds. -/
inductive Export (bare : Option String → String) (environment : Environment) :
    String → Environment → Prop
  | value {name : String} (value : String) : IsIdentifier name →
      Export bare environment (name ++ "=" ++ value) (environment.insert name value)
  | bare {name : String} : IsIdentifier name →
      Export bare environment name (environment.insert name (bare (environment.find? name)))
  | refused {argument : String} : Refused argument →
      Export bare environment argument environment

/-- What a list of arguments does to the environment: the environments after each of them. -/
inductive Exports (bare : Option String → String) :
    Environment → List String → List Environment → Prop
  | nil {environment : Environment} : Exports bare environment [] []
  | cons {environment later : Environment} {argument : String} {args : List String}
      {trail : List Environment} :
      Export bare environment argument later → Exports bare later args trail →
        Exports bare environment (argument :: args) (later :: trail)

variable {bare : Option String → String} {environment later : Environment} {args : List String}
  {trail : List Environment}

/-- To mark a variable that has a value changes nothing. -/
theorem insert_kept (h : environment.find? name = some value) :
    environment.insert name (kept (environment.find? name)) = environment := by
  rw [h]
  exact Dictionary.insert_of_find?_eq_some h

theorem exports_cons_iff :
    Exports bare environment (argument :: args) (later :: trail) ↔
      Export bare environment argument later ∧ Exports bare later args trail := by
  constructor
  · intro h
    cases h with
    | cons hstep hrest => exact ⟨hstep, hrest⟩
  · exact fun ⟨hstep, hrest⟩ => .cons hstep hrest

/-- An argument that is about another variable leaves a variable alone. -/
theorem Export.find?_of_not_names (h : Export bare environment argument later)
    (hname : ¬ Names argument name) : later.find? name = environment.find? name := by
  cases h with
  | value value hother =>
    rw [Dictionary.find?_insert, if_neg]
    rintro rfl
    exact hname ⟨hother, .inr ⟨value, rfl⟩⟩
  | bare hother =>
    rw [Dictionary.find?_insert, if_neg]
    rintro rfl
    exact hname ⟨hother, .inl rfl⟩
  | refused => rfl

/-- Arguments leave the variables alone that none of them is about. -/
theorem Exports.find?_of_not_names (h : Exports bare environment args trail)
    (hname : ∀ argument ∈ args, ¬ Names argument name) :
    (trail.getLastD environment).find? name = environment.find? name := by
  induction h with
  | nil => rfl
  | cons hstep _ ih =>
    rw [List.forall_mem_cons] at hname
    rw [List.getLastD_cons, ih hname.2, hstep.find?_of_not_names hname.1]

/-! ## Where the two rules part -/

theorem kept_eq_empty_iff {value : Option String} :
    kept value = "" ↔ value = none ∨ value = some "" := by
  cases value <;> simp [kept]

/-- A bare name is read in no other way. -/
theorem Export.eq_insert (h : Export bare environment argument later)
    (hargument : IsIdentifier argument) :
    later = environment.insert argument (bare (environment.find? argument)) := by
  cases h with
  | value value hname => exact absurd (by simp) hargument.equals_not_mem
  | bare => rfl
  | refused hrefused => exact absurd ⟨hargument, .inl rfl⟩ (hrefused argument)

/-- An argument that follows the rule which empties follows the other one too, unless it is a bare
name whose variable has a value that is not empty. -/
theorem Export.kept_iff (h : Export emptied environment argument later) :
    Export kept environment argument later ↔
      (IsIdentifier argument →
        environment.find? argument = none ∨ environment.find? argument = some "") := by
  constructor
  · intro hkept hargument
    -- The two rules leave the same value in the variable.
    have hsame := (h.eq_insert hargument).symm.trans (hkept.eq_insert hargument)
    have hvalue := congrArg (fun environment => environment.find? argument) hsame
    simp only [Dictionary.find?_insert, if_pos] at hvalue
    exact kept_eq_empty_iff.1 (Option.some.inj hvalue).symm
  · intro hempty
    cases h with
    | value value hname => exact .value value hname
    | bare hname =>
      rw [show emptied _ = kept _ from (kept_eq_empty_iff.2 (hempty hname)).symm]
      exact .bare hname
    | refused hrefused => exact .refused hrefused

/-- The two rules lead through the same environments exactly if no variable has a value that is not
empty when its name stands alone. -/
theorem Exports.kept_iff (h : Exports emptied environment args trail) :
    Exports kept environment args trail ↔
      ∀ turn ∈ args.zip (environment :: trail), IsIdentifier turn.1 →
        turn.2.find? turn.1 = none ∨ turn.2.find? turn.1 = some "" := by
  induction h with
  | nil =>
    simp only [List.zip_nil_left, List.not_mem_nil, false_implies, implies_true, iff_true]
    exact .nil
  | cons hstep _ ih =>
    -- The first turn stands in the first environment, the others in those after it.
    rw [exports_cons_iff, hstep.kept_iff, ih, List.zip_cons_cons, List.forall_mem_cons]

/-! ## Runs of the command -/

variable {σ : Type} [Supply σ]

/-- One argument of `export` does to a process what it does to its environment. -/
theorem export_exported (process : Process) (argument : String) :
    Export emptied process.environment argument (process.exported argument).environment ∧
      process.exported argument =
        { process with environment := (process.exported argument).environment } := by
  have hread := eq_of_binding argument
  unfold Process.exported
  split
  · next hname =>
    refine ⟨?_, rfl⟩
    show Export _ _ _ (process.environment.insert _ _)
    have hidentifier := isIdentifier_iff.1 hname
    -- What is set is what was read, and a bare name is read with an empty value.
    generalize Process.binding argument = binding at hread hidentifier
    obtain ⟨rfl, hvalue⟩ | rfl := hread
    · rw [hvalue]
      exact .bare hidentifier
    · exact .value _ hidentifier
  · next hname => exact ⟨.refused (refused_iff.2 (by simpa using hname)), rfl⟩

/-- The arguments of `export` lead a process through environments. -/
theorem exists_exports (args : List String) (process : Process) :
    ∃ trail, Exports emptied process.environment args trail ∧
      args.foldl Process.exported process =
        { process with environment := trail.getLastD process.environment } := by
  induction args generalizing process with
  | nil => exact ⟨[], .nil, rfl⟩
  | cons argument args ih =>
    obtain ⟨hstep, hlater⟩ := export_exported process argument
    obtain ⟨trail, hrest, hlast⟩ := ih (process.exported argument)
    refine ⟨_ :: trail, .cons hstep hrest, ?_⟩
    rw [List.foldl_cons, hlast, List.getLastD_cons, hlater]

/-- Arguments of `export` take effect in their order: the environment goes through what they do one
by one, each that is about no variable brings one complaint, and nothing else is done. The variables
that no argument is about stay as they were, and the status is 1 if some argument was refused. A
bare name empties its variable, which is what marking it would do exactly as long as it has no other
value when its name comes. -/
theorem exports_in_order (streams : Streams σ) {args : List String} (hargs : args ≠ [])
    (machine : Machine σ) :
    let environment := machine.process.environment
    let refused := args.filter Refused
    ∃ trail, Exports emptied environment args trail ∧
      (exportVariables.program args).run streams machine =
        (.ok (if refused = [] then 0 else 1),
          { machine with
            process := { machine.process with environment := trail.getLastD environment }
            plumbing := complain streams refused machine.plumbing }) ∧
      (∀ name, (∀ argument ∈ args, ¬ Names argument name) →
        (trail.getLastD environment).find? name = environment.find? name) ∧
      (Exports kept environment args trail ↔
        ∀ turn ∈ args.zip (environment :: trail), IsIdentifier turn.1 →
          turn.2.find? turn.1 = none ∨ turn.2.find? turn.1 = some "") := by
  intro environment refused
  obtain ⟨trail, hexports, hlast⟩ := exists_exports args machine.process
  refine ⟨trail, hexports, ?_, fun name hname => hexports.find?_of_not_names hname,
    hexports.kept_iff⟩
  obtain ⟨argument, rest, rfl⟩ := List.exists_cons_of_ne_nil hargs
  have hrun := run_exportAll streams (argument :: rest) 0 machine
  rw [hlast, nameless_eq_filter] at hrun
  exact hrun

/-- A new name, an argument that is about no variable, with an error channel that takes half of the
complaint, and a value that holds an equals sign. -/
theorem exports_in_order_around_refusal :
    let environment : Environment := .ofList [("A", "1")]
    let machine : Machine Wiring :=
      ⟨⟨"console", "/", environment, .ofStore .empty, ⟨80, 24⟩, .insertion⟩,
        { error := { room := some 12 } }, []⟩
    let args := ["B", "2C=x", "D=u=v"]
    let outcome := (exportVariables.program args).run Wiring.streams machine
    args ≠ [] ∧ outcome.1 = .ok 1 ∧
      outcome.2.process.environment.texts = ["A=1", "B=", "D=u=v"] ∧
      outcome.2.process.environment.find? "A" = some "1" ∧
      ∃ trail, Exports kept environment args trail ∧
        outcome.2.process.environment = trail.getLastD environment := by
  intro environment machine args outcome
  have hargs : args ≠ [] := List.cons_ne_nil _ _
  obtain ⟨trail, -, hrun, hothers, hkept⟩ := exports_in_order Wiring.streams hargs machine
  have houtcome : outcome = _ := hrun
  have hrefused : args.filter Refused = ["2C=x"] := by decide +kernel
  refine ⟨hargs, ?_, by decide +kernel, ?_, trail, hkept.2 ?_, by rw [houtcome]⟩
  · rw [houtcome, hrefused]
    rfl
  · rw [houtcome]
    exact (hothers "A" (by decide +kernel)).trans (by decide +kernel)
  · rw [List.zip_cons_cons, List.forall_mem_cons]
    refine ⟨fun _ => .inl (by decide +kernel), fun turn hturn hname => ?_⟩
    -- No other argument is a bare name.
    have hbare : ∀ argument ∈ ["2C=x", "D=u=v"], ¬ IsIdentifier argument := by decide +kernel
    exact absurd hname (hbare _ (List.of_mem_zip hturn).1)

/-- A variable with a value that is only to be marked, and is empty after it. -/
theorem export_empties_variable :
    let environment : Environment := .ofList [("A", "1")]
    let machine : Machine Wiring :=
      ⟨⟨"console", "/", environment, .ofStore .empty, ⟨80, 24⟩, .insertion⟩, {}, []⟩
    let outcome := (exportVariables.program ["A"]).run Wiring.streams machine
    Exports kept environment ["A"] [environment] ∧ outcome.1 = .ok 0 ∧
      environment.find? "A" = some "1" ∧ outcome.2.process.environment.find? "A" = some "" := by
  intro environment machine outcome
  have hname : IsIdentifier "A" := isIdentifier_iff.1 (by decide +kernel)
  have hvalue : environment.find? "A" = some "1" := by decide +kernel
  have hstep : Export kept environment "A" _ := .bare hname
  rw [insert_kept hvalue] at hstep
  exact ⟨.cons hstep .nil, rfl, hvalue, by decide +kernel⟩

end Userland

end Honeypot
