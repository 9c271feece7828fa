import Honeypot.Proofs.Process.Delivery

/-!
# Files printed one after the other

`cat` prints the files among its operands in order, and complains about each of the others. None of
them has a part in what becomes of the rest, so the contents arrive as if they were one.

* `Process.contentAt`, `Userland.catComplaint?`: what an operand adds to the output, or to the
  errors.
* `Userland.exists_run_concatenate`: what operands come to, by induction on them.
* `Userland.cat_concatenates`: what `cat` comes to on streams that lose nothing.

## References

- [SPEC] `SPEC_FULL.md`: §10, Supplementary Features
-/

namespace Honeypot

/-- The content of the file at a path. Anything else has none. -/
def Process.contentAt (process : Process) (path : String) : Bytes :=
  match process.nodeAt? path with
  | some (.file content) => content
  | _ => []

namespace Userland

open Program

/-- The texts of a complaint about an operand. -/
def catTexts (name reason : String) : List String := ["cat: ", name, ": ", reason, "\n"]

/-- The reason that is given for a read that failed. -/
def catReason (failure : Failure) : String :=
  if failure.isNotFound then "No such file or directory" else "Is a directory"

/-- What `cat` complains of about an operand, if it is no file. -/
def catComplaint? (process : Process) (name : String) : Option String :=
  match process.nodeAt? name with
  | some (.file _) => none
  | some .directory => some (String.join (catTexts name "Is a directory"))
  | none => some (String.join (catTexts name "No such file or directory"))

variable {σ : Type} [Supply σ] {streams : Streams σ} {screen errors : Destination σ}
  {machine : Machine σ} {printed complained : Bytes} {name : String} {names : List String}

/-- What is read for an operand is its content, or a failure from which the complaint is made. -/
theorem read_cases (process : Process) (name : String) :
    (∃ content, process.volume.store.read (Location.resolve process.directory name) = .ok content ∧
      process.contentAt name = content ∧ catComplaint? process name = none) ∨
    ∃ failure, process.volume.store.read (Location.resolve process.directory name) =
        .error failure ∧
      process.contentAt name = [] ∧
      catComplaint? process name = some (String.join (catTexts name (catReason failure))) := by
  rw [Store.read, Process.contentAt, catComplaint?, Process.nodeAt?]
  cases process.volume.store.find?
      (Location.ofText (Location.resolve process.directory name)) with
  | none => exact .inr ⟨_, rfl, rfl, rfl⟩
  | some node =>
    cases node with
    | file content => exact .inl ⟨content, rfl, rfl, rfl⟩
    | directory => exact .inr ⟨_, rfl, rfl, rfl⟩

/-- The first operand is read, and then printed or complained of. -/
theorem run_concatenate_cons (hdenials : machine.process.volume.denials = []) (code : Status) :
    (concatenate (name :: names) code).run streams machine =
      Program.run streams
        (match machine.process.volume.store.read
          (Location.resolve machine.process.directory name) with
        | .ok content => do
          match ← print content with
          | .ok () => concatenate names code
          | .error _ => pure 1
        | .error failure => do
          let _ ← printErrorTexts (catTexts name (catReason failure))
          concatenate names 1)
        machine := by
  rw [concatenate, run_bind, run_directory]
  dsimp only
  rw [run_bind, run_readFile streams hdenials]
  rfl

/-- The first operand adds its content to the output, or a complaint to the errors, and `cat` goes
on with the others. Only a complaint changes its status. -/
theorem exists_run_concatenate_cons (h : streams.Delivers screen errors)
    (harrived : Arrived screen errors printed complained machine.plumbing)
    (hdenials : machine.process.volume.denials = []) (code : Status) :
    ∃ later, (concatenate (name :: names) code).run streams machine =
        (concatenate names (if (catComplaint? machine.process name).isSome then 1 else code)).run
          streams { machine with plumbing := later } ∧
      Arrived screen errors
        (printed ++ Sink.translated (machine.process.contentAt name))
        (complained ++ Text.encode ((catComplaint? machine.process name).getD "")) later := by
  rw [run_concatenate_cons hdenials]
  obtain ⟨content, hread, hcontent, hnone⟩ | ⟨failure, hread, hcontent, hcomplaint⟩ :=
    read_cases machine.process name
  · -- A file is printed, and the status stays.
    obtain ⟨later, hrun, hlater⟩ := h.run_print harrived content
    rw [hread, hcontent, hnone]
    refine ⟨later, ?_, ?_⟩
    · dsimp only
      rw [run_bind, hrun]
      rfl
    · simpa using hlater
  · -- Anything else is complained of, and the status is that of a failure from then on.
    obtain ⟨later, hrun, hlater⟩ :=
      h.run_printErrorTexts harrived (catTexts name (catReason failure))
    rw [hread, hcontent, hcomplaint]
    refine ⟨later, ?_, ?_⟩
    · dsimp only
      rw [run_bind, hrun]
      rfl
    · simpa using hlater

/-- Operands add their contents to the output and their complaints to the errors, in order. -/
theorem exists_run_concatenate (h : streams.Delivers screen errors)
    (harrived : Arrived screen errors printed complained machine.plumbing)
    (hdenials : machine.process.volume.denials = []) (names : List String) (code : Status) :
    ∃ later, (concatenate names code).run streams machine =
        (.ok (if names.filterMap (catComplaint? machine.process) = [] then code else 1),
          { machine with plumbing := later }) ∧
      Arrived screen errors
        (printed ++ Sink.translated (names.flatMap machine.process.contentAt))
        (complained ++
          Text.encode (String.join (names.filterMap (catComplaint? machine.process)))) later := by
  induction names generalizing machine printed complained code with
  | nil => exact ⟨machine.plumbing, rfl, by simpa using harrived⟩
  | cons name names ih =>
    obtain ⟨first, hrun, hfirst⟩ := exists_run_concatenate_cons h harrived hdenials code
    obtain ⟨later, hrest, hlater⟩ := @ih { machine with plumbing := first } _ _ hfirst hdenials
      (if (catComplaint? machine.process name).isSome then 1 else code)
    -- The plumbing alone has changed, so the others are looked up as they were at first.
    dsimp only at hrest hlater
    refine ⟨later, ?_, ?_⟩
    · rw [hrun, hrest]
      cases hcomplaint : catComplaint? machine.process name <;> simp [hcomplaint]
    · rw [List.flatMap_cons, Sink.translated_append, ← List.append_assoc]
      cases hcomplaint : catComplaint? machine.process name <;> simpa [hcomplaint] using hlater

/-- `cat` complains of everything but files. -/
theorem catComplaint?_eq_none_iff {process : Process} :
    catComplaint? process name = none ↔
      ∃ content, process.nodeAt? name = some (.file content) := by
  rw [catComplaint?]
  cases process.nodeAt? name with
  | none => simp
  | some node => cases node <;> simp

/-- On streams that lose nothing, with nothing denied, `cat` prints the contents of the files among
its operands as if they were one, in the order of the operands and as often as they are named. Of
every other operand it complains, in the same order: of a directory that it is one, of anything else
that it is not there. Its status tells whether all operands were files. Of the session, nothing but
the plumbing is changed. -/
theorem cat_concatenates (h : streams.Delivers screen errors)
    (harrived : Arrived screen errors printed complained machine.plumbing)
    (hdenials : machine.process.volume.denials = []) {args : List String} (hargs : args ≠ []) :
    ∃ code later, (cat.program args).run streams machine =
        (.ok code, { machine with plumbing := later }) ∧
      Arrived screen errors
        (printed ++ Sink.translated (args.flatMap machine.process.contentAt))
        (complained ++
          Text.encode (String.join (args.filterMap (catComplaint? machine.process)))) later ∧
      (code = 0 ↔ ∀ arg ∈ args, ∃ content, machine.process.nodeAt? arg = some (.file content)) := by
  have hcat : cat.program args = concatenate args 0 := if_neg (by simpa using hargs)
  obtain ⟨later, hrun, hlater⟩ := exists_run_concatenate h harrived hdenials args 0
  refine ⟨_, later, by rw [hcat, hrun], hlater, ?_⟩
  simp only [← catComplaint?_eq_none_iff, ← List.filterMap_eq_nil_iff]
  split_ifs with hnone
  · exact iff_of_true rfl hnone
  · exact iff_of_false (by decide) hnone

/-- A session in a directory with two files, one of them with two lines. -/
def shelved : Process where
  session := "console"
  directory := "/srv"
  environment := ∅
  volume := .ofStore (Store.empty.after [.mkdir "/srv/old", .write "/srv/a" (Text.encode "1\n2\n"),
    .write "/srv/old/b" (Text.encode "3")])
  geometry := ⟨80, 24⟩
  arrangement := .insertion

/-- Ends that take bytes in portions, one of them disturbed. -/
def portioned : Wiring where
  output := { script := [.accept 1, .fail .interrupted, .accept 1, .fail .interrupted] }
  error := { script := [.accept 2] }

/-- Operands that name one file twice, and three other paths. -/
def operands : List String := ["a", "none", "old/../a", "old", "/srv//old/b"]

theorem cat_concatenates_portioned :
    ∃ code later, (cat.program operands).run Wiring.streams ⟨shelved, portioned, []⟩ =
        (.ok code, ⟨shelved, later, []⟩) ∧
      later.written .output = Text.encode "1\r\n2\r\n1\r\n2\r\n3" ∧
      later.written .error =
        Text.encode "cat: none: No such file or directory\ncat: old: Is a directory\n" ∧
      code ≠ 0 := by
  let machine : Machine Wiring := ⟨shelved, portioned, []⟩
  have houtput : (portioned.outlet .output).NeverFails :=
    ⟨⟨by simp [Wiring.outlet, portioned, Reaction.IsPatient], rfl, rfl⟩, rfl⟩
  have herror : (portioned.outlet .error).NeverFails :=
    ⟨⟨by simp [Wiring.outlet, portioned, Reaction.IsPatient], rfl, rfl⟩, rfl⟩
  have harrived : Arrived (Wiring.destination .output) (Wiring.destination .error) [] []
      machine.plumbing := ⟨⟨houtput, rfl⟩, herror, rfl⟩
  have hdenials : machine.process.volume.denials = [] := rfl
  have hargs : operands ≠ [] := List.cons_ne_nil _ _
  obtain ⟨code, later, hrun, ⟨⟨-, hprinted⟩, -, hcomplained⟩, hcode⟩ :=
    cat_concatenates Wiring.delivers harrived hdenials hargs
  refine ⟨code, later, hrun, hprinted.trans ?_, hcomplained.trans ?_, fun hzero => ?_⟩
  · decide +kernel
  · decide +kernel
  · have hnone : shelved.nodeAt? "none" = none := by decide +kernel
    obtain ⟨content, hnode⟩ := hcode.1 hzero "none" (by decide)
    exact absurd (hnone.symm.trans hnode) (by simp)

end Userland

end Honeypot
