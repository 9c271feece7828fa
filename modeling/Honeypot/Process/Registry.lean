import Honeypot.Path.BaseName
import Honeypot.Process.Program
import Honeypot.Text.Shown

/-!
# Commands and their registry

A registry files the simulated commands under their names. A path selects its command by its base
name.

* `Registry.ofList`: the last registration of a name wins.
* `Registry.names`: the names in the order of their bytes.
* `Registry.execute`: runs a command. A crash stays inside: it is reported, the session sees a
  segmentation fault on its own error channel, and the status says so.

## References

- [SPEC] `SPEC_FULL.md`: §4.1, Command Registry; §4.5, Dispatcher
-/

namespace Honeypot

/-- A simulated command. -/
structure Command where
  /-- How it is used, and on the second line what it is for. -/
  help : String
  /-- The directory it appears to live in. -/
  location : String := "/bin"
  /-- What it does with its arguments. -/
  program : List String → Program Status

/-- The simulated commands by name. -/
structure Registry where
  commands : Dictionary String Command

namespace Registry

/-- The registry of a list of registrations, in their order ([SPEC] §4.1). -/
def ofList (registrations : List (String × Command)) : Registry :=
  ⟨Dictionary.ofList registrations⟩

/-- The registry with further registrations. -/
def register (registry : Registry) (registrations : List (String × Command)) : Registry :=
  ⟨registry.commands.insertAll registrations⟩

/-- The command registered under a name. -/
def find? (registry : Registry) (name : String) : Option Command :=
  registry.commands.find? name

/-- The registered names in the order of their bytes. -/
def names (registry : Registry) : List String :=
  registry.commands.keys.mergeSort Text.bytewise

/-- The number of registered commands. -/
def size (registry : Registry) : Nat :=
  registry.commands.size

/-- A registry in one line, for the operator. -/
def description (registry : Registry) : String :=
  "CommandRegistry \x7b commands: [" ++
    String.intercalate ", " (registry.names.map Text.shown) ++ "] \x7d"

/-- What a session shows when a command crashed ([SPEC] §4.5). -/
def crashLine : Bytes := Text.encode "Segmentation fault\n"

variable {σ : Type} [Supply σ]

/-- Runs the command that a path selects, on the session's own streams or on an observer ([SPEC]
§4.5). -/
def execute (registry : Registry) (streams : Streams σ) (observer : Option (Duplex σ))
    (path : String) (args : List String) (machine : Machine σ) :
    Except Failure Status × Machine σ :=
  match registry.find? (Path.baseName path) with
  | none => (.error (.notFound Failure.execution path), machine)
  | some command =>
    let bound := match observer with
      | some observer => Streams.observed observer
      | none => streams
    match (command.program args).run bound machine with
    | (.ok status, machine) => (.ok status, machine)
    | (.error crash, machine) =>
      -- The observer is not told: the crash shows on the session's own error channel.
      let machine := machine.reported (.crash machine.process.session path crash.text)
      (.ok .crashed, (machine.stream (streams.error.sink.writeAll crashLine)).2)

open Supply (left)

theorem left_execute_le (registry : Registry) (streams : Streams σ) (observer : Option (Duplex σ))
    (path : String) (args : List String) (machine : Machine σ) :
    left (registry.execute streams observer path args machine).2.plumbing ≤
      left machine.plumbing := by
  unfold execute
  split
  · exact Nat.le_refl _
  · rename_i command _
    dsimp only
    generalize (match observer with
      | some observer => Streams.observed observer
      | none => streams) = bound
    have h := (command.program args).left_run_le bound machine
    split <;> rename_i hr <;> rw [hr] at h
    · exact h
    · exact Nat.le_trans (streams.error.sink.left_writeAll_le crashLine _) h

end Registry

end Honeypot
