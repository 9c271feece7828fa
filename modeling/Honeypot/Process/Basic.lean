import Honeypot.Store.Volume

/-!
# Processes

The state of one session: working directory, environment, filesystem and terminal size.

* `Process.start`: a process in its home directory.
* `Process.changeDirectory`: the working directory changes to a directory that exists, under the
  name that was given.
* `Process.environ`, `lookUp`: the environment as `KEY=VALUE` texts, and a value found among them.

## References

- [SPEC] `SPEC_FULL.md`: §3, Data Model; §4.2, Virtual Process Context
-/

namespace Honeypot

/-- The size of a terminal. -/
structure Geometry where
  width : UInt32
  height : UInt32
deriving DecidableEq, Repr

/-- The environment of a process. -/
abbrev Environment := Dictionary String String

/-- An order in which entries of an environment are listed, which is not specified ([SPEC] §3). It
may be any for any entries. -/
structure Arrangement where
  arrange : List (String × String) → List (String × String)
  perm : ∀ entries, (arrange entries).Perm entries

/-- The order in which names first came in. -/
def Arrangement.insertion : Arrangement := ⟨id, .refl⟩

namespace Environment

/-- The `KEY=VALUE` text of an entry. -/
def text (entry : String × String) : String := entry.1 ++ "=" ++ entry.2

/-- The environment as `KEY=VALUE` texts, in the order in which names first came in. -/
def texts (environment : Environment) : List String := environment.entries.map text

/-- The value of the first `KEY=VALUE` text with a key. -/
def lookUp (key : String) (texts : List String) : Option String :=
  texts.findSome? fun text =>
    match Text.nameAndValue text with
    | some (name, value) => if name = key then some value else none
    | none => none

end Environment

/-- The state of one session. -/
structure Process where
  /-- The label of the session in reports. -/
  session : String
  /-- The working directory as it was last given. -/
  directory : String
  environment : Environment
  volume : Volume
  geometry : Geometry
  /-- The order in which the environment is listed. -/
  arrangement : Arrangement

namespace Process

/-- A process in its home directory, which is made if it is missing ([SPEC] §4.2). -/
def start (session home : String) (volume : Volume) (geometry : Geometry) (order : Arrangement) :
    Except Failure Process :=
  if Location.isAbsolute home then
    match volume.isDirectory home with
    | .error failure => .error failure
    | .ok true => .ok ⟨session, home, ∅, volume, geometry, order⟩
    | .ok false =>
      match volume.mkdir home with
      | (.ok (), volume) => .ok ⟨session, home, ∅, volume, geometry, order⟩
      | (.error failure, _) => .error failure
  else .error (.filesystem (.relativeHome home))

/-- The process with variables set, later ones winning. -/
def withEnvironment (process : Process) (bindings : List (String × String)) : Process :=
  { process with environment := process.environment.insertAll bindings }

/-- The environment as `KEY=VALUE` texts, in the order of the process. -/
def environ (process : Process) : List String :=
  (process.arrangement.arrange process.environment.entries).map Environment.text

/-- The value of a variable. -/
def valueOf? (process : Process) (key : String) : Option String :=
  process.environment.find? key

/-- The process with one variable set. -/
def assign (process : Process) (key value : String) : Process :=
  { process with environment := process.environment.insert key value }

/-- Changes the working directory. A relative path is put after the working directory as it is,
and the directory it names must exist ([SPEC] §4.2). -/
def changeDirectory (process : Process) (path : String) : Except Failure Unit × Process :=
  let target := Location.join process.directory path
  match process.volume.isDirectory target with
  | .ok true => (.ok (), { process with directory := target })
  | .ok false => (.error (.notFound "chdir" target), process)
  | .error failure => (.error failure, process)

end Process

end Honeypot
