import Honeypot.Process.Basic
import Honeypot.Toml.Document

/-!
# Settings

What an operator can choose about a session.

* `Settings.ofToml`: the settings that a TOML document gives. What it leaves out keeps its
  default; `[env]` replaces the whole default environment.
* `Settings.check`: the conditions that usable settings meet.
* `Settings.homeOf`: the home directory of a user.

## References

- [SPEC] `SPEC_FULL.md`: §9.3, Configuration
-/

namespace Honeypot

/-- What an operator can choose about a session. -/
structure Settings where
  hostname : String
  /-- The user of the session. -/
  user : String
  geometry : Geometry
  /-- Home directories by user. -/
  homes : Dictionary String String
  /-- The environment that a session starts with. -/
  environment : Environment
  /-- The file that takes a recording of the session. -/
  recordPath : Option String

namespace Settings

/-- The settings when nothing is chosen. -/
def default : Settings where
  hostname := "svr04"
  user := "root"
  geometry := ⟨80, 24⟩
  homes := ∅
  environment := Dictionary.ofList
    [("PATH", "/usr/local/sbin:/usr/local/bin:/usr/sbin:/usr/bin:/sbin:/bin"),
      ("SHELL", "/bin/bash"), ("TERM", "xterm-256color"), ("LANG", "en_US.UTF-8")]
  recordPath := none

instance : Inhabited Settings := ⟨default⟩

/-- The home directory of a user: the one that was chosen, or else `/root` for `root` and a
directory under `/home` for everyone else ([SPEC] §9.3). -/
def homeOf (settings : Settings) (user : String) : String :=
  match settings.homes.find? user with
  | some home => home
  | none => if user = "root" then "/root" else "/home/" ++ user

/-- The home directory of the session's user. -/
def home (settings : Settings) : String := settings.homeOf settings.user

/-- The first thing that is wrong with settings, if anything is: the terminal has a size, the user
has a name, and home directories are absolute. -/
def problem? (settings : Settings) : Option Problem :=
  if settings.geometry.width = 0 ∨ settings.geometry.height = 0 then
    some (.emptyGeometry settings.geometry.width settings.geometry.height)
  else if settings.user = "" then some .emptyUser
  else
    (settings.homes.entries.find? fun entry => !Location.isAbsolute entry.2).map
      fun (user, home) => .relativeHome user home

/-- Settings, if they are usable. -/
def check (settings : Settings) : Except Failure Settings :=
  match settings.problem? with
  | none => .ok settings
  | some problem => .error (.config problem)

open Toml (Item Table)

/-- A text under a key. -/
def text? : Item → Option String
  | .string text => some text
  | _ => none

/-- A number of 32 bits under a key. -/
def word? : Item → Option UInt32
  | .integer n => if 0 ≤ n ∧ n < UInt32.size then some (UInt32.ofNat n.toNat) else none
  | _ => none

/-- The key that a date or time has when it is read as a table. -/
def momentKey : String := "$__toml_private_datetime"

/-- A table of texts under a key. -/
def texts? : Item → Option (Dictionary String String)
  | .table _ entries | .inline entries => do
    let pairs ← entries.mapM fun (key, item) => (text? item).map fun text => (key, text)
    some (Dictionary.ofList pairs)
  -- A date or time offers itself as a table of one text.
  | .moment text => some (Dictionary.ofList [(momentKey, text)])
  | _ => none

/-- What stands under a key, read in some way, or a default if nothing stands there. -/
def field {α : Type} (table : Table) (key : String) (read : Item → Option α) (other : α) :
    Option α :=
  match table.find? key with
  | none => some other
  | some item => read item

/-- The settings that a table gives. Keys that mean nothing are passed over. -/
def ofTable (table : Table) : Option Settings := do
  let hostname ← field table "hostname" text? default.hostname
  let user ← field table "default_user" text? default.user
  let width ← field table "width" word? default.geometry.width
  let height ← field table "height" word? default.geometry.height
  let homes ← field table "homes" texts? default.homes
  let environment ← field table "env" texts? default.environment
  let recordPath ← field table "record_path" (fun item => (text? item).map some) none
  some ⟨hostname, user, ⟨width, height⟩, homes, environment, recordPath⟩

/-- The usable settings that a TOML document gives. -/
def ofToml (document : String) : Except Failure Settings :=
  match (Toml.Document.read document).bind ofTable with
  | none => .error .malformed
  | some settings => settings.check

/-- The usable settings that the bytes of a file give. -/
def ofFile (content : ByteArray) : Except Failure Settings :=
  match String.fromUTF8? content with
  | none => .error (.ofFault .invalidData)
  | some document => ofToml document

end Settings

end Honeypot
