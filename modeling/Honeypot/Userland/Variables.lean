import Honeypot.Process.Registry

/-!
# Commands on the environment

`env` prints the environment, `export` sets variables or lists them, `whoami` names the user.

## References

- [SPEC] `SPEC_FULL.md`: §10, Supplementary Features
-/

namespace Honeypot.Userland

open Program

/-- The status of a command whose only possible failure is its output. -/
def status : Except Fault Unit → Status
  | .ok () => 0
  | .error _ => 1

/-- Lines joined to one text that ends its last line, if there is any text. -/
def joinLines (lines : List String) : String :=
  let text := String.intercalate "\n" lines
  if text = "" then text else text ++ "\n"

/-- `env`: prints the environment in the order of its bytes. -/
def env : Command where
  help := "env\n  Print the environment."
  location := "/usr/bin"
  program _ := do
    let texts ← environ
    return status (← print (Text.encode (joinLines (texts.mergeSort Text.bytewise))))

/-- Whether a text can name a variable: a letter or underscore, then letters, digits and
underscores, all of them ASCII. -/
def isIdentifier (name : String) : Bool :=
  match name.toList with
  | [] => false
  | first :: rest =>
    (first.isAlpha || first == '_') && rest.all fun c => c.isAlphanum || c == '_'

/-- Lists the variables, one declaration each, up to the first that cannot be printed. -/
def declareAll : List String → Program Status
  | [] => pure 0
  | text :: texts => do
    let binding := (Text.nameAndValue text).getD (text, "")
    match ← printTexts ["declare -x ", binding.1, "=\x22", binding.2, "\x22\n"] with
    | .ok () => declareAll texts
    | .error _ => pure 1

/-- Sets the variables that arguments name, each to its value or to nothing, and complains about
those that are no identifier. -/
def exportAll : List String → Status → Program Status
  | [], code => pure code
  | argument :: arguments, code => do
    let binding := (Text.nameAndValue argument).getD (argument, "")
    -- A bad name does not keep the others from being set.
    if isIdentifier binding.1 then
      assign binding.1 binding.2
      exportAll arguments code
    else
      let _ ← printErrorTexts ["-bash: export: \x60", argument, "\x27: not a valid identifier\n"]
      exportAll arguments 1

/-- `export`: sets variables, or lists all of them when there are no arguments. -/
def exportVariables : Command where
  help := "export [name[=value] ...]\n  Set export attribute for shell variables."
  location := "shell builtin"
  program args := do
    if args.isEmpty then
      let texts ← environ
      declareAll (texts.mergeSort Text.bytewise)
    else exportAll args 0

/-- `whoami`: prints the user's name. -/
def whoami : Command where
  help := "whoami\n  Print effective user name."
  location := "/usr/bin"
  program _ := do
    let user := (Environment.lookUp "USER" (← environ)).getD "root"
    return status (← printTexts [user, "\n"])

end Honeypot.Userland
