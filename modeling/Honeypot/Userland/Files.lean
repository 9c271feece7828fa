import Honeypot.Userland.Variables

/-!
# Commands on files and directories

`pwd` and `cd` show and change the working directory, `ls` lists directories, `cat` prints files.

## References

- [SPEC] `SPEC_FULL.md`: §10, Supplementary Features
-/

namespace Honeypot.Userland

open Program

/-- `pwd`: prints the working directory. -/
def pwd : Command where
  help := "pwd\n  Print the name of the current working directory."
  program _ := do
    return status (← printTexts [← directory, "\n"])

/-- Where `cd` goes: its first argument, or the home directory, or the root. -/
def cdTarget : List String → Program String
  | target :: _ => pure target
  | [] => do return (Environment.lookUp "HOME" (← environ)).getD "/"

/-- `cd`: changes the working directory to the normal form of a path, and keeps `PWD` and `OLDPWD`
in step. -/
def cd : Command where
  help := "cd [dir]\n  Change the shell working directory."
  location := "shell builtin"
  program args := do
    let target ← cdTarget args
    let old ← directory
    let resolved := Location.resolve old target
    match ← changeDirectory resolved with
    | .ok () =>
      -- The variables are set only after the move has succeeded.
      assign "OLDPWD" old
      assign "PWD" resolved
      return 0
    | .error _ =>
      let _ ← printErrorTexts ["-bash: cd: ", target, ": No such file or directory\n"]
      return 1

/-- The names of a listing that are not hidden. -/
def visibleNames (entries : List Entry) : List String :=
  (entries.map Entry.name).filter fun name => name.toList.head? != some '.'

/-- What `ls` lists for its operands: the lines, and the status. With several operands every
directory is announced. -/
def listAll (announce : Bool) : List String → List String → Status → Program (List String × Status)
  | [], lines, code => pure (lines, code)
  | target :: targets, lines, code => do
    let path := Location.resolve (← directory) target
    match ← stat path with
    | .error _ =>
      let _ ← printErrorTexts
        ["ls: cannot access \x27", target, "\x27: No such file or directory\n"]
      listAll announce targets lines 2
    | .ok ⟨.file, _⟩ => listAll announce targets (lines ++ [target]) code
    | .ok ⟨.directory, _⟩ =>
      match ← readdir path with
      | .error _ => listAll announce targets lines 2
      | .ok entries =>
        let header := if announce then [target ++ ":"] else []
        let names := visibleNames entries
        let listing := if names.isEmpty then [] else [String.intercalate "  " names]
        listAll announce targets (lines ++ header ++ listing) code

/-- The operands of `ls`: the arguments that are no options, or the working directory. -/
def listTargets (args : List String) : List String :=
  let targets := args.filter fun arg => arg.toList.head? != some '-'
  if targets.isEmpty then ["."] else targets

/-- `ls`: lists files and the visible names in directories. -/
def ls : Command where
  help := "ls [FILE]...\n  List directory contents."
  program args := do
    let targets := listTargets args
    let listing ← listAll (1 < targets.length) targets [] 0
    match ← print (Text.encode (joinLines listing.1)) with
    | .ok () => return listing.2
    | .error _ => return 1

/-- Prints files one after the other, up to the first whose content cannot be printed. -/
def concatenate : List String → Status → Program Status
  | [], code => pure code
  | name :: names, code => do
    let path := Location.resolve (← directory) name
    match ← readFile path with
    | .ok content =>
      match ← print content with
      | .ok () => concatenate names code
      | .error _ => pure 1
    | .error failure =>
      let reason := if failure.isNotFound then "No such file or directory" else "Is a directory"
      let _ ← printErrorTexts ["cat: ", name, ": ", reason, "\n"]
      concatenate names 1

/-- `cat`: prints files, or standard input when there are no arguments. -/
def cat : Command where
  help := "cat [FILE]...\n  Concatenate files and print on the standard output."
  program args := do
    if args.isEmpty then
      match ← readAll with
      | .ok content => return status (← print content)
      | .error _ => return 1
    else concatenate args 0

end Honeypot.Userland
