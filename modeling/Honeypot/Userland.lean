import Honeypot.Userland.Files

/-!
# The commands of a session

The programs that a pretend machine offers, with the two that only print what they are told.

## References

- [SPEC] `SPEC_FULL.md`: §7, Error Handling; §10, Supplementary Features
-/

namespace Honeypot.Userland

open Program

/-- `echo`: prints its arguments, and a line feed unless the first one is `-n`. -/
def echo : Command where
  help := "echo [-n] [STRING]...\n  Display a line of text."
  program args := do
    match args with
    | "-n" :: words => return status (← printTexts [String.intercalate " " words])
    | words => return status (← printTexts [String.intercalate " " words, "\n"])

/-- What `uname` prints about a host. -/
def systemText (hostname : String) (args : List String) : String :=
  if args.contains "-a" then
    "Linux " ++ hostname ++
      " 4.19.0-21-amd64 #1 SMP Debian 4.19.249-2 (2022-06-30) x86_64 GNU/Linux"
  else if args.contains "-n" then hostname
  else "Linux"

/-- `uname`: prints the name of the system. -/
def uname (hostname : String) : Command where
  help := "uname [-a]\n  Print system information."
  program args := do
    return status (← printTexts [systemText hostname args, "\n"])

/-- The commands of a machine by name. -/
def commands (hostname : String) : List (String × Command) :=
  [("echo", echo), ("pwd", pwd), ("cd", cd), ("env", env), ("export", exportVariables), ("ls", ls),
    ("cat", cat), ("whoami", whoami), ("uname", uname hostname)]

end Honeypot.Userland
