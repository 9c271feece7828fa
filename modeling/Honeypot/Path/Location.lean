import Honeypot.Text.Split

/-!
# Locations

A location is a place in a filesystem, given by the names on the way from it up to the root, the
innermost name first. Path texts denote locations: empty pieces and `.` stay where they are, `..`
goes up (the root is its own parent), any other piece goes down.

* `Location.ofText`: the location that a path text denotes.
* `Location.text`: the one path text of a location in normal form.
* `Location.resolve`: a path text read from a working directory.

## References

- [SPEC] `SPEC_FULL.md`: §4.2, Virtual Process Context; §6, External Interfaces
-/

namespace Honeypot

/-- A place in a filesystem: its name and those of the directories above it, innermost first. -/
abbrev Location := List String

namespace Location

/-- The root of a filesystem. -/
def root : Location := []

/-- The location that a piece of a path leads to. -/
def enter (location : Location) (piece : String) : Location :=
  if piece = "" ∨ piece = "." then location
  else if piece = ".." then location.tail
  else piece :: location

/-- The pieces of a path text between its slashes. -/
def pieces (path : String) : List String :=
  (Text.pieces '/' path.toList).map String.ofList

/-- The location that a path text denotes, whether or not it starts with a slash. -/
def ofText (path : String) : Location :=
  (pieces path).foldl enter root

/-- The path text of a location: every name after a slash, and a slash alone for the root. -/
def text (location : Location) : String :=
  "/" ++ String.intercalate "/" location.reverse

/-- The directory above a location. The root is its own parent. -/
def parent (location : Location) : Location :=
  location.tail

/-- Whether a path text starts at the root. -/
def isAbsolute (path : String) : Bool :=
  path.toList.head? == some '/'

/-- A path text in normal form. -/
def normalize (path : String) : String :=
  (ofText path).text

/-- A path text, relative ones put after the working directory as they are. -/
def join (directory path : String) : String :=
  if isAbsolute path then path else directory ++ "/" ++ path

/-- The normal form of a path text read from a working directory. -/
def resolve (directory path : String) : String :=
  normalize (join directory path)

end Location

end Honeypot
