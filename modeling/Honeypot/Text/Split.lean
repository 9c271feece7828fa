/-!
# Cutting text at separators

* `pieces`: all pieces between the occurrences of a separator; there is always at least one.
* `cutAt`: the text before and after the first occurrence of a separator.
* `lines`: the lines of a text, each without its line end.
-/

namespace Honeypot.Text

/-- The pieces of a text between the occurrences of a separator. -/
def pieces (separator : Char) : List Char → List (List Char)
  | [] => [[]]
  | c :: rest =>
    if c = separator then [] :: pieces separator rest
    -- There is always a piece to put the character in front of.
    else match pieces separator rest with
      | [] => [[c]]
      | piece :: more => (c :: piece) :: more

/-- The text before and after the first separator, if there is one. -/
def cutAt (separator : Char) : List Char → Option (List Char × List Char)
  | [] => none
  | c :: rest =>
    if c = separator then some ([], rest)
    else (cutAt separator rest).map fun (before, after) => (c :: before, after)

/-- A `name=value` text as its name and value, if it holds the sign. -/
def nameAndValue (text : String) : Option (String × String) :=
  (cutAt '=' text.toList).map fun (name, value) => (String.ofList name, String.ofList value)

/-- A line without the carriage return that may end it. -/
def dropReturn (line : List Char) : List Char :=
  if line.getLast? = some '\r' then line.dropLast else line

/-- The lines of a text: its pieces between line feeds, a last empty one left out. A carriage
return before a line feed belongs to the line end. -/
def lines (text : List Char) : List (List Char) :=
  let all := pieces '\n' text
  let ended := all.dropLast.map dropReturn
  match all.getLast? with
  | none | some [] => ended
  | some last => ended ++ [last]

end Honeypot.Text
