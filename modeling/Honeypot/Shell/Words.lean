import Honeypot.Text.Blank

/-!
# Words of a command line

A command line is cut into words at blanks. Single quotes keep everything literally; in double
quotes a backslash escapes a quote, a backslash or a dollar; outside quotes it escapes anything.

* `Words.split`: the words of a line, or the quotation that it leaves open.

## References

- [SPEC] `SPEC_FULL.md`: §10, Supplementary Features
-/

namespace Honeypot

/-- Where in a command line a character stands. -/
inductive Quoting where
  /-- Outside quotes. -/
  | bare
  /-- Between single quotes. -/
  | single
  /-- Between double quotes. -/
  | double
deriving DecidableEq, Repr

/-- A quotation that the line does not close. -/
inductive Unterminated where
  | single
  | double
deriving DecidableEq, Repr

/-- The quote that opened a quotation. -/
def Unterminated.quote : Unterminated → Char
  | .single => '\x27'
  | .double => '\x22'

/-- The parts of the text shown for an unclosed quotation. -/
def Unterminated.parts (quotation : Unterminated) : List String :=
  ["unexpected EOF while looking for matching \x60", String.singleton quotation.quote, "\x27"]

/-- The text shown for an unclosed quotation. -/
def Unterminated.message (quotation : Unterminated) : String :=
  String.join quotation.parts

namespace Words

/-- Whether a backslash in double quotes escapes a character. -/
def isEscapable (c : Char) : Bool :=
  c = '\x22' || c = '\\' || c = '$'

/-- A word with a further character, given last character first; a word that was not begun is
begun by it. -/
def push (c : Char) (word : Option (List Char)) : Option (List Char) :=
  some (c :: word.getD [])

/-- A word that is begun, if only by a quote. -/
def begun (word : Option (List Char)) : Option (List Char) :=
  some (word.getD [])

/-- The finished word, if one was begun. -/
def finished : Option (List Char) → List String
  | none => []
  | some word => [String.ofList word.reverse]

/-- The words of the rest of a line, after a word whose characters so far are given, last one
first. -/
def splitFrom : Quoting → Option (List Char) → List Char → Except Unterminated (List String)
  | .bare, word, [] => .ok (finished word)
  | .single, _, [] => .error .single
  | .double, _, [] => .error .double
  | .single, word, c :: rest =>
    if c = '\x27' then splitFrom .bare word rest else splitFrom .single (push c word) rest
  -- A backslash before anything else in double quotes is an ordinary character.
  | .double, word, '\\' :: c :: rest =>
    if isEscapable c then splitFrom .double (push c word) rest
    else splitFrom .double (push '\\' word) (c :: rest)
  | .double, word, c :: rest =>
    if c = '\x22' then splitFrom .bare word rest else splitFrom .double (push c word) rest
  | .bare, word, '\\' :: c :: rest => splitFrom .bare (push c word) rest
  | .bare, word, c :: rest =>
    if c = '\x27' then splitFrom .single (begun word) rest
    else if c = '\x22' then splitFrom .double (begun word) rest
    -- A backslash at the end of the line escapes nothing, but it begins a word.
    else if c = '\\' then splitFrom .bare (begun word) rest
    else if Text.isBlank c then (finished word ++ ·) <$> splitFrom .bare none rest
    else splitFrom .bare (push c word) rest

/-- The words of a command line, or the quotation that it leaves open. -/
def split (line : String) : Except Unterminated (List String) :=
  splitFrom .bare none line.toList

end Words

end Honeypot
