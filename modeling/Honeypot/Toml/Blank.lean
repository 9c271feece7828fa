/-!
# Blanks, line ends and comments

What stands between the parts of a TOML document. Readers take the text before them and give what
they read with the text after it; none means that the text is not well-formed.

* `blank`: blanks within a line.
* `lineEnd`: the end of a statement: blanks, perhaps a comment, and a line end or the end of text.
* `between`: what may stand between the parts of an array, line ends and comments included.
-/

namespace Honeypot.Toml

/-- What reads a part of a document: its value and the text after it. -/
abbrev Reader (α : Type) := List Char → Option (α × List Char)

/-- Whether a character is a blank within a line. -/
def isBlank (c : Char) : Bool := c == ' ' || c == '\t'

/-- The text after the blanks at its beginning. -/
def blank (text : List Char) : List Char := text.dropWhile isBlank

/-- Whether a character may stand in a comment. -/
def isCommentChar (c : Char) : Bool := c == '\t' || (0x20 ≤ c.toNat && c.toNat ≠ 0x7F)

/-- The text after a line end, if it begins with one. -/
def newline? : List Char → Option (List Char)
  | '\n' :: rest => some rest
  | '\r' :: '\n' :: rest => some rest
  | _ => none

/-- The text after a comment, if it begins with one. -/
def comment : List Char → List Char
  | '#' :: rest => rest.dropWhile isCommentChar
  | text => text

/-- The text after the end of a statement. -/
def lineEnd (text : List Char) : Option (List Char) :=
  match comment (blank text) with
  | [] => some []
  | rest => newline? rest

/-- The text after blanks, line ends and comments. A comment must end with its line. -/
def betweenFrom (inComment : Bool) : List Char → Option (List Char)
  | [] => if inComment then none else some []
  | '\n' :: rest => betweenFrom false rest
  | '\r' :: '\n' :: rest => betweenFrom false rest
  | c :: rest =>
    if inComment then if isCommentChar c then betweenFrom true rest else none
    else if isBlank c then betweenFrom false rest
    else if c = '#' then betweenFrom true rest
    else some (c :: rest)

/-- The text after what may stand between the parts of an array. -/
def between (text : List Char) : Option (List Char) := betweenFrom false text

end Honeypot.Toml
