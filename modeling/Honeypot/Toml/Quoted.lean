import Honeypot.Toml.Blank

/-!
# Strings

The four kinds of strings in a TOML document. Basic strings stand in double quotes and have
escapes, literal strings stand in single quotes and have none. Three quotes open a string of
several lines, in which up to two quotes may stand together and every line end is a line feed.
-/

namespace Honeypot.Toml

/-- Whether a character may stand for itself in a string, quotes and backslashes aside. -/
def isStringChar (c : Char) : Bool := isCommentChar c

/-- The character of an escape of one letter. -/
def escaped? : Char → Option Char
  | 'b' => some '\x08'
  | 't' => some '\t'
  | 'n' => some '\n'
  | 'f' => some '\x0C'
  | 'r' => some '\r'
  | '\x22' => some '\x22'
  | '\\' => some '\\'
  | _ => none

/-- The value of a digit in bases up to sixteen. -/
def digit? (base : Nat) (c : Char) : Option Nat :=
  let value :=
    if '0' ≤ c ∧ c ≤ '9' then c.toNat - 0x30
    else if 'a' ≤ c ∧ c ≤ 'f' then c.toNat - 0x57
    else if 'A' ≤ c ∧ c ≤ 'F' then c.toNat - 0x37
    else base
  if value < base then some value else none

/-- The character whose code point is written in hexadecimal digits. -/
def scalar? (digits : List Char) : Option Char := do
  let n ← digits.foldlM (fun n c => (digit? 16 c).map fun d => n * 16 + d) 0
  if n.isValidChar then some (Char.ofNat n) else none

/-- A read text with a further character before it. -/
def prepend (c : Char) (read : Option (List Char × List Char)) :
    Option (List Char × List Char) :=
  read.map fun (content, rest) => (c :: content, rest)

/-- The rest of a basic string and the text after it. -/
def basic : Reader (List Char)
  | [] => none
  | '\\' :: 'u' :: a :: b :: c :: d :: rest => do
    let value ← scalar? [a, b, c, d]
    prepend value (basic rest)
  | '\\' :: 'U' :: a :: b :: c :: d :: e :: f :: g :: h :: rest => do
    let value ← scalar? [a, b, c, d, e, f, g, h]
    prepend value (basic rest)
  | '\\' :: letter :: rest => do
    let value ← escaped? letter
    prepend value (basic rest)
  | c :: rest =>
    if c = '\x22' then some ([], rest)
    else if isStringChar c && c != '\\' then prepend c (basic rest)
    else none

/-- The rest of a literal string and the text after it. -/
def literal : Reader (List Char)
  | [] => none
  | c :: rest =>
    if c = '\x27' then some ([], rest)
    else if isStringChar c then prepend c (literal rest)
    else none

/-- The quotes that still belong to a string of several lines after three quotes, and the text
after them: three quotes close it, but one or two may stand before those. -/
def closing (quote : Char) (rest : List Char) : List Char × List Char :=
  let more := (rest.take 2).takeWhile (· == quote)
  (more, rest.drop more.length)

/-- Whether a backslash before a text hides the line end: only blanks stand between. -/
def hidesLineEnd (rest : List Char) : Bool := (newline? (blank rest)).isSome

/-- The rest of a basic string of several lines and the text after it. Blanks and line ends are
left out while the text is hidden after a backslash at the end of a line. -/
def basicLines (hidden : Bool) : Reader (List Char)
  | [] => none
  | '\r' :: '\n' :: rest =>
    if hidden then basicLines true rest else prepend '\n' (basicLines false rest)
  | '\n' :: rest =>
    if hidden then basicLines true rest else prepend '\n' (basicLines false rest)
  | '\x22' :: '\x22' :: '\x22' :: rest => some (closing '\x22' rest)
  | '\\' :: 'u' :: a :: b :: c :: d :: rest => do
    let value ← scalar? [a, b, c, d]
    prepend value (basicLines false rest)
  | '\\' :: 'U' :: a :: b :: c :: d :: e :: f :: g :: h :: rest => do
    let value ← scalar? [a, b, c, d, e, f, g, h]
    prepend value (basicLines false rest)
  | '\\' :: letter :: rest =>
    if hidesLineEnd (letter :: rest) then basicLines true (letter :: rest)
    else do
      let value ← escaped? letter
      prepend value (basicLines false rest)
  | c :: rest =>
    if hidden && isBlank c then basicLines true rest
    else if isStringChar c && c != '\\' then prepend c (basicLines false rest)
    else none

/-- The rest of a literal string of several lines and the text after it. -/
def literalLines : Reader (List Char)
  | [] => none
  | '\r' :: '\n' :: rest => prepend '\n' (literalLines rest)
  | '\n' :: rest => prepend '\n' (literalLines rest)
  | '\x27' :: '\x27' :: '\x27' :: rest => some (closing '\x27' rest)
  | c :: rest => if isStringChar c then prepend c (literalLines rest) else none

/-- A string on one line, as a key may be. -/
def lineString? : Reader String
  | '\x22' :: rest => (basic rest).map fun (content, rest) => (String.ofList content, rest)
  | '\x27' :: rest => (literal rest).map fun (content, rest) => (String.ofList content, rest)
  | _ => none

/-- A string of any kind. A line end right after three opening quotes does not count. -/
def string? : Reader String
  | '\x22' :: '\x22' :: '\x22' :: rest =>
    (basicLines false ((newline? rest).getD rest)).map fun (content, rest) =>
      (String.ofList content, rest)
  | '\x27' :: '\x27' :: '\x27' :: rest =>
    (literalLines ((newline? rest).getD rest)).map fun (content, rest) =>
      (String.ofList content, rest)
  | text => lineString? text

end Honeypot.Toml
