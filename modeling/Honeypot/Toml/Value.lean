import Honeypot.Toml.Moment
import Honeypot.Toml.Table

/-!
# Keys and values

The right and left sides of TOML statements: dotted keys, scalars, arrays and inline tables.
Arrays and inline tables may stand in each other to a limited depth, and a dotted key has a
limited length.
-/

namespace Honeypot.Toml

/-- The least depth of arrays and inline tables, and the least length of a key, that is refused. -/
def nestingLimit : Nat := 80

/-- Whether a character may stand in a key without quotes. -/
def isBareKeyChar (c : Char) : Bool := c.isAlphanum || c == '_' || c == '-'

/-- One part of a key. -/
def simpleKey? (text : List Char) : Option (String × List Char) :=
  match text.takeWhile isBareKeyChar with
  | [] => lineString? text
  | bare => some (String.ofList bare, text.dropWhile isBareKeyChar)

/-- The parts of a dotted key, of which there are at most so many, and the text after the blanks
that follow it. -/
def keyParts : Nat → Reader (List String)
  | 0, _ => none
  | most + 1, text => do
    let (key, rest) ← simpleKey? (blank text)
    match blank rest with
    | '.' :: rest => do
      let (keys, rest) ← keyParts most rest
      some (key :: keys, rest)
    | rest => some ([key], rest)

/-- A dotted key as a path and the last key. -/
def dottedKey (text : List Char) : Option ((List String × String) × List Char) := do
  let (keys, rest) ← keyParts (nestingLimit - 1) text
  let key ← keys.getLast?
  some ((keys.dropLast, key), rest)

/-- A key and the sign after it. -/
def keyAndSign (text : List Char) : Option ((List String × String) × List Char) := do
  let (key, rest) ← dottedKey text
  some (key, blank (← expect '=' rest))

/-- A value that holds no others. -/
def scalar (text : List Char) : Option (Item × List Char) :=
  match text with
  | '\x22' :: _ | '\x27' :: _ => (string? text).map fun (text, rest) => (.string text, rest)
  | 't' :: 'r' :: 'u' :: 'e' :: rest => some (.boolean, rest)
  | 'f' :: 'a' :: 'l' :: 's' :: 'e' :: rest => some (.boolean, rest)
  | _ =>
    if startsMoment text then (moment? text).map fun (shown, rest) => (.moment shown, rest)
    else (number? text).map fun (number, rest) =>
      match number with
      | .integer n => (.integer n, rest)
      | .float => (.float, rest)

/-- The elements of an array up to its end, of which there are fewer than so many. -/
def elements (element : Reader Item) : Nat → Reader (List Item)
  | 0, _ => none
  | count + 1, text => do
    match ← between text with
    -- The end may come first, and so also after a last comma.
    | ']' :: rest => some ([], rest)
    | text => do
      let (first, rest) ← element text
      match ← between rest with
      | ',' :: rest => do
        let (more, rest) ← elements element count rest
        some (first :: more, rest)
      | ']' :: rest => some ([first], rest)
      | _ => none

/-- The statements of an inline table up to its end, of which there are fewer than so many, added
to a table. There is no comma after the last one. -/
def inlineEntries (value : Reader Item) : Nat → Table → Reader Table
  | 0, _, _ => none
  | count + 1, table, text => do
    let ((path, key), rest) ← keyAndSign text
    let (item, rest) ← value rest
    let table ← table.define path key item
    match blank rest with
    | ',' :: rest => inlineEntries value count table rest
    | '\x7d' :: rest => some (table, rest)
    | _ => none

/-- A value in which arrays and inline tables stand in each other to at most a depth. -/
def valueWithin : Nat → Reader Item
  | 0, text => scalar text
  | depth + 1, text =>
    match text with
    | '[' :: rest => do
      let (read, rest) ← elements (valueWithin depth) text.length rest
      some (.array read, rest)
    | '\x7b' :: rest =>
      match blank rest with
      | '\x7d' :: rest => some (.inline [], rest)
      | rest => do
        let (table, rest) ← inlineEntries (valueWithin depth) text.length [] rest
        some (.inline table, rest)
    | text => scalar text

/-- A value. -/
def anyValue (text : List Char) : Option (Item × List Char) :=
  valueWithin (nestingLimit - 1) text

end Honeypot.Toml
