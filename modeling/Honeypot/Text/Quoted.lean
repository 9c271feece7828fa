import Honeypot.Text.Utf8

/-!
# Quoted strings

A text between double quotes, as JSON writes it: quotes, backslashes and characters below U+0020
are escaped, everything else stands as it is. The writer puts a string out in parts, each escape
being one of its own, so the parts are what is defined here; `Quoted.encode` joins them.
-/

namespace Honeypot.Text.Quoted

/-- The digit that stands for a number below sixteen. -/
def hexDigit (n : Nat) : Char :=
  if n < 10 then Char.ofNat (0x30 + n) else Char.ofNat (0x57 + n)

/-- How a character is escaped, if it is. -/
def escape? (c : Char) : Option (List Char) :=
  match c with
  | '\x22' => some ['\\', '\x22']
  | '\\' => some ['\\', '\\']
  | '\x08' => some ['\\', 'b']
  | '\x0C' => some ['\\', 'f']
  | '\n' => some ['\\', 'n']
  | '\r' => some ['\\', 'r']
  | '\t' => some ['\\', 't']
  | c =>
    if c.toNat < 0x20 then
      some ['\\', 'u', '0', '0', hexDigit (c.toNat / 16), hexDigit (c.toNat % 16)]
    else none

/-- A run of plain characters, given last one first, as a part of its own if there are any. -/
def plain (run : List Char) : List (List Char) :=
  if run = [] then [] else [run.reverse]

/-- The parts of a text after a run of plain characters, given last one first. -/
def partsAfter (run : List Char) : List Char → List (List Char)
  | [] => plain run
  | c :: rest =>
    match escape? c with
    | some escaped => plain run ++ escaped :: partsAfter [] rest
    | none => partsAfter (c :: run) rest

/-- The parts of a quoted string: the quotes, the escapes and the runs between them. -/
def parts (text : List Char) : List (List Char) :=
  ['\x22'] :: partsAfter [] text ++ [['\x22']]

/-- A text as a quoted string. -/
def encode (text : List Char) : List Char :=
  (parts text).flatten

end Honeypot.Text.Quoted
