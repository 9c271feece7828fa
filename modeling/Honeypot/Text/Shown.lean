import Honeypot.Text.Printable
import Honeypot.Text.Quoted

/-!
# Texts shown to an operator

A text between double quotes with everything that cannot be seen written as an escape: a letter
after a backslash, or the code point in braces.

## References

- [SPEC] `SPEC_FULL.md`: §9.1, Logging
-/

namespace Honeypot.Text

/-- A number in hexadecimal digits. -/
def hexadecimal (n : Nat) : List Char :=
  if n < 16 then [Quoted.hexDigit n]
  else hexadecimal (n / 16) ++ [Quoted.hexDigit (n % 16)]

/-- A character of a shown text. -/
def shownChar (c : Char) : List Char :=
  match c with
  | '\x22' => ['\\', '\x22']
  | '\\' => ['\\', '\\']
  | '\n' => ['\\', 'n']
  | '\r' => ['\\', 'r']
  | '\t' => ['\\', 't']
  | '\x00' => ['\\', '0']
  | c =>
    if isPrintable c then [c]
    else ['\\', 'u', '\x7b'] ++ hexadecimal c.toNat ++ ['\x7d']

/-- A text between double quotes. -/
def shown (text : String) : String :=
  String.ofList ('\x22' :: text.toList.flatMap shownChar ++ ['\x22'])

end Honeypot.Text
