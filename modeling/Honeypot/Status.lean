/-!
# Exit statuses

What a command or a session ends with: a signed number of 32 bits.

## References

- [SPEC] `SPEC_FULL.md`: §6, External Interfaces
-/

namespace Honeypot

/-- An exit status. -/
abbrev Status := Int32

namespace Status

/-- The status of a command that does not exist ([SPEC] §6). -/
def unknownCommand : Status := 127

/-- The status of a command that crashed: 128 and the number of the segmentation signal. -/
def crashed : Status := 139

/-- A status in decimal digits. -/
def text (status : Status) : String := toString status.toInt

/-- The number that decimal digits denote; other characters, or none at all, denote nothing. -/
def ofDigits? (digits : List Char) : Option Nat :=
  if digits ≠ [] ∧ digits.all Char.isDigit then
    some (digits.foldl (fun n c => n * 10 + (c.toNat - 0x30)) 0)
  else none

/-- The status that a text denotes: an optional sign and decimal digits, in the range of a
status. -/
def ofText? (text : String) : Option Status :=
  let number? : Option Int := match text.toList with
    | '-' :: digits => (ofDigits? digits).map fun n => -(n : Int)
    | '+' :: digits => (ofDigits? digits).map fun n => (n : Int)
    | digits => (ofDigits? digits).map fun n => (n : Int)
  number?.bind fun n =>
    if Int32.minValue.toInt ≤ n ∧ n ≤ Int32.maxValue.toInt then some (Int32.ofInt n) else none

end Status

end Honeypot
