import Honeypot.Toml.Quoted

/-!
# Numbers

Integers of 64 bits in four bases, and floating-point numbers. Digits may be separated by single
underscores. A number is read to check that it is well-formed and in range; of a floating-point
number nothing else is kept.
-/

namespace Honeypot.Toml

/-- A number. -/
inductive Number where
  | integer (value : Int)
  | float
deriving DecidableEq, Repr

/-- Further digits, each of them perhaps after an underscore, and the text after them. -/
def moreDigits (base : Nat) : Reader (List Nat)
  | [] => some ([], [])
  | ['_'] => none
  | c :: next :: rest =>
    if c = '_' then do
      let d ← digit? base next
      let (digits, rest) ← moreDigits base rest
      some (d :: digits, rest)
    else match digit? base c with
      | some d => (moreDigits base (next :: rest)).map fun (digits, rest) => (d :: digits, rest)
      | none => some ([], c :: next :: rest)
  | [c] =>
    match digit? base c with
    | some d => some ([d], [])
    | none => some ([], [c])

/-- A digit and further digits. -/
def digits (base : Nat) : Reader (List Nat)
  | [] => none
  | c :: rest => do
    let d ← digit? base c
    let (more, rest) ← moreDigits base rest
    some (d :: more, rest)

/-- The digits of a decimal number: a zero at the beginning stands alone. -/
def decimalDigits : Reader (List Nat)
  | '0' :: rest => some ([0], rest)
  | text => digits 10 text

/-- The number that digits denote. -/
def value (base : Nat) (digits : List Nat) : Nat :=
  digits.foldl (fun n d => n * base + d) 0

/-- Whether an integer has 64 bits. -/
def inRange (n : Int) : Bool :=
  Int64.minValue.toInt ≤ n && n ≤ Int64.maxValue.toInt

/-- Whether a decimal number is too large for a finite floating-point number of 64 bits: it is at
least halfway from the greatest one to the next power of two. -/
def overflows (mantissa : Nat) (exponent : Int) : Bool :=
  let limit := Nat.pow 2 1024 - Nat.pow 2 970
  -- The number of digits before the point: far from the limit it decides by itself.
  let size := (toString mantissa).length + exponent
  if mantissa = 0 || size < 300 then false
  else if 400 < size then true
  else if 0 ≤ exponent then limit ≤ mantissa * Nat.pow 10 exponent.toNat
  else limit * Nat.pow 10 (-exponent).toNat ≤ mantissa

/-- A sign and the text after it: true for a minus. -/
def sign : List Char → Bool × List Char
  | '-' :: rest => (true, rest)
  | '+' :: rest => (false, rest)
  | text => (false, text)

/-- An exponent, if one follows. -/
def exponent? : Reader (Option Int)
  | c :: rest =>
    if c = 'e' ∨ c = 'E' then do
      let (negative, rest) := sign rest
      let (read, rest) ← digits 10 rest
      let n : Int := value 10 read
      some (some (if negative then -n else n), rest)
    else some (none, c :: rest)
  | [] => some (none, [])

/-- The fraction of a number, if one follows. -/
def fraction? : Reader (Option (List Nat))
  | '.' :: rest => (digits 10 rest).map fun (read, rest) => (some read, rest)
  | text => some (none, text)

/-- What follows the sign of a decimal number. Only a positive number can be too large. -/
def decimal (negative : Bool) (text : List Char) : Option (Number × List Char) := do
  let (whole, rest) ← decimalDigits text
  let (fraction, rest) ← fraction? rest
  let (exponent, rest) ← exponent? rest
  if fraction.isNone ∧ exponent.isNone then
    let n : Int := value 10 whole
    let n := if negative then -n else n
    if inRange n then some (.integer n, rest) else none
  else
    let places := fraction.getD []
    let mantissa := value 10 (whole ++ places)
    if !negative && overflows mantissa (exponent.getD 0 - places.length) then none
    else some (.float, rest)

/-- A positive integer in a base other than ten. -/
def based (base : Nat) (text : List Char) : Option (Number × List Char) := do
  let (read, rest) ← digits base text
  let n := value base read
  if inRange n then some (.integer n, rest) else none

/-- A number. -/
def number? : Reader Number
  | '0' :: 'x' :: rest => based 16 rest
  | '0' :: 'o' :: rest => based 8 rest
  | '0' :: 'b' :: rest => based 2 rest
  | text =>
    match sign text with
    | (_, 'i' :: 'n' :: 'f' :: rest) => some (.float, rest)
    | (_, 'n' :: 'a' :: 'n' :: rest) => some (.float, rest)
    | (negative, rest) => decimal negative rest

end Honeypot.Toml
