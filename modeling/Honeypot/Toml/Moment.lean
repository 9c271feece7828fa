import Honeypot.Toml.Number

/-!
# Dates and times

A date, a time, or both with an offset from universal time. They are read to check that they exist
and kept as their canonical text.
-/

namespace Honeypot.Toml

/-- A number of exactly so many decimal digits. -/
def fixedDigits : Nat → Reader Nat
  | 0, text => some (0, text)
  | count + 1, c :: rest => do
    let d ← digit? 10 c
    let (n, rest) ← fixedDigits count rest
    some (d * 10 ^ count + n, rest)
  | _ + 1, [] => none

/-- A number of exactly so many decimal digits between two bounds. -/
def bounded (count least most : Nat) (text : List Char) : Option (Nat × List Char) := do
  let (n, rest) ← fixedDigits count text
  if least ≤ n ∧ n ≤ most then some (n, rest) else none

/-- A character that must stand at the beginning of a text. -/
def expect (c : Char) : List Char → Option (List Char)
  | first :: rest => if first = c then some rest else none
  | [] => none

/-- A number in decimal digits, with zeros before it up to a width. -/
def zeroPadded (width n : Nat) : String :=
  let shown := toString n
  String.ofList (List.replicate (width - shown.length) '0') ++ shown

/-- The number of days in a month. -/
def daysInMonth (year month : Nat) : Nat :=
  if month = 2 then
    if year % 4 = 0 ∧ (year % 100 ≠ 0 ∨ year % 400 = 0) then 29 else 28
  else if month = 4 ∨ month = 6 ∨ month = 9 ∨ month = 11 then 30
  else 31

/-- What follows the year and the dash of a date. -/
def dateAfter (year : Nat) (text : List Char) : Option (String × List Char) := do
  let (month, rest) ← bounded 2 1 12 text
  let rest ← expect '-' rest
  let (day, rest) ← bounded 2 1 (daysInMonth year month) rest
  some (zeroPadded 4 year ++ "-" ++ zeroPadded 2 month ++ "-" ++ zeroPadded 2 day, rest)

/-- The fraction of a second, if one follows: at most nine digits count, and zeros at its end are
not shown. -/
def secondFraction (text : List Char) : String × List Char :=
  match text with
  | '.' :: rest =>
    match rest.takeWhile Char.isDigit with
    | [] => ("", text)
    | read =>
      let shown := ((read.take 9).reverse.dropWhile (· == '0')).reverse
      (if shown = [] then "" else "." ++ String.ofList shown, rest.dropWhile Char.isDigit)
  | _ => ("", text)

/-- What follows the hour and the colon of a time. -/
def timeAfter (hour : Nat) (text : List Char) : Option (String × List Char) := do
  let (minute, rest) ← bounded 2 0 59 text
  let rest ← expect ':' rest
  let (second, rest) ← bounded 2 0 60 rest
  let (fraction, rest) := secondFraction rest
  some (zeroPadded 2 hour ++ ":" ++ zeroPadded 2 minute ++ ":" ++ zeroPadded 2 second ++ fraction,
    rest)

/-- The hour and the colon of a time. -/
def hourAndColon (text : List Char) : Option (Nat × List Char) := do
  let (hour, rest) ← bounded 2 0 23 text
  some (hour, ← expect ':' rest)

/-- An offset from universal time, if one follows. No offset has a minus before zero. -/
def offset : Reader String
  | c :: rest =>
    if c = 'Z' ∨ c = 'z' then some ("Z", rest)
    else if c = '+' ∨ c = '-' then do
      let (hours, rest) ← hourAndColon rest
      let (minutes, rest) ← bounded 2 0 59 rest
      let shownSign := if c = '-' ∧ 0 < hours * 60 + minutes then "-" else "+"
      some (shownSign ++ zeroPadded 2 hours ++ ":" ++ zeroPadded 2 minutes, rest)
    else some ("", c :: rest)
  | [] => some ("", [])

/-- The time after a date, if one follows. -/
def timeOfDate (text : List Char) : Option (String × List Char) :=
  match text with
  | c :: rest =>
    if c = 'T' ∨ c = 't' ∨ c = ' ' then
      match hourAndColon rest with
      | some (hour, rest) => do
        let (time, rest) ← timeAfter hour rest
        let (shift, rest) ← offset rest
        some ("T" ++ time ++ shift, rest)
      -- A blank after a date may just be a blank.
      | none => some ("", text)
    else some ("", text)
  | [] => some ("", [])

/-- The year and the dash of a date. -/
def yearAndDash (text : List Char) : Option (Nat × List Char) := do
  let (year, rest) ← fixedDigits 4 text
  some (year, ← expect '-' rest)

/-- Whether a text begins like a date or a time. -/
def startsMoment (text : List Char) : Bool :=
  (yearAndDash text).isSome || (hourAndColon text).isSome

/-- A date or time in its canonical text. -/
def moment? (text : List Char) : Option (String × List Char) :=
  match yearAndDash text with
  | some (year, rest) => do
    let (date, rest) ← dateAfter year rest
    let (time, rest) ← timeOfDate rest
    some (date ++ time, rest)
  | none => do
    let (hour, rest) ← hourAndColon text
    timeAfter hour rest

end Honeypot.Toml
