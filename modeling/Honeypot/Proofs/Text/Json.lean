import Mathlib.Data.List.Forall2
import Honeypot.Proofs.Text.Numeral
import Honeypot.Proofs.Text.Quoted
import Honeypot.Toml.Blank

/-!
# JSON texts read

A reader of JSON texts, as strict as the format is: no control character stands in a string, no
digit after a leading zero, and no comma after the last element. What a text may stand in front of
does not change how it is read, as long as a number does not go on there.

* `Json`, `Json.parse`: values, and the value of a text.
* `Json.Reads`: texts that are read as a value wherever they stand.
* `Json.reads_string`, `Json.reads_numeral`, `Json.reads_array`, `Json.reads_object`: such texts,
  from the texts of their parts.
-/

namespace Honeypot

open Toml (Reader)
open Text.Quoted (hexValue? escaped? preceded written hexDigit)

/-- A JSON value. -/
inductive Json where
  | null
  | bool (value : Bool)
  /-- The decimal number `mantissa * 10 ^ exponent`. -/
  | number (mantissa exponent : Int)
  | string (text : String)
  | array (elements : List Json)
  /-- Named values in the order in which they stand. -/
  | object (fields : List (String × Json))

namespace Json

/-! ## The reader -/

/-- Whether a character may stand between the parts of a text. -/
def isBlank (c : Char) : Bool :=
  c == ' ' || c == '\n' || c == '\r' || c == '\t'

/-- A text without the blanks at its beginning. -/
def blank (text : List Char) : List Char := text.dropWhile isBlank

/-- The number of four hexadecimal digits. -/
def unit? (digits : List Char) : Option Nat :=
  (digits.mapM hexValue?).map fun values => values.foldl (· * 16 + ·) 0

/-- Whether a number is the first one of a pair that stands for a character. -/
def isHigh (unit : Nat) : Bool := 0xD800 ≤ unit && unit < 0xDC00

/-- Whether a number is the second one of a pair that stands for a character. -/
def isLow (unit : Nat) : Bool := 0xDC00 ≤ unit && unit < 0xE000

/-- The character that a pair of numbers stands for. -/
def paired (high low : Nat) : Char :=
  Char.ofNat (0x10000 + (high - 0xD800) * 0x400 + (low - 0xDC00))

/-- The characters of a string after its opening quote. -/
def quoted : Reader (List Char)
  | [] => none
  | '\\' :: 'u' :: a :: b :: c :: d :: rest =>
    (unit? [a, b, c, d]).bind fun high =>
      if isHigh high then
        match rest with
        | '\\' :: 'u' :: e :: f :: g :: h :: rest =>
          (unit? [e, f, g, h]).bind fun low =>
            if isLow low then (quoted rest).map (preceded (paired high low)) else none
        | _ => none
      else if isLow high then none
      else (quoted rest).map (preceded (Char.ofNat high))
  | '\\' :: letter :: rest => (escaped? letter).bind fun c => (quoted rest).map (preceded c)
  | c :: rest =>
    if c = '\x22' then some ([], rest)
    else if c.toNat < 0x20 ∨ c = '\\' then none
    else (quoted rest).map (preceded c)

/-- Digits, of which there is at least one. -/
def digits (text : List Char) : Option (List Char × List Char) :=
  match text.takeWhile Char.isDigit with
  | [] => none
  | found => some (found, text.dropWhile Char.isDigit)

/-- The digits of a number before its point. A zero at the beginning stands alone. -/
def whole (text : List Char) : Option (List Char × List Char) :=
  (digits text).bind fun (found, rest) =>
    if found.head? = some '0' ∧ found ≠ ['0'] then none else some (found, rest)

/-- The digits of a number after its point, if it has one. -/
def fraction : Reader (List Char)
  | '.' :: rest => digits rest
  | rest => some ([], rest)

/-- The exponent of a number, if it has one. -/
def exponent : Reader Int
  | [] => some (0, [])
  | c :: rest =>
    if c = 'e' ∨ c = 'E' then
      match rest with
      | '-' :: rest => (digits rest).map fun (found, rest) => (-Nat.ofDigitChars 10 found 0, rest)
      | '+' :: rest => (digits rest).map fun (found, rest) => (Nat.ofDigitChars 10 found 0, rest)
      | rest => (digits rest).map fun (found, rest) => (Nat.ofDigitChars 10 found 0, rest)
    else some (0, c :: rest)

/-- A number without its sign. -/
def magnitude (text : List Char) : Option ((Int × Int) × List Char) :=
  (whole text).bind fun (found, rest) =>
    (fraction rest).bind fun (places, rest) =>
      (exponent rest).map fun (power, rest) =>
        ((Nat.ofDigitChars 10 (found ++ places) 0, power - places.length), rest)

/-- A number. -/
def numeral : Reader Json
  | '-' :: rest => (magnitude rest).map fun (read, rest) => (.number (-read.1) read.2, rest)
  | rest => (magnitude rest).map fun (read, rest) => (.number read.1 read.2, rest)

/-- A value that holds no others. -/
def scalar : Reader Json
  | 'n' :: 'u' :: 'l' :: 'l' :: rest => some (.null, rest)
  | 't' :: 'r' :: 'u' :: 'e' :: rest => some (.bool true, rest)
  | 'f' :: 'a' :: 'l' :: 's' :: 'e' :: rest => some (.bool false, rest)
  | '\x22' :: rest => (quoted rest).map fun (text, rest) => (.string (String.ofList text), rest)
  | text => numeral text

/-- Elements with commas between them up to a closing bracket, fewer than so many and at least
one. -/
def row {α : Type} (close : Char) (element : Reader α) : Nat → Reader (List α)
  | 0, _ => none
  | count + 1, text =>
    (element text).bind fun (first, rest) =>
      match blank rest with
      | [] => none
      | c :: rest =>
        if c = ',' then (row close element count rest).map fun (more, rest) => (first :: more, rest)
        else if c = close then some ([first], rest)
        else none

/-- What stands between two brackets, after the first one. -/
def enclosed {α : Type} (close : Char) (element : Reader α) (text : List Char) :
    Option (List α × List Char) :=
  if (blank text).head? = some close then some ([], (blank text).tail)
  else row close element text.length text

/-- The text after a character, before which blanks may stand. -/
def expect (c : Char) (text : List Char) : Option (List Char) :=
  if (blank text).head? = some c then some (blank text).tail else none

/-- A name with its value. -/
def member (value : Reader Json) (text : List Char) : Option ((String × Json) × List Char) :=
  (expect '\x22' text).bind fun rest =>
    (quoted rest).bind fun (name, rest) =>
      (expect ':' rest).bind fun rest =>
        (value rest).map fun (read, rest) => ((String.ofList name, read), rest)

/-- A value in which arrays and objects stand in each other to at most a depth. -/
def valueWithin : Nat → Reader Json
  | 0, text => scalar (blank text)
  | depth + 1, text =>
    match blank text with
    | '[' :: rest =>
      (enclosed ']' (valueWithin depth) rest).map fun (elements, rest) => (.array elements, rest)
    | '\x7b' :: rest =>
      (enclosed '\x7d' (member (valueWithin depth)) rest).map fun (fields, rest) =>
        (.object fields, rest)
    | text => scalar text

/-- The least depth of arrays and objects that is refused. -/
def nestingLimit : Nat := 128

/-- The value of a text. -/
def parse (text : List Char) : Option Json :=
  (valueWithin (nestingLimit - 1) text).bind fun (value, rest) =>
    if blank rest = [] then some value else none

/-! ## Texts that are read wherever they stand -/

/-- Whether a number may end before a text. -/
def Stops (rest : List Char) : Prop :=
  ∀ c ∈ rest.head?, c.isDigit = false ∧ c ≠ '.' ∧ c ≠ 'e' ∧ c ≠ 'E'

/-- Whether a text is read as a value before every text where a number may end. -/
def Reads {α : Type} (reader : Reader α) (text : List Char) (value : α) : Prop :=
  ∀ rest, Stops rest → reader (text ++ rest) = some (value, rest)

theorem stops_cons {c : Char} (h : c.isDigit = false ∧ c ≠ '.' ∧ c ≠ 'e' ∧ c ≠ 'E')
    (rest : List Char) : Stops (c :: rest) := by
  intro other hother
  obtain rfl : c = other := Option.some.inj hother
  exact h

/-- A text that is read alone is read as its value. -/
theorem parse_of_reads {text : List Char} {value : Json}
    (h : Reads (valueWithin (nestingLimit - 1)) text value) : parse text = some value := by
  have hread := h [] (by simp [Stops])
  rw [List.append_nil] at hread
  rw [parse, hread]
  rfl

theorem blank_cons {c : Char} (h : isBlank c = false) (rest : List Char) :
    blank (c :: rest) = c :: rest := by
  rw [blank, List.dropWhile_cons_of_neg (by simp [h])]

theorem expect_cons {c : Char} (h : isBlank c = false) (rest : List Char) :
    expect c (c :: rest) = some rest := by
  rw [expect, blank_cons h]
  exact if_pos rfl

/-- A text that opens no bracket holds no other values. -/
theorem valueWithin_cons {c : Char} (hblank : isBlank c = false) (harray : c ≠ '[')
    (hobject : c ≠ '\x7b') (depth : Nat) (rest : List Char) :
    valueWithin depth (c :: rest) = scalar (c :: rest) := by
  cases depth with
  | zero => rw [valueWithin, blank_cons hblank]
  | succ depth =>
    rw [valueWithin, blank_cons hblank]
    split
    · next heq => exact absurd (List.cons.inj heq).1 harray
    · next heq => exact absurd (List.cons.inj heq).1 hobject
    · rfl

/-! ### Strings -/

/-- The number of a control character is written with four digits, and is no part of a pair. -/
theorem unit?_hexDigit : ∀ n < 0x20,
    unit? ['0', '0', hexDigit (n / 16), hexDigit (n % 16)] = some n ∧ isHigh n = false ∧
      isLow n = false := by
  decide

/-- A letter after a backslash is read as the character that it stands for. -/
theorem quoted_letter {letter c : Char} (h : escaped? letter = some c) (rest : List Char) :
    quoted ('\\' :: letter :: rest) = (quoted rest).map (preceded c) := by
  rw [quoted, h, Option.bind_some]
  rintro _ _ _ _ _ rfl
  simp [escaped?] at h

/-- A control character is read from its number. -/
theorem quoted_control {c : Char} (h : c.toNat < 0x20) (rest : List Char) :
    quoted ('\\' :: 'u' :: '0' :: '0' :: hexDigit (c.toNat / 16) :: hexDigit (c.toNat % 16) ::
      rest) = (quoted rest).map (preceded c) := by
  obtain ⟨hunit, hhigh, hlow⟩ := unit?_hexDigit c.toNat h
  rw [quoted, hunit, Option.bind_some, hhigh, hlow, Char.ofNat_toNat]
  rfl

/-- A character that is neither a quote nor a backslash nor a control character is read as it is. -/
theorem quoted_plain {c : Char} (hquote : c ≠ '\x22') (hbackslash : c ≠ '\\')
    (hcontrol : ¬ c.toNat < 0x20) (rest : List Char) :
    quoted (c :: rest) = (quoted rest).map (preceded c) := by
  rw [quoted, if_neg hquote, if_neg (not_or.2 ⟨hcontrol, hbackslash⟩)]
  · rintro _ _ _ _ _ rfl
    exact absurd rfl hbackslash
  · rintro _ _ rfl
    exact absurd rfl hbackslash

/-- A quote ends a string. -/
theorem quoted_quote (rest : List Char) : quoted ('\x22' :: rest) = some ([], rest) := by
  rw [quoted, if_pos rfl]
  · rintro _ _ _ _ _ ⟨⟩
  · rintro _ _ ⟨⟩

/-- A character is read as it was written. -/
theorem quoted_written_append (c : Char) (rest : List Char) :
    quoted (written c ++ rest) = (quoted rest).map (preceded c) := by
  rcases Text.Quoted.written_cases c with ⟨letter, hletter, -, hwritten⟩ | ⟨hcontrol, hwritten⟩ |
    ⟨hquote, hbackslash, hcontrol, hwritten⟩
  · rw [hwritten]
    exact quoted_letter hletter rest
  · rw [hwritten]
    exact quoted_control hcontrol rest
  · rw [hwritten]
    exact quoted_plain hquote hbackslash hcontrol rest

/-- The characters of a quoted text are read as the text. -/
theorem quoted_flatMap_written (text rest : List Char) :
    quoted (text.flatMap written ++ '\x22' :: rest) = some (text, rest) := by
  induction text with
  | nil => exact quoted_quote rest
  | cons c text ih =>
    rw [List.flatMap_cons, List.append_assoc, quoted_written_append, ih]
    rfl

/-- A quoted text is read as a string. -/
theorem reads_string (text : String) (depth : Nat) :
    Reads (valueWithin depth) (Text.Quoted.encode text.toList) (.string text) := by
  intro rest _
  rw [Text.Quoted.encode_eq, List.cons_append, valueWithin_cons rfl (by decide) (by decide),
    List.append_assoc, List.singleton_append, scalar, quoted_flatMap_written, Option.map_some]
  dsimp only
  rw [String.ofList_toList]

/-- A pair of numbers stands for one character, and a control character cannot stand for itself. -/
example : quoted "\\ud83d\\ude00\"".toList = some (['😀'], []) ∧ quoted "\n\"".toList = none := by
  decide +kernel

/-! ### Numbers -/

/-- Digits are read up to what is no digit. -/
theorem digits_append {found rest : List Char} (h : IsDigits found)
    (hrest : ∀ c ∈ rest.head?, c.isDigit = false) :
    digits (found ++ rest) = some (found, rest) := by
  have hnone : rest.takeWhile Char.isDigit = [] ∧ rest.dropWhile Char.isDigit = rest := by
    cases rest with
    | nil => exact ⟨rfl, rfl⟩
    | cons c rest => simp [hrest c rfl]
  rw [digits, List.takeWhile_append_of_pos h.2, List.dropWhile_append_of_pos h.2, hnone.1, hnone.2,
    List.append_nil]
  cases found with
  | nil => exact absurd rfl h.1
  | cons c found => rfl

/-- The places of a number are read up to what is neither a digit nor a point. -/
theorem fraction_append {text places rest : List Char} (h : Places text places)
    (hrest : ∀ c ∈ rest.head?, c.isDigit = false ∧ c ≠ '.') :
    fraction (text ++ rest) = some (places, rest) := by
  cases h with
  | none =>
    rw [List.nil_append]
    unfold fraction
    split
    · exact absurd rfl (hrest '.' rfl).2
    · rfl
  | some h => exact digits_append h fun c hc => (hrest c hc).1

/-- A number that ends has no power of ten. -/
theorem exponent_of_stops {rest : List Char} (h : Stops rest) :
    exponent rest = some (0, rest) := by
  cases rest with
  | nil => rfl
  | cons c rest =>
    obtain ⟨-, -, hsmall, hlarge⟩ := h c rfl
    unfold exponent
    exact if_neg (not_or.2 ⟨hsmall, hlarge⟩)

/-- A power of ten is read up to where a number may end. -/
theorem exponent_append {text rest : List Char} {power : Int} (h : Power text power)
    (hrest : Stops rest) : exponent (text ++ rest) = some (power, rest) := by
  have hdigits {found : List Char} (h : IsDigits found) :
      digits (found ++ rest) = some (found, rest) :=
    digits_append h fun c hc => (hrest c hc).1
  cases h with
  | none => exact exponent_of_stops hrest
  | positive hletter h =>
    rw [List.cons_append, List.cons_append]
    unfold exponent
    dsimp only
    rw [if_pos hletter]
    exact congrArg (Option.map _) (hdigits h)
  | negative hletter h =>
    rw [List.cons_append, List.cons_append]
    unfold exponent
    dsimp only
    rw [if_pos hletter]
    exact congrArg (Option.map _) (hdigits h)
  | unsigned hletter h =>
    have hread := hdigits h
    rw [List.cons_append]
    unfold exponent
    dsimp only
    rw [if_pos hletter]
    -- The first digit is no sign.
    split
    · next heq => simp [heq, digits] at hread
    · next heq => simp [heq, digits] at hread
    · rw [hread]
      rfl

/-- After the places of a number stands the letter of its power of ten, or the number ends. -/
theorem head?_exponent_append {text rest : List Char} {power : Int} (h : Power text power)
    (hrest : Stops rest) : ∀ c ∈ (text ++ rest).head?, c.isDigit = false ∧ c ≠ '.' := by
  have hletter {letter : Char} (h : letter = 'e' ∨ letter = 'E') :
      ∀ c ∈ some letter, c.isDigit = false ∧ c ≠ '.' := by
    rintro _ ⟨⟩
    rcases h with rfl | rfl <;> decide
  cases h with
  | none => exact fun c hc => ⟨(hrest c hc).1, (hrest c hc).2.1⟩
  | unsigned h _ => exact hletter h
  | positive h _ => exact hletter h
  | negative h _ => exact hletter h

/-- After the digits before the point of a number stands no further digit. -/
theorem head?_fraction_append {text places rest : List Char} (h : Places text places)
    (hrest : ∀ c ∈ rest.head?, c.isDigit = false ∧ c ≠ '.') :
    ∀ c ∈ (text ++ rest).head?, c.isDigit = false := by
  cases h with
  | none => exact fun c hc => (hrest c hc).1
  | some _ =>
    rintro _ ⟨⟩
    rfl

/-- A number without its sign is read up to where it may end. -/
theorem magnitude_append {text rest : List Char} {mantissa power : Int}
    (h : Magnitude text mantissa power) (hrest : Stops rest) :
    magnitude (text ++ rest) = some ((mantissa, power), rest) := by
  obtain @⟨first, _, _, _, _, hwhole, hplaces, hpower⟩ := h
  have hafter := head?_exponent_append hpower hrest
  have hzero : ¬ (first.head? = some '0' ∧ first ≠ ['0']) := fun h => h.2 (hwhole.2 h.1)
  rw [List.append_assoc, List.append_assoc, magnitude, whole,
    digits_append hwhole.1 (head?_fraction_append hplaces hafter), Option.bind_some]
  dsimp only
  rw [if_neg hzero, Option.bind_some, fraction_append hplaces hafter, Option.bind_some,
    exponent_append hpower hrest]
  rfl

/-- A number without its sign begins with a digit. -/
theorem exists_cons_of_magnitude {text : List Char} {mantissa power : Int}
    (h : Magnitude text mantissa power) : ∃ c rest, text = c :: rest ∧ c.isDigit := by
  obtain ⟨hwhole, -, -⟩ := h
  obtain ⟨c, more, rfl⟩ := List.exists_cons_of_ne_nil hwhole.1.1
  exact ⟨c, _, rfl, hwhole.1.2 c List.mem_cons_self⟩

/-- A text that begins with a digit or a sign is read as a number. -/
theorem valueWithin_eq_numeral {c : Char} (h : c.isDigit ∨ c = '-') (depth : Nat)
    (rest : List Char) : valueWithin depth (c :: rest) = numeral (c :: rest) := by
  have hne {other : Char} (hother : other.isDigit = false ∧ other ≠ '-') : c ≠ other := by
    rintro rfl
    rcases h with hdigit | rfl
    · simp [hother.1] at hdigit
    · exact hother.2 rfl
  have hblank : isBlank c = false := by
    unfold isBlank
    rw [beq_false_of_ne (hne (by decide)), beq_false_of_ne (hne (by decide)),
      beq_false_of_ne (hne (by decide)), beq_false_of_ne (hne (by decide))]
    rfl
  -- Neither a bracket nor a quote nor the letter of a literal begins a number.
  rw [valueWithin_cons hblank (hne (by decide)) (hne (by decide))]
  unfold scalar
  split
  · next heq => exact absurd (List.cons.inj heq).1 (hne (by decide))
  · next heq => exact absurd (List.cons.inj heq).1 (hne (by decide))
  · next heq => exact absurd (List.cons.inj heq).1 (hne (by decide))
  · next heq => exact absurd (List.cons.inj heq).1 (hne (by decide))
  · rfl

/-- The text of a number is read as the number. -/
theorem reads_numeral {text : List Char} {mantissa power : Int}
    (h : Numeral text mantissa power) (depth : Nat) :
    Reads (valueWithin depth) text (.number mantissa power) := by
  intro rest hrest
  cases h with
  | positive h =>
    have hread := magnitude_append h hrest
    -- The first character is a digit, which excludes the branch of the sign.
    obtain ⟨c, more, rfl, hc⟩ := exists_cons_of_magnitude h
    rw [List.cons_append] at hread ⊢
    rw [valueWithin_eq_numeral (.inl hc)]
    unfold numeral
    split
    · next heq =>
      rw [(List.cons.inj heq).1] at hc
      exact absurd hc (by decide)
    · rw [hread]
      rfl
  | negative h =>
    rw [List.cons_append, valueWithin_eq_numeral (.inr rfl), numeral, magnitude_append h hrest]
    rfl

/-! ### Arrays and objects -/

/-- No value begins with the bracket that ends an array. -/
theorem valueWithin_of_close (depth : Nat) {text : List Char}
    (h : (blank text).head? = some ']') : valueWithin depth text = none := by
  obtain ⟨rest, hblank⟩ := List.head?_eq_some_iff.1 h
  cases depth with
  | zero =>
    rw [valueWithin, hblank]
    rfl
  | succ depth =>
    rw [valueWithin, hblank]
    rfl

/-- No name begins with the bracket that ends an object. -/
theorem member_of_close (value : Reader Json) {text : List Char}
    (h : (blank text).head? = some '\x7d') : member value text = none := by
  rw [member, expect, h, if_neg (by decide)]
  rfl

/-- A bracket that ends an array or an object. -/
def IsClose (c : Char) : Prop := c = ']' ∨ c = '\x7d'

section Rows

variable {α : Type} {element : Reader α} {texts : List (List Char)} {values : List α} {close : Char}

theorem stops_close (h : IsClose close) (rest : List Char) : Stops (close :: rest) := by
  rcases h with rfl | rfl
  · exact stops_cons (by decide) rest
  · exact stops_cons (by decide) rest

theorem blank_close (h : IsClose close) (rest : List Char) :
    blank (close :: rest) = close :: rest := by
  rcases h with rfl | rfl
  · exact blank_cons rfl rest
  · exact blank_cons rfl rest

/-- Elements with commas between them are read one after the other. -/
theorem row_intercalate (hclose : IsClose close) (h : List.Forall₂ (Reads element) texts values)
    (hne : texts ≠ []) {count : Nat} (hcount : texts.length ≤ count) (rest : List Char) :
    row close element count (List.intercalate [','] texts ++ close :: rest) =
      some (values, rest) := by
  -- The last element stands before the bracket, every other one before a comma.
  induction h generalizing count with
  | nil => exact absurd rfl hne
  | @cons text value texts values hread hreads ih =>
    obtain ⟨count, rfl⟩ := Nat.exists_eq_add_one.2 (Nat.lt_of_lt_of_le (Nat.succ_pos _) hcount)
    by_cases hlast : texts = []
    · subst hlast
      obtain rfl := List.forall₂_nil_left_iff.1 hreads
      have hcomma : close ≠ ',' := by rcases hclose with rfl | rfl <;> decide
      rw [List.intercalate_singleton, row, hread _ (stops_close hclose rest), Option.bind_some]
      dsimp only
      rw [blank_close hclose]
      dsimp only
      rw [if_neg hcomma, if_pos rfl]
    · rw [List.intercalate_cons_of_ne_nil hlast, List.append_assoc, List.append_assoc, row,
        List.singleton_append, hread _ (stops_cons (by decide) _), Option.bind_some]
      dsimp only
      rw [blank_cons rfl]
      dsimp only
      rw [if_pos rfl, ih hlast (Nat.le_of_succ_le_succ hcount)]
      rfl

/-- There are no more elements than characters, the last bracket included. -/
theorem length_le_length_intercalate (texts : List (List Char)) :
    texts.length ≤ (List.intercalate [','] texts).length + 1 := by
  induction texts with
  | nil => exact Nat.zero_le _
  | cons text texts ih =>
    by_cases hlast : texts = []
    · subst hlast
      exact Nat.le_add_left _ _
    · rw [List.intercalate_cons_of_ne_nil hlast]
      simp only [List.length_append, List.length_cons, List.length_nil] at ih ⊢
      omega

/-- What stands between two brackets is read up to the second one. -/
theorem enclosed_intercalate (hclose : IsClose close)
    (helement : ∀ text, (blank text).head? = some close → element text = none)
    (h : List.Forall₂ (Reads element) texts values) (rest : List Char) :
    enclosed close element (List.intercalate [','] texts ++ close :: rest) =
      some (values, rest) := by
  by_cases hne : texts = []
  · subst hne
    obtain rfl := List.forall₂_nil_left_iff.1 h
    rw [List.intercalate_nil, List.nil_append, enclosed, blank_close hclose]
    exact if_pos rfl
  · have hcount : texts.length ≤ (List.intercalate [','] texts ++ close :: rest).length := by
      have := length_le_length_intercalate texts
      rw [List.length_append, List.length_cons]
      omega
    have hrow := row_intercalate hclose h hne hcount rest
    -- An element is read first, so the text does not begin with the second bracket.
    have hhead : (blank (List.intercalate [','] texts ++ close :: rest)).head? ≠ some close := by
      intro hhead
      obtain ⟨count, hlength⟩ := Nat.exists_eq_add_one.2
        (Nat.lt_of_lt_of_le (List.length_pos_iff.2 hne) hcount)
      rw [hlength, row, helement _ hhead] at hrow
      simp at hrow
    rw [enclosed, if_neg hhead, hrow]

end Rows

variable {depth : Nat}

/-- Values with commas between them and brackets around them are read as an array. -/
theorem reads_array {texts : List (List Char)} {values : List Json}
    (h : List.Forall₂ (Reads (valueWithin depth)) texts values) :
    Reads (valueWithin (depth + 1)) ('[' :: (List.intercalate [','] texts ++ [']']))
      (.array values) := by
  intro rest _
  have hopen (rest : List Char) : valueWithin (depth + 1) ('[' :: rest) =
      (enclosed ']' (valueWithin depth) rest).map fun read => (.array read.1, read.2) := by
    rw [valueWithin, blank_cons rfl]
    rfl
  rw [List.cons_append, hopen, List.append_assoc, List.singleton_append,
    enclosed_intercalate (.inl rfl) (fun _ => valueWithin_of_close depth) h]
  rfl

/-- Blanks may stand between the elements of an array, but no comma after the last one. -/
example : (parse " [ 1 , true ] ".toList).isSome ∧ (parse "[1,]".toList).isNone := by
  decide +kernel

/-- The text of a name with the text of its value. -/
def named (field : String × List Char) : List Char :=
  Text.Quoted.encode field.1.toList ++ ':' :: field.2

/-- A name and its value are read as they are. -/
theorem reads_named {field : String × List Char} {value : Json}
    (h : Reads (valueWithin depth) field.2 value) :
    Reads (member (valueWithin depth)) (named field) (field.1, value) := by
  intro rest hrest
  rw [named, Text.Quoted.encode_eq, List.cons_append, List.cons_append, member, expect_cons rfl,
    Option.bind_some, List.append_assoc, List.append_assoc, List.singleton_append,
    quoted_flatMap_written, Option.bind_some]
  dsimp only
  rw [List.cons_append, expect_cons rfl, Option.bind_some, h rest hrest, Option.map_some]
  dsimp only
  rw [String.ofList_toList]

/-- Names and values with commas between them and brackets around them are read as an object. -/
theorem reads_object {fields : List (String × List Char)} {values : List (String × Json)}
    (h : List.Forall₂ (fun field value => field.1 = value.1 ∧
      Reads (valueWithin depth) field.2 value.2) fields values) :
    Reads (valueWithin (depth + 1))
      ('\x7b' :: (List.intercalate [','] (fields.map named) ++ ['\x7d'])) (.object values) := by
  have hmembers : List.Forall₂ (Reads (member (valueWithin depth))) (fields.map named) values := by
    rw [List.forall₂_map_left_iff]
    refine h.imp fun field value hfield => ?_
    obtain ⟨hname, hvalue⟩ := hfield
    have hread := reads_named hvalue
    rwa [hname] at hread
  intro rest _
  have hopen (rest : List Char) : valueWithin (depth + 1) ('\x7b' :: rest) =
      (enclosed '\x7d' (member (valueWithin depth)) rest).map fun read =>
        (.object read.1, read.2) := by
    rw [valueWithin, blank_cons rfl]
    rfl
  rw [List.cons_append, hopen, List.append_assoc, List.singleton_append,
    enclosed_intercalate (.inr rfl) (fun _ => member_of_close _) hmembers]
  rfl

end Json

end Honeypot
