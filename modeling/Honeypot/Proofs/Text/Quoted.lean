import Honeypot.Text.Quoted

/-!
# Quoted strings read back

What a quoted string stands for, read character by character after its opening quote, with the
escapes that JSON has.

* `Quoted.read`: the text of a quoted string, and what comes after its closing quote.
* `Quoted.encode_eq`: a quoted string escapes its characters one by one.
* `Quoted.read_encode`: a quoted string reads as the text that was quoted.
* `Quoted.le_toNat_of_mem_encode`: a quoted string holds no control character, so no line feed.
-/

namespace Honeypot.Text.Quoted

/-- The value of a hexadecimal digit. -/
def hexValue? (c : Char) : Option Nat :=
  if '0' ≤ c ∧ c ≤ '9' then some (c.toNat - 0x30)
  else if 'a' ≤ c ∧ c ≤ 'f' then some (c.toNat - 0x57)
  else if 'A' ≤ c ∧ c ≤ 'F' then some (c.toNat - 0x37)
  else none

/-- The character with a number in hexadecimal digits. -/
def numbered? (digits : List Char) : Option Char :=
  (digits.mapM hexValue?).map fun values => Char.ofNat (values.foldl (· * 16 + ·) 0)

/-- The character that a letter stands for after a backslash. -/
def escaped? (c : Char) : Option Char :=
  match c with
  | '\x22' => some '\x22'
  | '\\' => some '\\'
  | '/' => some '/'
  | 'b' => some '\x08'
  | 'f' => some '\x0C'
  | 'n' => some '\n'
  | 'r' => some '\r'
  | 't' => some '\t'
  | _ => none

/-- What was read, with a character before it. -/
def preceded (c : Char) (result : List Char × List Char) : List Char × List Char :=
  (c :: result.1, result.2)

/-- The text of a quoted string after its opening quote, and what comes after the closing one. -/
def read : List Char → Option (List Char × List Char)
  | [] => none
  | c :: rest =>
    if c = '\x22' then some ([], rest)
    else if c = '\\' then
      match rest with
      | [] => none
      | letter :: rest =>
        if letter = 'u' then
          match rest with
          | one :: two :: three :: four :: rest =>
            (numbered? [one, two, three, four]).bind fun c => (read rest).map (preceded c)
          | _ => none
        else (escaped? letter).bind fun c => (read rest).map (preceded c)
    else (read rest).map (preceded c)

/-- The characters that stand for one of a text. -/
def written (c : Char) : List Char :=
  (escape? c).getD [c]

/-! ## One character -/

/-- A character is written as a letter after a backslash, as its number, or as it is. -/
theorem written_cases (c : Char) :
    (∃ letter, escaped? letter = some c ∧ letter ≠ 'u' ∧ written c = ['\\', letter]) ∨
      (c.toNat < 0x20 ∧
        written c = ['\\', 'u', '0', '0', hexDigit (c.toNat / 16), hexDigit (c.toNat % 16)]) ∨
      (c ≠ '\x22' ∧ c ≠ '\\' ∧ ¬ c.toNat < 0x20 ∧ written c = [c]) := by
  unfold written escape?
  split
  · -- Seven characters have a letter of their own.
    exact .inl ⟨_, rfl, by decide, rfl⟩
  · exact .inl ⟨_, rfl, by decide, rfl⟩
  · exact .inl ⟨_, rfl, by decide, rfl⟩
  · exact .inl ⟨_, rfl, by decide, rfl⟩
  · exact .inl ⟨_, rfl, by decide, rfl⟩
  · exact .inl ⟨_, rfl, by decide, rfl⟩
  · exact .inl ⟨_, rfl, by decide, rfl⟩
  · rename_i hquote hbackslash _ _ _ _ _
    by_cases hcontrol : c.toNat < 0x20
    · rw [if_pos hcontrol]
      exact .inr (.inl ⟨hcontrol, rfl⟩)
    · rw [if_neg hcontrol]
      exact .inr (.inr ⟨hquote, hbackslash, hcontrol, rfl⟩)

/-- The number of a control character is written with four digits. -/
theorem numbered?_hexDigit : ∀ n < 0x20,
    numbered? ['0', '0', hexDigit (n / 16), hexDigit (n % 16)] = some (Char.ofNat n) := by
  decide

/-- A letter after a backslash is read as the character that it stands for. -/
theorem read_letter {letter c : Char} (h : escaped? letter = some c) (hu : letter ≠ 'u')
    (rest : List Char) : read ('\\' :: letter :: rest) = (read rest).map (preceded c) := by
  rw [read.eq_def]
  dsimp only
  rw [if_neg (by decide), if_pos rfl, if_neg hu, h, Option.bind_some]

/-- A number after a backslash is read as its character. -/
theorem read_number {one two three four c : Char} (h : numbered? [one, two, three, four] = some c)
    (rest : List Char) :
    read ('\\' :: 'u' :: one :: two :: three :: four :: rest) =
      (read rest).map (preceded c) := by
  rw [read, if_neg (by decide), if_pos rfl, if_pos rfl, h, Option.bind_some]

/-- Any other character is read as it is. -/
theorem read_plain {c : Char} (hquote : c ≠ '\x22') (hbackslash : c ≠ '\\') (rest : List Char) :
    read (c :: rest) = (read rest).map (preceded c) := by
  rw [read.eq_def]
  dsimp only
  rw [if_neg hquote, if_neg hbackslash]

/-- A quote ends a quoted string. -/
theorem read_quote (rest : List Char) : read ('\x22' :: rest) = some ([], rest) := by
  rw [read.eq_def]
  exact if_pos rfl

/-- A character is read as it was written. -/
theorem read_written_append (c : Char) (rest : List Char) :
    read (written c ++ rest) = (read rest).map (preceded c) := by
  rcases written_cases c with ⟨letter, hletter, hu, hwritten⟩ | ⟨hcontrol, hwritten⟩ |
    ⟨hquote, hbackslash, -, hwritten⟩
  · rw [hwritten]
    exact read_letter hletter hu rest
  · have hnumber := numbered?_hexDigit c.toNat hcontrol
    rw [Char.ofNat_toNat] at hnumber
    rw [hwritten]
    exact read_number hnumber rest
  · rw [hwritten]
    exact read_plain hquote hbackslash rest

/-- The digits of a number are no control characters. -/
theorem le_toNat_hexDigit : ∀ n < 16, 0x20 ≤ (hexDigit n).toNat := by
  decide

/-- No letter that stands for a character after a backslash is a control character. -/
theorem le_toNat_of_escaped? {letter c : Char} (h : escaped? letter = some c) :
    0x20 ≤ letter.toNat := by
  unfold escaped? at h
  split at h
  all_goals first | decide | simp at h

/-- No control character stands in what is written for a character. -/
theorem le_toNat_of_mem_written {c d : Char} (h : d ∈ written c) : 0x20 ≤ d.toNat := by
  rcases written_cases c with ⟨letter, hletter, -, hwritten⟩ | ⟨hcontrol, hwritten⟩ |
    ⟨-, -, hcontrol, hwritten⟩
  · rw [hwritten, List.mem_cons, List.mem_singleton] at h
    rcases h with rfl | rfl
    · decide
    · exact le_toNat_of_escaped? hletter
  -- A control character is written as six printable ones, the last two being its digits.
  · have hhigh := le_toNat_hexDigit (c.toNat / 16) (by omega)
    have hlow := le_toNat_hexDigit (c.toNat % 16) (by omega)
    rw [hwritten] at h
    simp only [List.mem_cons, List.not_mem_nil, or_false] at h
    rcases h with rfl | rfl | rfl | rfl | rfl | rfl
    · decide
    · decide
    · decide
    · decide
    · exact hhigh
    · exact hlow
  · rw [hwritten, List.mem_singleton] at h
    rw [h]
    exact Nat.le_of_not_lt hcontrol

/-! ## Whole strings -/

/-- The parts after a run of plain characters are the run and the characters as they are
written. -/
theorem flatten_partsAfter (run text : List Char) :
    (partsAfter run text).flatten = run.reverse ++ text.flatMap written := by
  induction text generalizing run with
  | nil => by_cases h : run = [] <;> simp [partsAfter, plain, h]
  | cons c text ih =>
    rw [partsAfter, List.flatMap_cons, written]
    -- An escape ends the run, any other character goes into it.
    cases hescape : escape? c with
    | none =>
      rw [ih]
      simp
    | some escaped =>
      rw [List.flatten_append, List.flatten_cons, ih]
      by_cases h : run = [] <;> simp [plain, h]

/-- A quoted string has a quote at each end and escapes its characters one by one. -/
theorem encode_eq (text : List Char) :
    encode text = '\x22' :: (text.flatMap written ++ ['\x22']) := by
  rw [encode, parts, List.cons_append, List.flatten_cons, List.flatten_append, flatten_partsAfter]
  rfl

/-- A quoted string reads as the text that was quoted. -/
theorem read_encode (text rest : List Char) :
    read ((encode text).tail ++ rest) = some (text, rest) := by
  rw [encode_eq, List.tail_cons, List.append_assoc]
  induction text with
  | nil => exact read_quote rest
  | cons c text ih =>
    rw [List.flatMap_cons, List.append_assoc, read_written_append, ih]
    rfl

/-- A quoted string holds no control character. -/
theorem le_toNat_of_mem_encode {text : List Char} {d : Char} (h : d ∈ encode text) :
    0x20 ≤ d.toNat := by
  rw [encode_eq, List.mem_cons, List.mem_append, List.mem_flatMap, List.mem_singleton] at h
  rcases h with rfl | ⟨c, -, hd⟩ | rfl
  · decide
  · exact le_toNat_of_mem_written hd
  · decide

end Honeypot.Text.Quoted
