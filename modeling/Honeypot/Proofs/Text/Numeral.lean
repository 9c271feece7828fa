import Mathlib.Data.Nat.Digits.Defs

/-!
# Numbers in JSON texts

The texts that stand for a number: a sign or none, digits without a needless zero at the beginning,
places after a point or none, and a power of ten or none.

* `Json.Numeral`: such a text, with the decimal number `mantissa * 10 ^ exponent` that it stands
  for.
* `Json.IsNumber`: whether a text stands for a number.
* `Json.Numeral.mem`: the characters that such a text can hold.
-/

namespace Honeypot.Json

/-- One digit or more. -/
def IsDigits (text : List Char) : Prop := text ≠ [] ∧ ∀ c ∈ text, c.isDigit

/-- The digits before the point. A zero at the beginning stands alone. -/
def IsWhole (text : List Char) : Prop := IsDigits text ∧ (text.head? = some '0' → text = ['0'])

/-- The text of the places after the point. -/
inductive Places : List Char → List Char → Prop
  | none : Places [] []
  | some {digits : List Char} (h : IsDigits digits) : Places ('.' :: digits) digits

/-- The text of a power of ten. -/
inductive Power : List Char → Int → Prop
  | none : Power [] 0
  | unsigned {letter : Char} {digits : List Char} (hletter : letter = 'e' ∨ letter = 'E')
    (h : IsDigits digits) : Power (letter :: digits) (Nat.ofDigitChars 10 digits 0)
  | positive {letter : Char} {digits : List Char} (hletter : letter = 'e' ∨ letter = 'E')
    (h : IsDigits digits) : Power (letter :: '+' :: digits) (Nat.ofDigitChars 10 digits 0)
  | negative {letter : Char} {digits : List Char} (hletter : letter = 'e' ∨ letter = 'E')
    (h : IsDigits digits) : Power (letter :: '-' :: digits) (-Nat.ofDigitChars 10 digits 0)

/-- The text of a number without its sign. -/
inductive Magnitude : List Char → Int → Int → Prop
  | mk {whole fraction places exponent : List Char} {power : Int} (hwhole : IsWhole whole)
    (hplaces : Places fraction places) (hpower : Power exponent power) :
    Magnitude (whole ++ (fraction ++ exponent)) (Nat.ofDigitChars 10 (whole ++ places) 0)
      (power - places.length)

/-- The text of a number. -/
inductive Numeral : List Char → Int → Int → Prop
  | positive {text : List Char} {mantissa exponent : Int} (h : Magnitude text mantissa exponent) :
    Numeral text mantissa exponent
  | negative {text : List Char} {mantissa exponent : Int} (h : Magnitude text mantissa exponent) :
    Numeral ('-' :: text) (-mantissa) exponent

/-- Whether a text stands for a number. -/
def IsNumber (text : String) : Prop := ∃ mantissa exponent, Numeral text.toList mantissa exponent

/-! ## Characters of numbers -/

/-- The characters that a number can hold. -/
def IsNumeric (c : Char) : Prop := c.isDigit ∨ c ∈ ['-', '+', '.', 'e', 'E']

theorem IsDigits.mem {text : List Char} (h : IsDigits text) : ∀ c ∈ text, IsNumeric c :=
  fun c hc => .inl (h.2 c hc)

theorem Places.mem {text places : List Char} (h : Places text places) :
    ∀ c ∈ text, IsNumeric c := by
  cases h with
  | none => simp
  | some h => exact List.forall_mem_cons.2 ⟨.inr (by decide), h.mem⟩

theorem Power.mem {text : List Char} {power : Int} (h : Power text power) :
    ∀ c ∈ text, IsNumeric c := by
  have hnumeric {letter : Char} (hletter : letter = 'e' ∨ letter = 'E') : IsNumeric letter := by
    rcases hletter with rfl | rfl <;> exact .inr (by decide)
  cases h with
  | none => simp
  | unsigned hletter h => exact List.forall_mem_cons.2 ⟨hnumeric hletter, h.mem⟩
  | positive hletter h =>
    exact List.forall_mem_cons.2
      ⟨hnumeric hletter, List.forall_mem_cons.2 ⟨.inr (by decide), h.mem⟩⟩
  | negative hletter h =>
    exact List.forall_mem_cons.2
      ⟨hnumeric hletter, List.forall_mem_cons.2 ⟨.inr (by decide), h.mem⟩⟩

theorem Magnitude.mem {text : List Char} {mantissa exponent : Int}
    (h : Magnitude text mantissa exponent) : ∀ c ∈ text, IsNumeric c := by
  obtain ⟨hwhole, hplaces, hpower⟩ := h
  simp only [List.forall_mem_append]
  exact ⟨hwhole.1.mem, hplaces.mem, hpower.mem⟩

theorem Numeral.mem {text : List Char} {mantissa exponent : Int}
    (h : Numeral text mantissa exponent) : ∀ c ∈ text, IsNumeric c := by
  cases h with
  | positive h => exact h.mem
  | negative h => exact List.forall_mem_cons.2 ⟨.inr (by decide), h.mem⟩

/-- No character of a number is a control character or a comma. -/
theorem IsNumeric.le_toNat_and_ne {c : Char} (h : IsNumeric c) : 0x20 ≤ c.toNat ∧ c ≠ ',' := by
  rcases h with hdigit | hmem
  · rw [Char.isDigit, Bool.and_eq_true, decide_eq_true_iff] at hdigit
    refine ⟨Nat.le_trans (by decide) (UInt32.le_iff_toNat_le.1 hdigit.1), ?_⟩
    rintro rfl
    exact absurd hdigit.1 (by decide)
  · simp only [List.mem_cons, List.not_mem_nil, or_false] at hmem
    rcases hmem with rfl | rfl | rfl | rfl | rfl <;> decide

/-! ## Natural numbers -/

theorem head?_digitChar_ne : ∀ n < 10, n ≠ 0 → [Nat.digitChar n].head? ≠ some '0' := by
  decide

/-- A natural number is written without a zero at its beginning, unless it is zero. -/
theorem head?_toDigits_ne {n : Nat} (h : n ≠ 0) : (Nat.toDigits 10 n).head? ≠ some '0' := by
  induction n using Nat.strongRecOn with
  | ind n ih =>
    by_cases hsmall : n < 10
    · rw [Nat.toDigits_of_lt_base hsmall]
      exact head?_digitChar_ne n hsmall h
    · -- The digits before the last one are those of a smaller number, and come first.
      have hfirst := ih (n / 10) (by omega) (by omega)
      obtain ⟨c, more, hdigits⟩ :=
        List.exists_cons_of_ne_nil (Nat.toDigits_ne_nil (n := n / 10) (b := 10))
      rw [Nat.toDigits_of_base_le (by decide) (Nat.le_of_not_lt hsmall), hdigits]
      rw [hdigits] at hfirst
      exact hfirst

/-- The digits of a natural number are a text of the number. -/
theorem numeral_natural (n : Nat) : Numeral (toString n).toList n 0 := by
  have hdigits : IsDigits (Nat.toDigits 10 n) :=
    ⟨Nat.toDigits_ne_nil, fun c hc => Nat.isDigit_of_mem_toDigits (by decide) (by decide) hc⟩
  have hwhole : IsWhole (Nat.toDigits 10 n) := by
    refine ⟨hdigits, fun hhead => ?_⟩
    by_cases hn : n = 0
    · rw [hn]
      exact Nat.toDigits_zero 10
    · exact absurd hhead (head?_toDigits_ne hn)
  have hmagnitude := Magnitude.mk hwhole .none .none
  rw [List.append_nil, List.append_nil, Nat.ofDigitChars_ten_toDigits] at hmagnitude
  rw [Nat.toString_eq_repr, Nat.toList_repr]
  exact .positive hmagnitude

end Honeypot.Json
