import Honeypot.Text.Utf8
import Mathlib.Data.List.Basic
import Mathlib.Data.Nat.Notation

/-!
# Decoding what was encoded

Decoding inverts encoding, so the bytes of a text determine it.

* `utf8EncodeChar_cases`: what the bytes of a character mean to the decoder.
* `decode_encode`, `encode_injective`: the bytes of a text determine the text.
* `encode_append`, `encode_join`: texts are encoded one after the other.
-/

namespace Honeypot.Text

namespace Pending

/-! ## Continuation bytes -/

/-- `bytes` continue `pending` and complete the character with the number `code`. -/
inductive Completes (code : ℕ) : Pending → Bytes → Prop
  | last {pending : Pending} {byte : UInt8} (low : pending.low ≤ byte)
      (high : byte ≤ pending.high) (later : pending.later = 0)
      (bits : pending.bits * 64 + byte.toNat % 64 = code) :
      Completes code pending [byte]
  | more {pending : Pending} {byte : UInt8} {bytes : Bytes} {later : ℕ}
      (low : pending.low ≤ byte) (high : byte ≤ pending.high)
      (more : pending.later = later + 1)
      (rest : Completes code ⟨pending.bits * 64 + byte.toNat % 64, later, 0x80, 0xBF⟩ bytes) :
      Completes code pending (byte :: bytes)

/-- A pending character that only continuation bytes may continue. -/
def IsTailed (pending : Pending) : Prop :=
  0x80 ≤ pending.low ∧ pending.high ≤ 0xBF

theorem isTailed_mk {bits later : ℕ} {low high : UInt8} (hlow : 0x80 ≤ low) (hhigh : high ≤ 0xBF) :
    IsTailed ⟨bits, later, low, high⟩ :=
  ⟨hlow, hhigh⟩

/-- A byte that completes a pending character. -/
theorem next_of_later_eq_zero {pending : Pending} {byte : UInt8} (low : pending.low ≤ byte)
    (high : byte ≤ pending.high) (later : pending.later = 0) :
    pending.next byte = ([Char.ofNat (pending.bits * 64 + byte.toNat % 64)], none) := by
  unfold next
  rw [if_pos ⟨low, high⟩, later]

/-- A byte after which a pending character needs further ones. -/
theorem next_of_later_eq_succ {pending : Pending} {byte : UInt8} {later : ℕ}
    (low : pending.low ≤ byte) (high : byte ≤ pending.high)
    (more : pending.later = later + 1) :
    pending.next byte =
      ([], some ⟨pending.bits * 64 + byte.toNat % 64, later, 0x80, 0xBF⟩) := by
  unfold next
  rw [if_pos ⟨low, high⟩, more]

/-- A byte that does not continue a pending character is looked at afresh. -/
theorem next_of_not_mem {pending : Pending} {byte : UInt8}
    (h : ¬ (pending.low ≤ byte ∧ byte ≤ pending.high)) :
    pending.next byte = (replacement :: (opened byte).1, (opened byte).2) := by
  unfold next
  rw [if_neg h]

/-! ## First bytes -/

private theorem toNat_ofNat_of_lt {n : ℕ} (h : n < 256) : (UInt8.ofNat n).toNat = n := by
  rw [UInt8.toNat_ofNat', Nat.mod_eq_of_lt h]

/-- A byte below `0x80` is a character of its own. -/
theorem opened_ofNat_one {n : ℕ} (h : n < 0x80) :
    opened (UInt8.ofNat n) = ([Char.ofNat n], none) := by
  have hn : (UInt8.ofNat n).toNat = n := toNat_ofNat_of_lt (by omega)
  simp [opened, UInt8.lt_iff_toNat_lt, hn, h]

/-- The first byte of a character of two bytes. -/
theorem opened_ofNat_two {n : ℕ} (hlow : 0xC2 ≤ n) (hhigh : n < 0xE0) :
    opened (UInt8.ofNat n) = ([], some ⟨n % 32, 0, 0x80, 0xBF⟩) := by
  have hn : (UInt8.ofNat n).toNat = n := toNat_ofNat_of_lt (by omega)
  simp only [opened, UInt8.lt_iff_toNat_lt, ← UInt8.toNat_inj, hn, UInt8.reduceToNat]
  grind

/-- The first byte of a character of three bytes. -/
theorem opened_ofNat_three {n : ℕ} (hlow : 0xE0 ≤ n) (hhigh : n < 0xF0) :
    opened (UInt8.ofNat n) = ([], some ⟨n % 16, 1, if n = 0xE0 then 0xA0 else 0x80,
      if n = 0xED then 0x9F else 0xBF⟩) := by
  have hn : (UInt8.ofNat n).toNat = n := toNat_ofNat_of_lt (by omega)
  simp only [opened, UInt8.lt_iff_toNat_lt, ← UInt8.toNat_inj, hn, UInt8.reduceToNat]
  grind

/-- The first byte of a character of four bytes. -/
theorem opened_ofNat_four {n : ℕ} (hlow : 0xF0 ≤ n) (hhigh : n < 0xF5) :
    opened (UInt8.ofNat n) = ([], some ⟨n % 8, 2, if n = 0xF0 then 0x90 else 0x80,
      if n = 0xF4 then 0x8F else 0xBF⟩) := by
  have hn : (UInt8.ofNat n).toNat = n := toNat_ofNat_of_lt (by omega)
  simp only [opened, UInt8.lt_iff_toNat_lt, ← UInt8.toNat_inj, hn, UInt8.reduceToNat]
  grind

/-- A byte opens no character or one that only continuation bytes continue; if it opens none, it
stands for one character. -/
theorem opened_cases (byte : UInt8) :
    (∃ c, opened byte = ([c], none)) ∨
      ∃ pending, opened byte = ([], some pending) ∧ pending.IsTailed := by
  generalize hresult : opened byte = result
  unfold opened at hresult
  split_ifs at hresult <;> subst hresult
  · exact .inl ⟨_, rfl⟩
  · exact .inl ⟨_, rfl⟩
  -- Seven ranges of bytes open a character.
  · exact .inr ⟨_, rfl, isTailed_mk (by decide) (by decide)⟩
  · exact .inr ⟨_, rfl, isTailed_mk (by decide) (by decide)⟩
  · exact .inr ⟨_, rfl, isTailed_mk (by decide) (by decide)⟩
  · exact .inr ⟨_, rfl, isTailed_mk (by decide) (by decide)⟩
  · exact .inr ⟨_, rfl, isTailed_mk (by decide) (by decide)⟩
  · exact .inr ⟨_, rfl, isTailed_mk (by decide) (by decide)⟩
  · exact .inr ⟨_, rfl, isTailed_mk (by decide) (by decide)⟩
  · exact .inl ⟨_, rfl⟩

/-- A continuation byte opens no character. -/
theorem opened_tail {byte : UInt8} (hlow : 0x80 ≤ byte) (hhigh : byte ≤ 0xBF) :
    opened byte = ([replacement], none) := by
  unfold opened
  simp only [UInt8.le_iff_toNat_le, UInt8.lt_iff_toNat_lt, UInt8.reduceToNat] at *
  rw [if_neg (by omega), if_pos (by omega)]

end Pending

open Pending

/-! ## Whole characters -/

/-- A later byte of a character carries six bits. -/
private theorem toNat_tail (n : ℕ) : (UInt8.ofNat (n % 0x40 + 0x80)).toNat = n % 0x40 + 0x80 :=
  toNat_ofNat_of_lt (by omega)

/-- The later byte of a character of two bytes. -/
private theorem completes_two {v : ℕ} (h1 : 0x80 ≤ v) (h2 : v < 0x800) :
    Completes v ⟨(v / 64 % 0x20 + 0xC0) % 32, 0, 0x80, 0xBF⟩ [UInt8.ofNat (v % 0x40 + 0x80)] := by
  -- Within bounds, and the bits of both bytes make up the number.
  refine .last ?_ ?_ rfl ?_
  all_goals simp only [UInt8.le_iff_toNat_le, toNat_tail, UInt8.reduceToNat]; omega

/-- The later bytes of a character of three bytes. The bounds for the first of them leave out the
surrogates and what two bytes can hold. -/
private theorem completes_three {v : ℕ} (h1 : 0x800 ≤ v) (h2 : v < 0x10000)
    (hvalid : v < 0xD800 ∨ 0xDFFF < v) :
    Completes v ⟨(v / 4096 % 0x10 + 0xE0) % 16, 1,
        if v / 4096 % 0x10 + 0xE0 = 0xE0 then 0xA0 else 0x80,
        if v / 4096 % 0x10 + 0xE0 = 0xED then 0x9F else 0xBF⟩
      [UInt8.ofNat (v / 64 % 0x40 + 0x80), UInt8.ofNat (v % 0x40 + 0x80)] := by
  refine .more ?_ ?_ rfl (.last ?_ ?_ rfl ?_)
  · dsimp only
    split <;> simp only [UInt8.le_iff_toNat_le, toNat_tail, UInt8.reduceToNat] <;> omega
  · dsimp only
    split <;> simp only [UInt8.le_iff_toNat_le, toNat_tail, UInt8.reduceToNat] <;> omega
  all_goals simp only [UInt8.le_iff_toNat_le, toNat_tail, UInt8.reduceToNat]; omega

/-- The later bytes of a character of four bytes. The bounds for the first of them leave out what
three bytes can hold and what is above every character. -/
private theorem completes_four {v : ℕ} (h1 : 0x10000 ≤ v) (h2 : v < 0x110000) :
    Completes v ⟨(v / 262144 % 0x08 + 0xF0) % 8, 2,
        if v / 262144 % 0x08 + 0xF0 = 0xF0 then 0x90 else 0x80,
        if v / 262144 % 0x08 + 0xF0 = 0xF4 then 0x8F else 0xBF⟩
      [UInt8.ofNat (v / 4096 % 0x40 + 0x80), UInt8.ofNat (v / 64 % 0x40 + 0x80),
        UInt8.ofNat (v % 0x40 + 0x80)] := by
  refine .more ?_ ?_ rfl (.more ?_ ?_ rfl (.last ?_ ?_ rfl ?_))
  · dsimp only
    split <;> simp only [UInt8.le_iff_toNat_le, toNat_tail, UInt8.reduceToNat] <;> omega
  · dsimp only
    split <;> simp only [UInt8.le_iff_toNat_le, toNat_tail, UInt8.reduceToNat] <;> omega
  all_goals simp only [UInt8.le_iff_toNat_le, toNat_tail, UInt8.reduceToNat]; omega

/-- The bytes of a character: one that is the character, or one that opens it and others that
complete it. -/
theorem utf8EncodeChar_cases (c : Char) :
    (∃ byte, String.utf8EncodeChar c = [byte] ∧ opened byte = ([c], none)) ∨
      ∃ byte pending bytes, String.utf8EncodeChar c = byte :: bytes ∧
        opened byte = ([], some pending) ∧ Completes c.toNat pending bytes := by
  have hvalid : c.toNat < 0xD800 ∨ 0xDFFF < c.toNat ∧ c.toNat < 0x110000 := c.valid
  have hof : Char.ofNat c.toNat = c := Char.ofNat_toNat c
  have hval : c.val.toNat = c.toNat := rfl
  unfold String.utf8EncodeChar
  rw [hval]
  dsimp only
  -- The cases are those of the encoder: one, two, three or four bytes, by the size of the number.
  rcases Nat.lt_or_ge c.toNat 0x80 with h1 | h1
  · rw [if_pos (by omega)]
    exact .inl ⟨_, rfl, by rw [opened_ofNat_one h1, hof]⟩
  right
  rw [if_neg (by omega)]
  rcases Nat.lt_or_ge c.toNat 0x800 with h2 | h2
  · rw [if_pos (by omega)]
    exact ⟨_, _, _, rfl, opened_ofNat_two (by omega) (by omega), completes_two h1 h2⟩
  rw [if_neg (by omega)]
  rcases Nat.lt_or_ge c.toNat 0x10000 with h3 | h3
  · rw [if_pos (by omega)]
    exact ⟨_, _, _, rfl, opened_ofNat_three (by omega) (by omega),
      completes_three h2 h3 (by omega)⟩
  · rw [if_neg (by omega)]
    exact ⟨_, _, _, rfl, opened_ofNat_four (by omega) (by omega), completes_four h3 (by omega)⟩

/-- Bytes that complete a pending character decode to it. -/
theorem decodeFrom_of_completes {code : ℕ} {pending : Pending} {bytes : Bytes}
    (h : Completes code pending bytes) (rest : Bytes) :
    decodeFrom (some pending) (bytes ++ rest) = Char.ofNat code :: decodeFrom none rest := by
  -- Every byte but the last leaves the character pending with the bits collected so far.
  induction h with
  | last low high later bits =>
    simp [decodeFrom, next_of_later_eq_zero low high later, bits]
  | more low high more _ ih =>
    simp [decodeFrom, next_of_later_eq_succ low high more, ih]

/-- The bytes of a character decode to it. -/
theorem decodeFrom_utf8EncodeChar_append (c : Char) (rest : Bytes) :
    decodeFrom none (String.utf8EncodeChar c ++ rest) = c :: decodeFrom none rest := by
  obtain ⟨byte, hbytes, hopened⟩ | ⟨byte, pending, bytes, hbytes, hopened, hcompletes⟩ :=
    utf8EncodeChar_cases c
  · simp [hbytes, decodeFrom, hopened]
  · rw [hbytes, List.cons_append, decodeFrom, hopened]
    simp [decodeFrom_of_completes hcompletes, Char.ofNat_toNat]

/-- The bytes of characters decode to them. -/
theorem decodeFrom_flatMap_append (chars : List Char) (rest : Bytes) :
    decodeFrom none (chars.flatMap String.utf8EncodeChar ++ rest) =
      chars ++ decodeFrom none rest := by
  induction chars with
  | nil => rfl
  | cons c chars ih =>
    rw [List.flatMap_cons, List.append_assoc, decodeFrom_utf8EncodeChar_append, ih]
    rfl

/-- Decoding inverts encoding. -/
@[simp]
theorem decode_encode (text : String) : decode (encode text) = text := by
  have h := decodeFrom_flatMap_append text.toList []
  rw [List.append_nil] at h
  -- After all characters nothing is left to decode.
  rw [decode, encode, h]
  simp [decodeFrom]

/-- The bytes of a text determine the text. -/
theorem encode_injective : Function.Injective encode :=
  Function.LeftInverse.injective decode_encode

@[simp]
theorem encode_append (one other : String) :
    encode (one ++ other) = encode one ++ encode other := by
  simp [encode]

/-- The bytes of joined texts are the bytes of the texts one after the other. -/
theorem encode_join (texts : List String) :
    encode (String.join texts) = (texts.map encode).flatten := by
  induction texts with
  | nil => rfl
  | cons text texts ih => rw [String.join_cons, encode_append, ih, List.map_cons, List.flatten_cons]

end Honeypot.Text
