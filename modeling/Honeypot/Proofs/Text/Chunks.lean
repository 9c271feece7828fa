import Honeypot.Proofs.Text.Utf8

/-!
# Text decoded in pieces

The bytes of a text may be cut into pieces that are decoded one by one. The pieces give the text
only if no cut falls inside a character.

* `length_decodeFrom_append_le`: a cut never makes the decoded text shorter.
* `join_decode_eq_iff`: pieces decode to the text exactly if each is the encoding of a text.
* `forall_exists_iff_of_length_eq_one`: single bytes are such pieces exactly if every character
  takes one byte.
-/

namespace Honeypot.Text

/-! ## Cuts -/

namespace Pending

/-- A character that a byte opens is continued by continuation bytes only. -/
theorem isTailed_of_opened {byte : UInt8} {pending : Pending}
    (h : (opened byte).2 = some pending) : pending.IsTailed := by
  obtain ⟨c, hc⟩ | ⟨other, hother, htailed⟩ := opened_cases byte
  · simp [hc] at h
  · rw [hother] at h
    exact Option.some.inj h ▸ htailed

/-- What is pending after a pending character is continued by continuation bytes only. -/
theorem isTailed_of_next {pending other : Pending} {byte : UInt8}
    (h : (pending.next byte).2 = some other) : other.IsTailed := by
  by_cases hin : pending.low ≤ byte ∧ byte ≤ pending.high
  · -- With the last byte of a character, nothing is pending.
    cases hlater : pending.later with
    | zero => simp [next_of_later_eq_zero hin.1 hin.2 hlater] at h
    | succ later =>
      simp only [next_of_later_eq_succ hin.1 hin.2 hlater, Option.some.injEq] at h
      exact h ▸ isTailed_mk (by decide) (by decide)
  · -- The byte is looked at as a first one.
    rw [next_of_not_mem hin] at h
    exact isTailed_of_opened h

/-- The bytes that complete a pending character are continuation bytes. -/
theorem Completes.forall_tail {code : ℕ} {pending : Pending} {bytes : Bytes}
    (h : Completes code pending bytes) (htailed : pending.IsTailed) :
    ∀ byte ∈ bytes, 0x80 ≤ byte ∧ byte ≤ 0xBF := by
  induction h with
  | last low high =>
    simpa using ⟨UInt8.le_trans htailed.1 low, UInt8.le_trans high htailed.2⟩
  | more low high _ _ ih =>
    rw [List.forall_mem_cons]
    exact ⟨⟨UInt8.le_trans htailed.1 low, UInt8.le_trans high htailed.2⟩,
      ih (isTailed_mk (by decide) (by decide))⟩

/-- A pending character that is cut short stands for one character. -/
theorem Completes.decodeFrom_left {code : ℕ} {pending : Pending} {bytes one other : Bytes}
    (h : Completes code pending bytes) (hbytes : bytes = one ++ other) (hother : other ≠ []) :
    decodeFrom (some pending) one = [replacement] := by
  induction h generalizing one with
  -- Something is cut off, so the part that is left ends before the last byte.
  | last =>
    cases one with
    | nil => rfl
    | cons byte one => simp_all
  | more low high more _ ih =>
    cases one with
    | nil => rfl
    | cons byte one =>
      rw [List.cons_append, List.cons.injEq] at hbytes
      obtain ⟨rfl, hrest⟩ := hbytes
      rw [decodeFrom, next_of_later_eq_succ low high more, ih hrest]
      rfl

end Pending

open Pending

/-- A cut inside a pending character adds at most one character, which stands for its
beginning. -/
theorem length_decodeFrom_some_le {pending : Pending} (h : pending.IsTailed) (bytes : Bytes) :
    (decodeFrom (some pending) bytes).length ≤ (decodeFrom none bytes).length + 1 := by
  induction bytes generalizing pending with
  | nil => simp [decodeFrom]
  | cons byte bytes ih =>
    by_cases hin : pending.low ≤ byte ∧ byte ≤ pending.high
    · -- Afresh, a byte that continues the character would stand for a character of its own.
      have htail : opened byte = ([replacement], none) :=
        opened_tail (UInt8.le_trans h.1 hin.1) (UInt8.le_trans hin.2 h.2)
      cases hlater : pending.later with
      | zero => simp [decodeFrom, next_of_later_eq_zero hin.1 hin.2 hlater, htail]
      | succ later =>
        have hrest :=
          @ih ⟨pending.bits * 64 + byte.toNat % 64, later, 0x80, 0xBF⟩
            (isTailed_mk (by decide) (by decide))
        simp only [decodeFrom, next_of_later_eq_succ hin.1 hin.2 hlater, htail,
          List.nil_append, List.cons_append, List.length_cons]
        omega
    · -- Any other byte ends the pending character, which stands for one character.
      simp [decodeFrom, next_of_not_mem hin]

/-- A cut never makes the decoded text shorter. -/
theorem length_decodeFrom_append_le {state : Option Pending}
    (h : ∀ pending, state = some pending → pending.IsTailed) (one other : Bytes) :
    (decodeFrom state (one ++ other)).length ≤
      (decodeFrom state one).length + (decodeFrom none other).length := by
  -- The same bytes are read on both sides until the cut, with the same character pending.
  induction one generalizing state with
  | nil =>
    cases state with
    | none => simp [decodeFrom]
    | some pending =>
      have := length_decodeFrom_some_le (h pending rfl) other
      simp only [List.nil_append, decodeFrom, List.length_singleton]
      omega
  | cons byte one ih =>
    cases state with
    | none =>
      have := ih fun _ => @isTailed_of_opened byte _
      simp only [List.cons_append, decodeFrom, List.length_append]
      omega
    | some pending =>
      have := ih fun _ => @isTailed_of_next pending _ byte
      simp only [List.cons_append, decodeFrom, List.length_append]
      omega

/-- Cuts never make the decoded text shorter. -/
theorem length_decodeFrom_flatten_le (chunks : List Bytes) :
    (decodeFrom none chunks.flatten).length ≤ (chunks.flatMap (decodeFrom none)).length := by
  induction chunks with
  | nil => simp [decodeFrom]
  | cons chunk chunks ih =>
    have := @length_decodeFrom_append_le none (by simp) chunk chunks.flatten
    simp only [List.flatten_cons, List.flatMap_cons, List.length_append] at *
    omega

/-- Continuation bytes where a character may start stand for a character each. -/
theorem length_decodeFrom_tail_append {bytes : Bytes}
    (h : ∀ byte ∈ bytes, 0x80 ≤ byte ∧ byte ≤ 0xBF) (rest : Bytes) :
    (decodeFrom none (bytes ++ rest)).length =
      bytes.length + (decodeFrom none rest).length := by
  induction bytes with
  | nil => simp
  | cons byte bytes ih =>
    rw [List.forall_mem_cons] at h
    simp only [List.cons_append, decodeFrom, opened_tail h.1.1 h.1.2, List.length_append,
      List.length_cons, List.length_nil, ih h.2]
    omega

/-- The bytes of a character cut in two: the first part stands for one character, and so does
each byte of the second. -/
theorem decodeFrom_of_cut {c : Char} {one other : Bytes}
    (h : String.utf8EncodeChar c = one ++ other) (hone : one ≠ []) (hother : other ≠ [])
    (rest : Bytes) :
    decodeFrom none one = [replacement] ∧
      (decodeFrom none rest).length < (decodeFrom none (other ++ rest)).length := by
  obtain ⟨first, one, rfl⟩ := List.exists_cons_of_ne_nil hone
  obtain ⟨byte, hbytes, -⟩ | ⟨byte, pending, bytes, hbytes, hopened, hcompletes⟩ :=
    utf8EncodeChar_cases c
  · -- A single byte cannot be cut.
    rw [hbytes] at h
    simp_all
  · rw [hbytes, List.cons_append, List.cons.injEq] at h
    obtain ⟨rfl, rfl⟩ := h
    constructor
    · rw [decodeFrom, hopened, hcompletes.decodeFrom_left rfl hother]
      rfl
    · have htail := hcompletes.forall_tail (isTailed_of_opened (by rw [hopened]))
      have hlength := length_decodeFrom_tail_append
        (fun byte hbyte => htail byte (List.mem_append_right _ hbyte)) rest
      have := List.length_pos_iff.2 hother
      omega

/-- A cut through the bytes of characters falls between two of them, or inside one. -/
theorem flatMap_utf8EncodeChar_eq_append {chars : List Char} {one other : Bytes}
    (h : chars.flatMap String.utf8EncodeChar = one ++ other) :
    (∃ before after, chars = before ++ after ∧ one = before.flatMap String.utf8EncodeChar ∧
        other = after.flatMap String.utf8EncodeChar) ∨
      ∃ before c after head tail, chars = before ++ c :: after ∧ head ≠ [] ∧ tail ≠ [] ∧
        String.utf8EncodeChar c = head ++ tail ∧
        one = before.flatMap String.utf8EncodeChar ++ head ∧
        other = tail ++ after.flatMap String.utf8EncodeChar := by
  induction chars generalizing one with
  | nil =>
    have := List.append_eq_nil_iff.1 h.symm
    exact .inl ⟨[], [], rfl, this.1, this.2⟩
  | cons c chars ih =>
    rw [List.flatMap_cons, List.append_eq_append_iff] at h
    -- Either the first character is before the cut, or the cut is at one of its ends or inside.
    obtain ⟨rest, hone, hother⟩ | ⟨tail, hc, hother⟩ := h
    · obtain ⟨before, after, rfl, hrest, hafter⟩ |
        ⟨before, d, after, head, tail, rfl, hhead, htail, hd, hrest, hafter⟩ := ih hother
      · exact .inl ⟨c :: before, after, rfl, by rw [hone, hrest]; rfl, hafter⟩
      · exact .inr ⟨c :: before, d, after, head, tail, rfl, hhead, htail, hd,
          by rw [hone, hrest, List.flatMap_cons, List.append_assoc], hafter⟩
    · by_cases hone : one = []
      · subst hone
        exact .inl ⟨[], c :: chars, rfl, rfl, by simp [hother, hc]⟩
      by_cases htail : tail = []
      · subst htail
        exact .inl ⟨[c], chars, rfl, by simp [hc], by simp [hother]⟩
      · exact .inr ⟨[], c, chars, one, tail, rfl, hone, htail, hc, rfl, hother⟩

/-- If pieces of the bytes of characters decode to these characters, then every piece holds whole
characters. A cut inside a character would leave too many characters. -/
theorem forall_exists_of_flatMap_decodeFrom_eq {chunks : List Bytes} {chars : List Char}
    (hbytes : chunks.flatten = chars.flatMap String.utf8EncodeChar)
    (hchars : chunks.flatMap (decodeFrom none) = chars) :
    ∀ chunk ∈ chunks, ∃ part : List Char, chunk = part.flatMap String.utf8EncodeChar := by
  induction chunks generalizing chars with
  | nil => simp
  | cons chunk chunks ih =>
    rw [List.flatten_cons] at hbytes
    rw [List.flatMap_cons] at hchars
    obtain ⟨before, after, rfl, rfl, hafter⟩ |
      ⟨before, c, after, head, tail, rfl, hhead, htail, hc, rfl, hafter⟩ :=
        flatMap_utf8EncodeChar_eq_append hbytes.symm
    · -- The piece ends between two characters, and the other pieces have the rest.
      have hdecode := decodeFrom_flatMap_append before []
      rw [List.append_nil] at hdecode
      rw [hdecode, List.append_assoc, List.append_cancel_left_eq] at hchars
      rw [List.forall_mem_cons]
      exact ⟨⟨before, rfl⟩, ih hafter hchars⟩
    · exfalso
      -- The piece has one character for its cut end, so the others would have to make up what is
      -- left without the character that was cut. They have at least that character more.
      obtain ⟨hcut, hlt⟩ :=
        decodeFrom_of_cut hc hhead htail (after.flatMap String.utf8EncodeChar)
      have hle := length_decodeFrom_flatten_le chunks
      have hlength := congrArg List.length hchars
      have hdecode := decodeFrom_flatMap_append after []
      rw [List.append_nil] at hdecode
      rw [decodeFrom_flatMap_append, hcut] at hlength
      rw [hafter] at hle
      rw [hdecode] at hlt
      simp only [List.length_append, List.length_cons, List.length_nil, decodeFrom] at *
      omega

/-- Pieces of the bytes of a text, decoded one by one, give the text exactly if each piece is the
encoding of a text. -/
theorem join_decode_eq_iff {chunks : List Bytes} {text : String}
    (h : chunks.flatten = encode text) :
    String.join (chunks.map decode) = text ↔ ∀ chunk ∈ chunks, ∃ part, chunk = encode part := by
  constructor
  · intro hjoin chunk hchunk
    have hchars : chunks.flatMap (decodeFrom none) = text.toList := by
      rw [← hjoin, String.toList_join, List.flatMap_map]
      simp [decode]
    obtain ⟨part, hpart⟩ := forall_exists_of_flatMap_decodeFrom_eq h hchars chunk hchunk
    exact ⟨String.ofList part, by simp [encode, hpart]⟩
  · intro hparts
    -- Whole characters decode to themselves, so the bytes on both sides are the same.
    apply encode_injective
    rw [← h]
    clear h
    induction chunks with
    | nil => rfl
    | cons chunk chunks ih =>
      rw [List.forall_mem_cons] at hparts
      obtain ⟨⟨part, rfl⟩, hrest⟩ := hparts
      rw [List.map_cons, String.join_cons, encode_append, ih hrest, decode_encode,
        List.flatten_cons]

/-- Single bytes of a text are encodings of texts exactly if every character of the text takes one
byte. -/
theorem forall_exists_iff_of_length_eq_one {chunks : List Bytes} {text : String}
    (h : chunks.flatten = encode text) (hone : ∀ chunk ∈ chunks, chunk.length = 1) :
    (∀ chunk ∈ chunks, ∃ part, chunk = encode part) ↔ ∀ c ∈ text.toList, c.utf8Size = 1 := by
  constructor
  · intro hparts c hc
    have hjoin := (join_decode_eq_iff h).2 hparts
    rw [← hjoin, String.toList_join, List.mem_flatMap] at hc
    -- The character is in the text of a piece, and so takes no more than one byte.
    obtain ⟨decoded, hdecoded, hc⟩ := hc
    obtain ⟨chunk, hchunk, rfl⟩ := List.mem_map.1 hdecoded
    obtain ⟨part, rfl⟩ := hparts chunk hchunk
    have hlength := hone _ hchunk
    rw [decode_encode] at hc
    obtain ⟨before, after, hpart⟩ := List.append_of_mem hc
    rw [encode, hpart, List.flatMap_append, List.flatMap_cons] at hlength
    simp only [List.length_append, String.length_utf8EncodeChar] at hlength
    have hpos := c.utf8Size_pos
    omega
  · intro hsizes chunk hchunk
    obtain ⟨byte, rfl⟩ := List.length_eq_one_iff.1 (hone chunk hchunk)
    have hbyte : byte ∈ encode text := by
      rw [← h]
      exact List.mem_flatten.2 ⟨_, hchunk, List.mem_singleton_self byte⟩
    -- The byte belongs to a character, which has no other byte.
    obtain ⟨c, hc, hmem⟩ := List.mem_flatMap.1 hbyte
    have hlength := String.length_utf8EncodeChar c
    rw [hsizes c hc] at hlength
    obtain ⟨only, honly⟩ := List.length_eq_one_iff.1 hlength
    rw [honly, List.mem_singleton] at hmem
    refine ⟨String.ofList [c], ?_⟩
    rw [encode, String.toList_ofList, List.flatMap_singleton, honly, hmem]

end Honeypot.Text
