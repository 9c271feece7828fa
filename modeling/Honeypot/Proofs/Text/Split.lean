import Honeypot.Text.Split

/-!
# Texts cut at separators

* `pieces_append_cons`: a separator cuts a text into the pieces before it and those after it.
* `pieces_of_not_mem`: without a separator a text is its only piece.
* `not_mem_of_mem_pieces`: no piece holds a separator.
* `intercalate_pieces`: the pieces with separators between them are the text again.
* `pieces_intercalate`: texts without separators are the pieces of what they make up with separators
  between them.
* `cutAt_eq_some_iff`: the text before and after the first separator.
* `nameAndValue_eq_some_iff`: a name without an equals sign, and the value after the first one.
-/

namespace Honeypot.Text

variable {separator : Char}

/-- A text has at least one piece. -/
theorem pieces_ne_nil (separator : Char) (text : List Char) : pieces separator text ≠ [] := by
  cases text with
  | nil => simp [pieces]
  | cons c text =>
    rw [pieces]
    split
    · simp
    · split <;> simp

/-- A character that is no separator goes in front of the first piece. -/
theorem pieces_cons_of_ne {c : Char} (h : c ≠ separator) {text piece : List Char}
    {more : List (List Char)} (hpieces : pieces separator text = piece :: more) :
    pieces separator (c :: text) = (c :: piece) :: more := by
  rw [pieces, if_neg h, hpieces]

@[simp]
theorem pieces_cons_self (text : List Char) :
    pieces separator (separator :: text) = [] :: pieces separator text := by
  rw [pieces, if_pos rfl]

/-- A separator cuts a text into the pieces before it and those after it. -/
theorem pieces_append_cons (before after : List Char) :
    pieces separator (before ++ separator :: after) =
      pieces separator before ++ pieces separator after := by
  induction before with
  | nil => simp [pieces]
  | cons c before ih =>
    by_cases h : c = separator
    · subst h
      simp [ih]
    · -- The character goes in front of the first piece, with and without what comes after.
      obtain ⟨piece, more, hpieces⟩ :=
        List.exists_cons_of_ne_nil (pieces_ne_nil separator before)
      have hwhole : pieces separator (before ++ separator :: after) =
          piece :: (more ++ pieces separator after) := by
        rw [ih, hpieces, List.cons_append]
      rw [List.cons_append, pieces_cons_of_ne h hpieces, pieces_cons_of_ne h hwhole,
        List.cons_append]

/-- Without a separator a text is its only piece. -/
theorem pieces_of_not_mem {text : List Char} (h : separator ∉ text) :
    pieces separator text = [text] := by
  induction text with
  | nil => rfl
  | cons c text ih =>
    rw [List.mem_cons, not_or] at h
    exact pieces_cons_of_ne (Ne.symm h.1) (ih h.2)

/-- No piece holds a separator. -/
theorem not_mem_of_mem_pieces {text piece : List Char} (h : piece ∈ pieces separator text) :
    separator ∉ piece := by
  induction text generalizing piece with
  | nil => simp_all [pieces]
  | cons c text ih =>
    by_cases hc : c = separator
    · subst hc
      rw [pieces_cons_self, List.mem_cons] at h
      rcases h with rfl | h
      · simp
      · exact ih h
    -- Another character goes in front of the first piece, which is there by `pieces_ne_nil`.
    · obtain ⟨first, more, hpieces⟩ :=
        List.exists_cons_of_ne_nil (pieces_ne_nil separator text)
      rw [pieces_cons_of_ne hc hpieces, List.mem_cons] at h
      rw [hpieces] at ih
      rcases h with rfl | h
      · rw [List.mem_cons, not_or]
        exact ⟨Ne.symm hc, ih List.mem_cons_self⟩
      · exact ih (List.mem_cons_of_mem _ h)

/-- The pieces of a text with separators between them are the text. -/
theorem intercalate_pieces (separator : Char) (text : List Char) :
    [separator].intercalate (pieces separator text) = text := by
  induction text with
  | nil => simp [pieces]
  | cons c text ih =>
    obtain ⟨piece, more, hpieces⟩ := List.exists_cons_of_ne_nil (pieces_ne_nil separator text)
    rw [hpieces] at ih
    by_cases hc : c = separator
    · subst hc
      rw [pieces_cons_self, hpieces, List.intercalate_cons_cons, ih]
      rfl
    · -- The character is in front of the first piece, whether or not there is a next one.
      rw [pieces_cons_of_ne hc hpieces]
      cases more with
      | nil =>
        rw [List.intercalate_singleton] at ih ⊢
        rw [ih]
      | cons next more =>
        rw [List.intercalate_cons_cons] at ih ⊢
        rw [List.cons_append, List.cons_append, ih]

/-- A piece has characters of the text only. -/
theorem mem_of_mem_pieces {text piece : List Char} {c : Char} (h : piece ∈ pieces separator text)
    (hc : c ∈ piece) : c ∈ text := by
  induction text generalizing piece with
  | nil => simp_all [pieces]
  | cons d text ih =>
    by_cases hd : d = separator
    · subst hd
      rw [pieces_cons_self, List.mem_cons] at h
      rcases h with rfl | h
      · exact absurd hc List.not_mem_nil
      · exact List.mem_cons_of_mem _ (ih h hc)
    · obtain ⟨first, more, hpieces⟩ :=
        List.exists_cons_of_ne_nil (pieces_ne_nil separator text)
      rw [pieces_cons_of_ne hd hpieces, List.mem_cons] at h
      rw [hpieces] at ih
      rcases h with rfl | h
      · -- The first piece has one more character than that of the rest.
        rcases List.mem_cons.1 hc with rfl | hc
        · exact List.mem_cons_self
        · exact List.mem_cons_of_mem _ (ih List.mem_cons_self hc)
      · exact List.mem_cons_of_mem _ (ih (List.mem_cons_of_mem _ h) hc)

/-- Texts without separators are the pieces of what they make up with separators between them. -/
theorem pieces_intercalate {texts : List (List Char)} (hne : texts ≠ [])
    (h : ∀ text ∈ texts, separator ∉ text) :
    pieces separator ([separator].intercalate texts) = texts := by
  induction texts with
  | nil => exact absurd rfl hne
  | cons text texts ih =>
    have htext : pieces separator text = [text] := pieces_of_not_mem (h text List.mem_cons_self)
    cases texts with
    | nil => rw [List.intercalate_singleton, htext]
    | cons next texts =>
      have hrest := ih (List.cons_ne_nil next texts) fun later hlater =>
        h later (List.mem_cons_of_mem _ hlater)
      rw [List.intercalate_cons_cons, List.append_assoc, List.singleton_append, pieces_append_cons,
        htext, hrest, List.singleton_append]

/-- Texts with the same pieces are one text. -/
theorem pieces_injective (separator : Char) : Function.Injective (pieces separator) := by
  intro one other h
  rw [← intercalate_pieces separator one, h, intercalate_pieces]

variable {text before after : List Char}

theorem cutAt_append_cons (h : separator ∉ before) (after : List Char) :
    cutAt separator (before ++ separator :: after) = some (before, after) := by
  induction before with
  | nil => simp [cutAt]
  | cons c before ih =>
    rw [List.mem_cons, not_or] at h
    rw [List.cons_append, cutAt, if_neg (Ne.symm h.1), ih h.2]
    rfl

/-- A text is cut at the first separator that it holds. -/
theorem cutAt_eq_some_iff :
    cutAt separator text = some (before, after) ↔
      separator ∉ before ∧ text = before ++ separator :: after := by
  constructor
  · intro h
    induction text generalizing before with
    | nil => simp [cutAt] at h
    | cons c rest ih =>
      unfold cutAt at h
      split at h
      · next hc =>
        obtain ⟨rfl, rfl⟩ := Prod.mk.inj (Option.some.inj h)
        exact ⟨List.not_mem_nil, by rw [hc, List.nil_append]⟩
      · next hc =>
        -- The separator comes later, and the character before it is another one.
        obtain ⟨⟨first, later⟩, hcut, hparts⟩ := Option.map_eq_some_iff.1 h
        obtain ⟨rfl, rfl⟩ := Prod.mk.inj hparts
        obtain ⟨hfirst, rfl⟩ := ih hcut
        refine ⟨?_, rfl⟩
        rw [List.mem_cons, not_or]
        exact ⟨Ne.symm hc, hfirst⟩
  · rintro ⟨h, rfl⟩
    exact cutAt_append_cons h after

/-- The first equals sign of a text stands between the name and the value. -/
theorem nameAndValue_eq_some_iff {text name value : String} :
    nameAndValue text = some (name, value) ↔
      '=' ∉ name.toList ∧ text = name ++ "=" ++ value := by
  unfold nameAndValue
  rw [Option.map_eq_some_iff]
  constructor
  · rintro ⟨⟨before, after⟩, hcut, hparts⟩
    obtain ⟨rfl, rfl⟩ := Prod.mk.inj hparts
    obtain ⟨hbefore, htext⟩ := cutAt_eq_some_iff.1 hcut
    refine ⟨by rwa [String.toList_ofList], String.toList_inj.1 ?_⟩
    simp [htext]
  · rintro ⟨hname, rfl⟩
    refine ⟨(name.toList, value.toList), cutAt_eq_some_iff.2 ⟨hname, by simp⟩, by simp⟩

end Honeypot.Text
