import Honeypot.Proofs.Shell.Grammar
import Honeypot.Proofs.Shell.References

/-!
# Both readers of a command line follow the quotes alike

A command line is read for its variables and then for its words, and each reader keeps track of the
quotes by rules of its own: in double quotes the first one lets a backslash take any character
along, the second one only three of them, and at the end of the line neither has anything left to
take. On a line without a variable in braces they still agree at every position, and a dollar refers
to a variable just where the reader of words comes to it by itself and outside single quotes.

* `Quoting.along`, `Quoting.Comes`: the quotation at the positions of a text that is read in
  segments, and what a reader of segments comes to.
* `Words.strokes`, `Words.exists_splitFrom_eq`: the characters that the reader of words takes at a
  time, and that it does come to each of them.
* `Words.leftOpen_split`, `Words.leftOpen_split_of_comes`: the quotation after all of them, or after
  the first ones, is the one that the text up to there leaves open.
* `Expansion.Decomposed.along_eq`, `Expansion.Decomposed.meets_iff`: the pieces of a line against
  its strokes.
* `Quoting.readers_agree`: a whole line, with and without dollars.

## References

- [SPEC] `SPEC_FULL.md`: §10, Supplementary Features
-/

namespace Honeypot

/-! ## Texts that are read in segments -/

namespace Quoting

variable {α : Type} (source : α → List Char) (after : Quoting → α → Quoting)

/-- The quotation at every position of a text that is read in segments, the end of the text
included. Within a segment it is the one at the beginning of the segment. -/
def along : Quoting → List α → List Quoting
  | quoting, [] => [quoting]
  | quoting, segment :: segments =>
    List.replicate (source segment).length quoting ++ along (after quoting segment) segments

/-- Whether a reader of segments, after a text, comes in a quotation to the segments that are
left. -/
inductive Comes : Quoting → List α → List Char → Quoting → List α → Prop
  | here {quoting segments} : Comes quoting segments [] quoting segments
  | later {quoting segment segments before found rest} :
      Comes (after quoting segment) segments before found rest →
      Comes quoting (segment :: segments) (source segment ++ before) found rest

variable {source after} {quoting found : Quoting} {segment : α} {segments rest : List α}
  {before : List Char}

/-- What a reader comes to is what it begins with, or comes after its first segment. -/
theorem comes_cons_iff :
    Comes source after quoting (segment :: segments) before found rest ↔
      (before = [] ∧ quoting = found ∧ segment :: segments = rest) ∨
        ∃ later, before = source segment ++ later ∧
          Comes source after (after quoting segment) segments later found rest := by
  constructor
  · intro h
    cases h with
    | here => exact .inl ⟨rfl, rfl, rfl⟩
    | later h => exact .inr ⟨_, rfl, h⟩
  · rintro (⟨rfl, rfl, rfl⟩ | ⟨later, rfl, h⟩)
    · exact .here
    · exact .later h

theorem not_comes_nil : ¬ Comes source after quoting [] before found (segment :: rest) := by
  rintro ⟨⟩

/-- What a reader comes to is not among the first segments if its own first one is none of them. -/
theorem comes_append_iff {front : List α} (h : segment ∉ front) :
    Comes source after quoting (front ++ segments) before found (segment :: rest) ↔
      ∃ later, before = front.flatMap source ++ later ∧
        Comes source after (front.foldl after quoting) segments later found (segment :: rest) := by
  induction front generalizing quoting before with
  | nil => simp
  | cons first front ih =>
    rw [List.mem_cons, not_or] at h
    rw [List.cons_append, comes_cons_iff, List.flatMap_cons, List.foldl_cons]
    constructor
    · rintro (⟨-, -, hrest⟩ | ⟨later, rfl, hlater⟩)
      · exact absurd (List.cons.inj hrest).1.symm h.1
      · obtain ⟨last, rfl, hlast⟩ := (ih h.2).1 hlater
        exact ⟨last, (List.append_assoc _ _ _).symm, hlast⟩
    · rintro ⟨last, rfl, hlast⟩
      exact .inr ⟨_, List.append_assoc _ _ _, (ih h.2).2 ⟨last, rfl, hlast⟩⟩

/-- A text is what a reader has read of it and what is left. -/
theorem Comes.flatMap_source (h : Comes source after quoting segments before found rest) :
    segments.flatMap source = before ++ rest.flatMap source := by
  induction h with
  | here => rfl
  | later _ ih => rw [List.flatMap_cons, ih, List.append_assoc]

/-- A reader of segments comes to the end of its text. -/
theorem comes_end (quoting : Quoting) (segments : List α) :
    Comes source after quoting segments (segments.flatMap source) (segments.foldl after quoting)
      [] := by
  induction segments generalizing quoting with
  | nil => exact .here
  | cons segment segments ih =>
    rw [List.flatMap_cons, List.foldl_cons]
    exact .later (ih _)

/-- The last quotation of a text is the one after all its segments. -/
theorem getLast?_along (quoting : Quoting) (segments : List α) :
    (along source after quoting segments).getLast? = some (segments.foldl after quoting) := by
  induction segments generalizing quoting with
  | nil => rfl
  | cons segment segments ih =>
    rw [along, List.getLast?_append, ih]
    rfl

end Quoting

/-! ## The strokes of the reader of words -/

namespace Words

/-- What the reader of words takes at a time. -/
inductive Stroke where
  /-- A character by itself, be it a quote or a backslash that escapes nothing. -/
  | plain (c : Char)
  /-- A backslash with the character that it escapes. -/
  | escaped (c : Char)
deriving DecidableEq, Repr

/-- The text of a stroke in its line. -/
def Stroke.source : Stroke → List Char
  | .plain c => [c]
  | .escaped c => ['\\', c]

end Words

/-- Whether a backslash in a quotation escapes a character. -/
def Quoting.escapes (c : Char) : Quoting → Bool
  | .bare => true
  | .single => false
  | .double => Words.isEscapable c

/-- The quotation after a stroke. -/
def Quoting.afterStroke (quoting : Quoting) : Words.Stroke → Quoting
  | .plain c => quoting.after c
  | .escaped _ => quoting

namespace Words

open Quoting (Comes)

/-- The strokes of the rest of a line, which starts in or outside quotes. -/
def strokesFrom : Quoting → List Char → List Stroke
  | _, [] => []
  | _, [c] => [.plain c]
  | quoting, c :: next :: rest =>
    if c = '\\' ∧ quoting.escapes next then .escaped next :: strokesFrom quoting rest
    else .plain c :: strokesFrom (quoting.after c) (next :: rest)

/-- The strokes of a command line. -/
def strokes (line : String) : List Stroke :=
  strokesFrom .bare line.toList

variable {quoting found : Quoting} {c : Char} {text rest before : List Char}

@[simp] theorem strokesFrom_nil (quoting : Quoting) : strokesFrom quoting [] = [] := by
  rw [strokesFrom]

theorem strokesFrom_escape (h : quoting.escapes c) (rest : List Char) :
    strokesFrom quoting ('\\' :: c :: rest) = .escaped c :: strokesFrom quoting rest := by
  rw [strokesFrom, if_pos ⟨rfl, h⟩]

/-- A character is taken by itself unless it is a backslash that escapes the next one. -/
theorem strokesFrom_plain (h : c = '\\' → ∀ next ∈ rest.head?, ¬ quoting.escapes next) :
    strokesFrom quoting (c :: rest) = .plain c :: strokesFrom (quoting.after c) rest := by
  cases rest with
  | nil => simp only [strokesFrom]
  | cons next rest =>
    rw [strokesFrom, if_neg]
    rintro ⟨hc, hescapes⟩
    exact h hc next rfl hescapes

/-- A line begins with an escaped character or with a character by itself. -/
theorem strokesFrom_cases (quoting : Quoting) (c : Char) (rest : List Char) :
    (∃ next later, c = '\\' ∧ rest = next :: later ∧ quoting.escapes next) ∨
      (c = '\\' → ∀ next ∈ rest.head?, ¬ quoting.escapes next) := by
  by_cases h : c = '\\' ∧ ∃ next ∈ rest.head?, quoting.escapes next
  · obtain ⟨rfl, next, hnext, hescapes⟩ := h
    obtain ⟨later, rfl⟩ := List.head?_eq_some_iff.1 hnext
    exact .inl ⟨next, later, rfl, rfl, hescapes⟩
  · exact .inr fun hc next hnext hescapes => h ⟨hc, next, hnext, hescapes⟩

/-- The strokes of a text joined again are the text. -/
theorem flatMap_source_strokesFrom (quoting : Quoting) (text : List Char) :
    (strokesFrom quoting text).flatMap Stroke.source = text := by
  fun_induction strokesFrom quoting text with
  | case1 => rfl
  | case2 => rfl
  | case3 quoting c next rest h ih =>
    rw [List.flatMap_cons, ih, h.1]
    rfl
  | case4 quoting c next rest h ih =>
    rw [List.flatMap_cons, ih]
    rfl

/-! ### The reader of words comes to every stroke -/

/-- The reader of words takes an escaped character along with its backslash. -/
theorem splitFrom_escaped (h : quoting.escapes c) (word : Option (List Char)) (rest : List Char) :
    splitFrom quoting word ('\\' :: c :: rest) = splitFrom quoting (push c word) rest := by
  cases quoting with
  | bare => exact splitFrom_escape
  | single => exact absurd h Bool.false_ne_true
  | double =>
    have hescapable : isEscapable c := h
    rw [splitFrom, if_pos hescapable]

/-- A blank, and nothing else, makes the reader of words finish a word. -/
theorem exists_splitFrom_plain (h : c = '\\' → ∀ next ∈ rest.head?, ¬ quoting.escapes next)
    (word : Option (List Char)) :
    ∃ words word', splitFrom quoting word (c :: rest) =
      (words ++ ·) <$> splitFrom (quoting.after c) word' rest := by
  -- Without finished words, the rest is read as it is.
  have hread {word' : Option (List Char)}
      (hstep : splitFrom quoting word (c :: rest) = splitFrom (quoting.after c) word' rest) :
      ∃ words word', splitFrom quoting word (c :: rest) =
        (words ++ ·) <$> splitFrom (quoting.after c) word' rest :=
    ⟨[], word', hstep.trans (id_map _).symm⟩
  by_cases hsingle : c = '\x27'
  · subst hsingle
    cases quoting with
    | bare => exact hread splitFrom_open_single
    | single => exact hread splitFrom_close_single
    | double => exact hread (splitFrom_double (by decide) (by simp))
  by_cases hdouble : c = '\x22'
  · subst hdouble
    cases quoting with
    | bare => exact hread splitFrom_open_double
    | single => exact hread (splitFrom_single (by decide))
    | double => exact hread splitFrom_close_double
  have hafter : quoting.after c = quoting := by
    cases quoting <;> simp [Quoting.after, hsingle, hdouble]
  rw [hafter] at hread ⊢
  cases quoting with
  | single => exact hread (splitFrom_single hsingle)
  | double => exact hread (splitFrom_double hdouble h)
  | bare =>
    by_cases hbackslash : c = '\\'
    · -- Outside quotes only the end of the line keeps a backslash from escaping.
      subst hbackslash
      cases rest with
      | nil => exact hread (Piece.trailing.splitFrom word)
      | cons next rest => exact absurd rfl (h rfl next rfl)
    by_cases hblank : Text.isBlank c
    · exact ⟨finished word, none, splitFrom_blank hblank⟩
    · exact hread (splitFrom_bare hblank hsingle hdouble hbackslash)

theorem map_append_map_append (one other : List String)
    (result : Except Unterminated (List String)) :
    (one ++ ·) <$> (other ++ ·) <$> result = ((one ++ other) ++ ·) <$> result := by
  cases result with
  | ok words => exact congrArg Except.ok (List.append_assoc one other words).symm
  | error quotation => rfl

/-- Wherever strokes come to, the reader of words comes to, in the same quotation and with the same
text ahead of it. -/
theorem exists_splitFrom_eq {strokesLeft : List Stroke}
    (h : Comes Stroke.source Quoting.afterStroke quoting (strokesFrom quoting text) before found
      strokesLeft) (word : Option (List Char)) :
    ∃ words word', splitFrom quoting word text =
      (words ++ ·) <$> splitFrom found word' (strokesLeft.flatMap Stroke.source) := by
  generalize hstrokes : strokesFrom quoting text = strokes at h
  -- On the way to the prefix in question, over every word that is begun: an escape adds to the
  -- word, a plain character may end one.
  induction h generalizing text word with
  | here =>
    rw [← hstrokes, flatMap_source_strokesFrom]
    exact ⟨[], word, (id_map _).symm⟩
  | @later quoting stroke _ _ _ _ _ ih =>
    cases text with
    | nil => simp at hstrokes
    | cons c rest =>
      rcases strokesFrom_cases quoting c rest with ⟨next, later, rfl, rfl, hescapes⟩ | hplain
      · rw [strokesFrom_escape hescapes] at hstrokes
        obtain ⟨rfl, htail⟩ := List.cons.inj hstrokes
        rw [splitFrom_escaped hescapes]
        exact ih _ htail
      · rw [strokesFrom_plain hplain] at hstrokes
        obtain ⟨rfl, htail⟩ := List.cons.inj hstrokes
        obtain ⟨words, word', hstep⟩ := exists_splitFrom_plain hplain word
        obtain ⟨more, word'', hrest⟩ := ih word' htail
        refine ⟨words ++ more, word'', hstep.trans ?_⟩
        rw [← map_append_map_append, ← hrest]
        rfl

/-- The quotation that a result of the reader of words leaves open. -/
def leftOpen : Except Unterminated (List String) → Quoting
  | .ok _ => .bare
  | .error .single => .single
  | .error .double => .double

/-- The quotation after the strokes of a line is the one that the reader of words reports. -/
theorem leftOpen_split (line : String) :
    leftOpen (split line) = (strokes line).foldl Quoting.afterStroke .bare := by
  obtain ⟨words, word, hend⟩ := exists_splitFrom_eq (Quoting.comes_end .bare (strokes line)) none
  rw [split, hend, List.flatMap_nil]
  cases (strokes line).foldl Quoting.afterStroke .bare <;> rfl

/-- The strokes of a text up to one of them are those of what comes before it. -/
theorem foldl_strokesFrom_of_comes {strokesLeft : List Stroke}
    (h : Comes Stroke.source Quoting.afterStroke quoting (strokesFrom quoting text) before found
      strokesLeft) : (strokesFrom quoting before).foldl Quoting.afterStroke quoting = found := by
  generalize hstrokes : strokesFrom quoting text = strokes at h
  induction h generalizing text with
  | here => rw [strokesFrom_nil, List.foldl_nil]
  | @later quoting stroke strokes before found left hcomes ih =>
    cases text with
    | nil => simp at hstrokes
    | cons c rest =>
      rcases strokesFrom_cases quoting c rest with ⟨next, later, rfl, rfl, hescapes⟩ | hplain
      · rw [strokesFrom_escape hescapes] at hstrokes
        obtain ⟨rfl, htail⟩ := List.cons.inj hstrokes
        show (strokesFrom quoting ('\\' :: next :: before)).foldl _ _ = _
        rw [strokesFrom_escape hescapes]
        exact ih htail
      · rw [strokesFrom_plain hplain] at hstrokes
        obtain ⟨rfl, htail⟩ := List.cons.inj hstrokes
        -- A character that does not escape the next one escapes nothing at the end of a text.
        have hrest : rest = before ++ left.flatMap Stroke.source := by
          rw [← hcomes.flatMap_source, ← htail, flatMap_source_strokesFrom]
        have hbefore : c = '\\' → ∀ next ∈ before.head?, ¬ quoting.escapes next := by
          intro hc next hnext
          obtain ⟨later, rfl⟩ := List.head?_eq_some_iff.1 hnext
          exact hplain hc next (by rw [hrest]; rfl)
        show (strokesFrom quoting (c :: before)).foldl _ _ = _
        rw [strokesFrom_plain hbefore]
        exact ih htail

/-- If a line ended before one of its strokes, the reader of words would report the quotation in
which it comes to the stroke. -/
theorem leftOpen_split_of_comes {line : String} {strokesLeft : List Stroke}
    (h : Comes Stroke.source Quoting.afterStroke .bare (strokes line) before found strokesLeft) :
    leftOpen (split (String.ofList before)) = found := by
  rw [leftOpen_split, strokes, String.toList_ofList]
  exact foldl_strokesFrom_of_comes h

end Words

/-! ## Pieces against strokes -/

namespace Expansion

open Quoting (Comes along)
open Words (Stroke strokesFrom)

/-- Whether a text holds a dollar before an opening brace. -/
def HoldsBrace (text : List Char) : Prop := ['$', '\x7b'] <:+: text

instance (text : List Char) : Decidable (HoldsBrace text) :=
  inferInstanceAs (Decidable (_ <:+: text))

/-- What holds no brace after a dollar does not end with a text that does. -/
theorem not_holdsBrace_of_suffix {rest text : List Char} (h : ¬ HoldsBrace text)
    (hrest : rest <:+ text) : ¬ HoldsBrace rest :=
  fun hbrace => h (hbrace.trans hrest.isInfix)

/-- Whether a character means nothing to either reader, in any quotation. -/
def IsInert (c : Char) : Prop := c ≠ '\x27' ∧ c ≠ '\x22' ∧ c ≠ '\\' ∧ c ≠ '$'

instance (c : Char) : Decidable (IsInert c) := inferInstanceAs (Decidable (_ ∧ _))

variable {quoting found : Quoting} {c : Char} {text rest before : List Char} {target : Reference}
  {pieces : List Piece}

theorem IsInert.after (h : IsInert c) (quoting : Quoting) : quoting.after c = quoting := by
  cases quoting <;> simp [Quoting.after, h.1, h.2.1]

/-- A name holds no quote, backslash or dollar. -/
theorem isInert_of_isNameChar (h : Userland.IsNameChar c) : IsInert c := by
  have hne {other : Char} (hother : isNameChar other = false) : c ≠ other := by
    rintro rfl
    rw [isNameChar_iff.2 h] at hother
    exact Bool.noConfusion hother
  exact ⟨hne (by decide), hne (by decide), hne (by decide), hne (by decide)⟩

/-- A reference without braces is made of characters that mean nothing else. -/
theorem Refers.isInert (h : Refers text target rest) (hbrace : ¬ HoldsBrace ('$' :: text)) :
    ∀ c ∈ target.source, IsInert c := by
  cases h with
  | status => exact List.forall_mem_singleton.2 (by decide)
  | braced => exact absurd ⟨[], _, rfl⟩ hbrace
  | named _ hname _ => exact fun c hc => isInert_of_isNameChar (hname c hc)

/-- What is left after a reference ends the text that its dollar begins. -/
theorem Refers.suffix (h : Refers text target rest) : rest <:+ '$' :: text := by
  rw [h.eq_source_append]
  exact List.suffix_append ('$' :: target.source) rest

/-- What a dollar refers to depends on nothing but the text after it. -/
theorem Refers.unique {target' : Reference} {rest' : List Char} (h : Refers text target rest)
    (h' : Refers text target' rest') : target = target' := by
  have hsame := (refers_iff.1 h).symm.trans (refers_iff.1 h')
  exact (Prod.mk.inj (Option.some.inj hsame)).1

/-! ### The strokes of a piece -/

/-- Characters that mean nothing are taken one by one. -/
theorem strokesFrom_inert {chars : List Char} (h : ∀ c ∈ chars, IsInert c) (rest : List Char) :
    strokesFrom quoting (chars ++ rest) = chars.map .plain ++ strokesFrom quoting rest := by
  induction chars with
  | nil => rfl
  | cons c chars ih =>
    rw [List.forall_mem_cons] at h
    rw [List.cons_append, Words.strokesFrom_plain fun hc => absurd hc h.1.2.2.1, h.1.after, ih h.2]
    rfl

/-- A reference is taken one character after the other. -/
theorem Refers.strokesFrom (h : Refers text target rest) (hbrace : ¬ HoldsBrace ('$' :: text)) :
    strokesFrom quoting ('$' :: text) =
      .plain '$' :: (target.source.map .plain ++ strokesFrom quoting rest) := by
  rw [Words.strokesFrom_plain fun hc => absurd hc (by decide), Quoting.after_dollar,
    h.eq_source_append, strokesFrom_inert (h.isInert hbrace)]

/-- Outside single quotes a backslash and the next character are taken together, or one after the
other if the backslash escapes nothing. What comes after them stands in the same quotation. -/
theorem strokesFrom_backslash (h : quoting ≠ .single) (c : Char) (rest : List Char) :
    strokesFrom quoting ('\\' :: c :: rest) = .escaped c :: strokesFrom quoting rest ∨
      c ≠ '$' ∧ quoting.after c = quoting ∧ strokesFrom quoting ('\\' :: c :: rest) =
        .plain '\\' :: .plain c :: strokesFrom quoting rest := by
  by_cases hescapes : quoting.escapes c
  · exact .inl (Words.strokesFrom_escape hescapes rest)
  · -- The quotes are double, and the character is none of the three that can be escaped there.
    obtain rfl : quoting = .double := by
      cases quoting with
      | bare => exact absurd rfl hescapes
      | single => exact absurd rfl h
      | double => rfl
    have hescapable : c ∉ Words.escapable := fun hc => hescapes (Words.isEscapable_iff.2 hc)
    simp only [Words.escapable, List.mem_cons, List.not_mem_nil, or_false, not_or] at hescapable
    obtain ⟨hquote, hbackslash, hdollar⟩ := hescapable
    have hafter : Quoting.double.after c = .double := if_neg hquote
    refine .inr ⟨hdollar, hafter, ?_⟩
    rw [Words.strokesFrom_plain fun _ next hnext => Option.some.inj hnext ▸ hescapes]
    show _ :: strokesFrom .double (c :: rest) = _
    rw [Words.strokesFrom_plain fun hc => absurd hc hbackslash, hafter]

/-- The strokes of a character that is a piece by itself. -/
theorem strokesFrom_literal
    (h : quoting = .single ∨ (c = '\\' → rest = []) ∧
      (c = '$' → ¬ ∃ target later, Refers rest target later)) :
    strokesFrom quoting (c :: rest) = .plain c :: strokesFrom (quoting.after c) rest := by
  apply Words.strokesFrom_plain
  intro hc next hnext hescapes
  rcases h with rfl | ⟨hescape, -⟩
  · exact Bool.false_ne_true hescapes
  · simp [hescape hc] at hnext

/-! ### The same quotation at every position -/

/-- Characters that mean nothing leave the quotation as it is. -/
theorem foldl_inert {chars : List Char} (h : ∀ c ∈ chars, IsInert c) :
    (chars.map Stroke.plain).foldl Quoting.afterStroke quoting = quoting := by
  induction chars with
  | nil => rfl
  | cons c chars ih =>
    rw [List.forall_mem_cons] at h
    rw [List.map_cons, List.foldl_cons, Quoting.afterStroke, h.1.after, ih h.2]

theorem along_inert {chars : List Char} (h : ∀ c ∈ chars, IsInert c) (strokes : List Stroke) :
    along Stroke.source Quoting.afterStroke quoting (chars.map .plain ++ strokes) =
      List.replicate chars.length quoting ++
        along Stroke.source Quoting.afterStroke quoting strokes := by
  induction chars with
  | nil => rfl
  | cons c chars ih =>
    rw [List.forall_mem_cons] at h
    rw [List.map_cons, List.cons_append, along, Quoting.afterStroke, h.1.after, ih h.2]
    rfl

/-- Without braces after dollars, both readers are in the same quotation at every position. -/
theorem Decomposed.along_eq (h : Decomposed quoting text pieces) (hbrace : ¬ HoldsBrace text) :
    along Piece.source Quoting.afterPiece quoting pieces =
      along Stroke.source Quoting.afterStroke quoting (strokesFrom quoting text) := by
  induction h with
  | nil => rw [Words.strokesFrom_nil, along, along]
  | @escaped quoting c rest pieces hquoting _ ih =>
    have hrest := not_holdsBrace_of_suffix hbrace (List.suffix_append ['\\', c] rest)
    rw [along, Quoting.afterPiece, ih hrest]
    · -- The backslash stands in the same quotation as the character, whoever takes it.
      rcases strokesFrom_backslash hquoting c rest with hescaped | ⟨-, hafter, hplain⟩
      · rw [hescaped]
        rfl
      · rw [hplain, along, along, Quoting.afterStroke, Quoting.after_backslash,
          Quoting.afterStroke, hafter]
        rfl
    · simp
  | @reference quoting text target rest pieces _ hrefers _ ih =>
    have hrest := not_holdsBrace_of_suffix hbrace hrefers.suffix
    rw [hrefers.strokesFrom hbrace, along, along, Quoting.afterStroke, Quoting.after_dollar,
      along_inert (hrefers.isInert hbrace), Quoting.afterPiece, ih hrest]
    · rfl
    · simp
  | plain hplain _ ih =>
    rw [strokesFrom_literal hplain, along, along, Quoting.afterStroke, Quoting.afterPiece,
      ih (not_holdsBrace_of_suffix hbrace (List.suffix_cons _ _))]
    rfl

/-! ### Dollars that refer -/

/-- Whether pieces hold a reference after a text, in a quotation. -/
def Meets (quoting : Quoting) (pieces : List Piece) (before : List Char) (found : Quoting)
    (target : Reference) : Prop :=
  ∃ left, Comes Piece.source Quoting.afterPiece quoting pieces before found
    (.reference target :: left)

/-- Whether strokes hold a dollar by itself after a text, outside single quotes and before a text
that it refers to. -/
def Stands (quoting : Quoting) (strokes : List Stroke) (before : List Char) (found : Quoting)
    (target : Reference) : Prop :=
  found ≠ .single ∧ ∃ left rest, Comes Stroke.source Quoting.afterStroke quoting strokes before
    found (.plain '$' :: left) ∧ Refers (left.flatMap Stroke.source) target rest

/-- After a piece that is another one, a reference is met further on. -/
theorem meets_cons_iff {piece : Piece} (h : piece ≠ .reference target) :
    Meets quoting (piece :: pieces) before found target ↔
      ∃ later, before = piece.source ++ later ∧
        Meets (quoting.afterPiece piece) pieces later found target := by
  constructor
  · rintro ⟨left, hcomes⟩
    rcases Quoting.comes_cons_iff.1 hcomes with ⟨-, -, hleft⟩ | ⟨later, rfl, hlater⟩
    · exact absurd (List.cons.inj hleft).1 h
    · exact ⟨later, rfl, left, hlater⟩
  · rintro ⟨later, rfl, left, hlater⟩
    exact ⟨left, .later hlater⟩

/-- After strokes that are no dollars, a dollar stands further on. -/
theorem stands_append_iff {front strokes : List Stroke} (h : .plain '$' ∉ front) :
    Stands quoting (front ++ strokes) before found target ↔
      ∃ later, before = front.flatMap Stroke.source ++ later ∧
        Stands (front.foldl Quoting.afterStroke quoting) strokes later found target := by
  constructor
  · rintro ⟨hfound, left, rest, hcomes, hrefers⟩
    obtain ⟨later, rfl, hlater⟩ := (Quoting.comes_append_iff h).1 hcomes
    exact ⟨later, rfl, hfound, left, rest, hlater, hrefers⟩
  · rintro ⟨later, rfl, hfound, left, rest, hlater, hrefers⟩
    exact ⟨hfound, left, rest, (Quoting.comes_append_iff h).2 ⟨later, rfl, hlater⟩, hrefers⟩

/-- A dollar stands first among strokes, or further on. -/
theorem stands_cons_iff {strokes : List Stroke} :
    Stands quoting (.plain '$' :: strokes) before found target ↔
      (before = [] ∧ quoting = found ∧ quoting ≠ .single ∧
        ∃ rest, Refers (strokes.flatMap Stroke.source) target rest) ∨
      ∃ later, before = '$' :: later ∧ Stands (quoting.after '$') strokes later found target := by
  constructor
  · rintro ⟨hfound, left, rest, hcomes, hrefers⟩
    rcases Quoting.comes_cons_iff.1 hcomes with ⟨rfl, rfl, hleft⟩ | ⟨later, rfl, hlater⟩
    · obtain rfl := (List.cons.inj hleft).2
      exact .inl ⟨rfl, rfl, hfound, rest, hrefers⟩
    · exact .inr ⟨later, rfl, hfound, left, rest, hlater, hrefers⟩
  · rintro (⟨rfl, rfl, hquoting, rest, hrefers⟩ | ⟨later, rfl, hfound, left, rest, hlater, hrefers⟩)
    · exact ⟨hquoting, strokes, rest, .here, hrefers⟩
    · exact ⟨hfound, left, rest, .later hlater, hrefers⟩

/-- Pieces and strokes go on alike after a piece that is no reference and strokes of the same text
that are no dollars. -/
theorem meets_iff_of_front {piece : Piece} {strokes : List Stroke} (front : List Stroke)
    (hpiece : piece ≠ .reference target) (hfront : .plain '$' ∉ front)
    (hsource : front.flatMap Stroke.source = piece.source)
    (hafter : front.foldl Quoting.afterStroke quoting = quoting.afterPiece piece)
    (hrest : ∀ later, Meets (quoting.afterPiece piece) pieces later found target ↔
      Stands (quoting.afterPiece piece) strokes later found target) :
    Meets quoting (piece :: pieces) before found target ↔
      Stands quoting (front ++ strokes) before found target := by
  rw [meets_cons_iff hpiece, stands_append_iff hfront, hsource, hafter]
  simp only [hrest]

/-- Without braces after dollars, the pieces of a text hold a reference just where the reader of
words takes a dollar by itself, outside single quotes and before a text that it refers to. -/
theorem Decomposed.meets_iff (h : Decomposed quoting text pieces) (hbrace : ¬ HoldsBrace text) :
    Meets quoting pieces before found target ↔
      Stands quoting (strokesFrom quoting text) before found target := by
  induction h generalizing before with
  | nil => simp [Meets, Stands, Quoting.not_comes_nil]
  | @escaped quoting c rest pieces hquoting _ ih =>
    have hrest := not_holdsBrace_of_suffix hbrace (List.suffix_append ['\\', c] rest)
    rcases strokesFrom_backslash hquoting c rest with hescaped | ⟨hdollar, hafter, hplain⟩
    · rw [hescaped]
      exact meets_iff_of_front [.escaped c] (by simp) (by simp) rfl rfl
        fun _ => ih hrest
    · rw [hplain]
      refine meets_iff_of_front [.plain '\\', .plain c] (by simp) ?_ rfl ?_
        fun _ => ih hrest
      · simpa using hdollar.symm
      · simp [Quoting.afterStroke, Quoting.after_backslash, hafter, Quoting.afterPiece]
  | @reference quoting text other rest pieces hquoting hrefers _ ih =>
    have hrest := not_holdsBrace_of_suffix hbrace hrefers.suffix
    have hinert := hrefers.isInert hbrace
    have hnot : Stroke.plain '$' ∉ other.source.map Stroke.plain := by
      simpa using fun hmem => (hinert _ hmem).2.2.2 rfl
    have hsource : (other.source.map Stroke.plain).flatMap Stroke.source = other.source := by
      simp [List.flatMap_map, Stroke.source]
    -- Between its dollar and its end, a reference holds no further dollar.
    rw [hrefers.strokesFrom hbrace, stands_cons_iff, Quoting.after_dollar, List.flatMap_append,
      hsource, Words.flatMap_source_strokesFrom, ← hrefers.eq_source_append]
    simp only [stands_append_iff hnot, hsource, foldl_inert hinert]
    constructor
    · rintro ⟨left, hcomes⟩
      rcases Quoting.comes_cons_iff.1 hcomes with ⟨rfl, rfl, hleft⟩ | ⟨later, rfl, hlater⟩
      · obtain rfl : other = target := Piece.reference.inj (List.cons.inj hleft).1
        exact .inl ⟨rfl, rfl, hquoting, rest, hrefers⟩
      · exact .inr ⟨_, rfl, later, rfl, (ih hrest).1 ⟨left, hlater⟩⟩
    · rintro (⟨rfl, rfl, -, last, hother⟩ | ⟨_, rfl, later, rfl, hlater⟩)
      · obtain rfl := hrefers.unique hother
        exact ⟨pieces, .here⟩
      · obtain ⟨left, hcomes⟩ := (ih hrest).2 hlater
        exact ⟨left, .later hcomes⟩
  | @plain quoting c rest pieces hplain _ ih =>
    have hrest := not_holdsBrace_of_suffix hbrace (List.suffix_cons c rest)
    rw [strokesFrom_literal hplain]
    by_cases hdollar : c = '$'
    · subst hdollar
      -- A literal dollar stands in single quotes or before a text that it does not refer to.
      have hliteral : ¬ (before = [] ∧ quoting = found ∧ quoting ≠ .single ∧
          ∃ last, Refers rest target last) := by
        rintro ⟨-, -, hquoting, last, hrefers⟩
        exact (hplain.resolve_left hquoting).2 rfl ⟨target, last, hrefers⟩
      rw [meets_cons_iff (by simp), stands_cons_iff, Words.flatMap_source_strokesFrom,
        or_iff_right hliteral]
      simp only [← ih hrest]
      rfl
    · exact meets_iff_of_front [.plain c] (by simp) (by simpa using Ne.symm hdollar)
        rfl rfl fun _ => ih hrest

/-- Wherever pieces come to, the reader of references goes on in that quotation. -/
theorem Decomposed.eq_piecesFrom_of_comes (h : Decomposed quoting text pieces) {left : List Piece}
    (hcomes : Comes Piece.source Quoting.afterPiece quoting pieces before found left) :
    left = piecesFrom found (left.flatMap Piece.source) := by
  induction hcomes generalizing text with
  | here =>
    rw [h.flatMap_source]
    exact h.eq_piecesFrom
  | later _ ih => exact ih h.tail

/-! ### Lines without dollars -/

/-- A text without a dollar is made of literal pieces, which are kept whatever the variables are. -/
theorem Decomposed.flatMap_value (h : Decomposed quoting text pieces) (hdollar : '$' ∉ text)
    (status : Status) (lookUp : String → Option String) :
    pieces.flatMap (Piece.value status lookUp) = text := by
  induction h with
  | nil => rfl
  | escaped _ _ ih =>
    simp only [List.mem_cons, not_or] at hdollar
    rw [List.flatMap_cons, ih hdollar.2.2]
    rfl
  | reference => exact absurd List.mem_cons_self hdollar
  | plain _ _ ih =>
    rw [List.mem_cons, not_or] at hdollar
    rw [List.flatMap_cons, ih hdollar.2]
    rfl

theorem not_holdsBrace (h : '$' ∉ text) : ¬ HoldsBrace text :=
  fun hbrace => h (hbrace.subset List.mem_cons_self)

end Expansion

/-! ## Whole lines -/

namespace Quoting

open Expansion (Piece Decomposed pieces piecesFrom expand)
open Words (Stroke split splitFrom strokes)

/-- On a line without a brace after a dollar, the reader of references and the reader of words are
in the same quotation at every position, and the line holds a reference just where the reader of
words takes a dollar by itself, outside single quotes and before a text that it refers to. What the
pieces and the strokes of a line come to, the two readers do come to, in that quotation and with
that text ahead of them; it is the quotation that the reader of words would report if the line ended
there. A line without any dollar is kept as it is, and both readers leave the same quotation open at
its end. -/
theorem readers_agree (line : String) :
    (¬ Expansion.HoldsBrace line.toList →
      along Piece.source afterPiece .bare (pieces line) =
        along Stroke.source afterStroke .bare (strokes line) ∧
      ∀ before found target, Expansion.Meets .bare (pieces line) before found target ↔
        Expansion.Stands .bare (strokes line) before found target) ∧
    (∀ before found left, Comes Piece.source afterPiece .bare (pieces line) before found left →
      left = piecesFrom found (left.flatMap Piece.source)) ∧
    (∀ before found left, Comes Stroke.source afterStroke .bare (strokes line) before found left →
      Words.leftOpen (split (String.ofList before)) = found ∧
      ∃ words word, split line =
        (words ++ ·) <$> splitFrom found word (left.flatMap Stroke.source)) ∧
    ('$' ∉ line.toList →
      (∀ status lookUp, expand line status lookUp = line) ∧
      Quoting.bare.afterPieces (pieces line) = Words.leftOpen (split line)) := by
  have hpieces : Decomposed .bare line.toList (pieces line) := Expansion.decomposed_iff.2 rfl
  refine ⟨fun hbrace => ⟨hpieces.along_eq hbrace, fun _ _ _ => hpieces.meets_iff hbrace⟩,
    fun _ _ _ => hpieces.eq_piecesFrom_of_comes,
    fun _ _ _ hcomes => ⟨Words.leftOpen_split_of_comes hcomes,
      Words.exists_splitFrom_eq hcomes none⟩, fun hdollar => ⟨?_, ?_⟩⟩
  · intro status lookUp
    rw [expand, hpieces.flatMap_value hdollar, String.ofList_toList]
  · -- Where the lists of quotations end, both readers are at the end of the line.
    have halong := hpieces.along_eq (Expansion.not_holdsBrace hdollar)
    have hlast := congrArg List.getLast? halong
    rw [getLast?_along, getLast?_along, Option.some.injEq] at hlast
    rw [Words.leftOpen_split]
    exact hlast

/-- In double quotes both readers pass over a backslash that escapes nothing, and a quote in other
quotes is no quote to either of them. -/
theorem readers_agree_on_mixed_quotes :
    let line := "\x22\\\x27$A\x22\x27$B\\\x27\\$C"
    let blank := "it\x27s \\\x22"
    ¬ Expansion.HoldsBrace line.toList ∧
      along Piece.source afterPiece .bare (pieces line) =
        along Stroke.source afterStroke .bare (strokes line) ∧
      Expansion.Stands .bare (strokes line) ['\x22', '\\', '\x27'] .double (.named ['A']) ∧
      '$' ∉ blank.toList ∧ expand blank 0 (fun _ => none) = blank ∧
      Quoting.bare.afterPieces (pieces blank) = Words.leftOpen (split blank) := by
  intro line blank
  have hbrace : ¬ Expansion.HoldsBrace line.toList := by decide +kernel
  have hdollar : '$' ∉ blank.toList := by decide +kernel
  obtain ⟨halong, hmeets⟩ := (readers_agree line).1 hbrace
  obtain ⟨hexpand, hend⟩ := (readers_agree blank).2.2.2 hdollar
  have hpieces : pieces line = [.literal ['\x22'], .literal ['\\', '\x27'],
      .reference (.named ['A']), .literal ['\x22'], .literal ['\x27'], .literal ['$'],
      .literal ['B'], .literal ['\\'], .literal ['\x27'], .literal ['\\', '$'],
      .literal ['C']] := by decide +kernel
  refine ⟨hbrace, halong, (hmeets _ _ _).1 ?_, hdollar, hexpand _ _, hend⟩
  rw [hpieces]
  exact ⟨_, .later (.later .here)⟩

end Quoting

end Honeypot
