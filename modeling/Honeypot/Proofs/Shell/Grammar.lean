import Honeypot.Proofs.Shell.Scanning

/-!
# The grammar of command lines

A command line is cut into words one character at a time. What lines there are, and which words
they have, is said here by a grammar, without a reader: a word is a row of pieces, and a line is a
row of words with blanks around them. Every text is such a line or leaves a quotation open, and the
reader tells which.

Each kind of text is a relation between an input, what is left of the input after the text, and what
the text stands for. So a text may depend on the character after it, as a backslash in double quotes
does.

* `Words.Item`, `Words.Piece`, `Words.Word`, `Words.Line`: the grammar, from items in double quotes
  to lines.
* `Words.Open`, `Words.LeavesOpen`: quotations without an end, and lines that have one.
* `Words.line_or_leavesOpen`: there are no other texts.
* `Words.split_iff`: the reader of words accepts the lines of the grammar, with their words.

## References

- [SPEC] `SPEC_FULL.md`: §10, Supplementary Features
-/

namespace Honeypot.Words

variable {α : Type}

/-! ## The grammar -/

/-- Texts of a kind, one after the other. -/
inductive Row (part : List Char → List Char → α → Prop) : List Char → List Char → List α → Prop
  | nil {rest} : Row part rest rest []
  | cons {input more rest a as} :
      part input more a → Row part more rest as → Row part input rest (a :: as)

/-- The characters that a backslash escapes in double quotes. -/
def escapable : List Char := ['\x22', '\\', '$']

/-- An item in double quotes: a backslash with a character that it escapes there, or another
character. A backslash is another character where it escapes nothing. -/
inductive Item : List Char → List Char → Char → Prop
  | escaped {c rest} : c ∈ escapable → Item ('\\' :: c :: rest) rest c
  | plain {c rest} : c ≠ '\x22' → (c = '\\' → ∀ next ∈ rest.head?, next ∉ escapable) →
      Item (c :: rest) rest c

/-- Whether a character outside quotes stands for itself. -/
def IsBare (c : Char) : Prop :=
  ¬ Text.isBlank c ∧ c ≠ '\x27' ∧ c ≠ '\x22' ∧ c ≠ '\\'

/-- A piece of a word. -/
inductive Piece : List Char → List Char → List Char → Prop
  | bare {c rest} : IsBare c → Piece (c :: rest) rest [c]
  | escaped {c rest} : Piece ('\\' :: c :: rest) rest [c]
  /-- A backslash at the end of the input. -/
  | trailing : Piece ['\\'] [] []
  | single {value rest} : '\x27' ∉ value → Piece ('\x27' :: (value ++ '\x27' :: rest)) rest value
  | double {input rest value} : Row Item input ('\x22' :: rest) value →
      Piece ('\x22' :: input) rest value

/-- A word: one piece or more. -/
inductive Word : List Char → List Char → List Char → Prop
  | pieces {input rest value values} : Row Piece input rest (value :: values) →
      Word input rest (value :: values).flatten

/-- Whether a text consists of blanks. -/
def IsBlank (text : List Char) : Prop :=
  ∀ c ∈ text, Text.isBlank c

/-- Whether a word may end before a text. -/
def EndsWord (rest : List Char) : Prop :=
  ∀ next ∈ rest.head?, Text.isBlank next

/-- A line with its words. -/
inductive Line : List Char → List String → Prop
  | blank {text} : IsBlank text → Line text []
  | word {blanks input rest value words} : IsBlank blanks → Word input rest value →
      EndsWord rest → Line rest words → Line (blanks ++ input) (String.ofList value :: words)

/-! ### Quotations without an end -/

/-- A quotation up to the end of the text, which does not close it. -/
def Open (quotation : Unterminated) (text : List Char) : Prop :=
  ∃ inner, text = quotation.quote :: inner ∧
    match quotation with
    | .single => '\x27' ∉ inner
    | .double => ∃ value, Row Item inner [] value

/-- A blank, or a piece with what it stands for. -/
inductive Element : List Char → List Char → Option (List Char) → Prop
  | blank {c rest} : Text.isBlank c → Element (c :: rest) rest none
  | piece {input rest value} : Piece input rest value → Element input rest (some value)

/-- Whether pieces and blanks of a line are followed by a quotation without an end. -/
def LeavesOpen (quotation : Unterminated) (line : List Char) : Prop :=
  ∃ rest elements, Row Element line rest elements ∧ Open quotation rest

/-! ## What the reader makes of the grammar -/

variable {input rest : List Char} {word : Option (List Char)}

theorem isEscapable_iff {c : Char} : isEscapable c ↔ c ∈ escapable := by
  simp [isEscapable, escapable, or_assoc]

/-- An item in double quotes is read as its character. -/
theorem Item.splitFrom {c : Char} (h : Item input rest c) :
    splitFrom .double word input = splitFrom .double (push c word) rest := by
  cases h with
  | escaped hc => rw [Words.splitFrom, if_pos (isEscapable_iff.2 hc)]
  | plain hquote hescape =>
    apply splitFrom_double hquote
    intro hc next hnext
    rw [isEscapable_iff]
    exact hescape hc next hnext

/-- Items in double quotes are read as their characters. -/
theorem splitFrom_items {value : List Char} (h : Row Item input rest value) (word : List Char) :
    splitFrom .double (some word) input =
      splitFrom .double (some (value.reverse ++ word)) rest := by
  -- In quotes a word is always begun, so the characters so far are a list.
  induction h generalizing word with
  | nil => rfl
  | cons hitem _ ih =>
    rw [hitem.splitFrom, push_some, ih, List.reverse_cons, List.append_assoc]
    rfl

/-- Characters in single quotes are read as they are. -/
theorem splitFrom_literal {value : List Char} (h : '\x27' ∉ value) (word rest : List Char) :
    splitFrom .single (some word) (value ++ rest) =
      splitFrom .single (some (value.reverse ++ word)) rest := by
  induction value generalizing word with
  | nil => rfl
  | cons c value ih =>
    rw [List.mem_cons, not_or] at h
    rw [List.cons_append, splitFrom_single (Ne.symm h.1), push_some, ih h.2, List.reverse_cons,
      List.append_assoc]
    rfl

/-- A piece is read as what it stands for, and begins a word if there is none. -/
theorem Piece.splitFrom {value : List Char} (h : Piece input rest value)
    (word : Option (List Char)) :
    splitFrom .bare word input = splitFrom .bare (some (value.reverse ++ word.getD [])) rest := by
  cases h with
  | bare hc => exact splitFrom_bare hc.1 hc.2.1 hc.2.2.1 hc.2.2.2
  | escaped => exact splitFrom_escape
  | trailing => simp [Words.splitFrom, begun]
  | single hvalue =>
    rw [splitFrom_open_single, begun, splitFrom_literal hvalue, splitFrom_close_single]
  | double hitems =>
    rw [splitFrom_open_double, begun, splitFrom_items hitems, splitFrom_close_double]

/-- Pieces are read as what they stand for together. -/
theorem splitFrom_pieces {values : List (List Char)} (h : Row Piece input rest values)
    (word : List Char) :
    splitFrom .bare (some word) input =
      splitFrom .bare (some (values.flatten.reverse ++ word)) rest := by
  induction h generalizing word with
  | nil => rfl
  | cons hpiece _ ih =>
    rw [hpiece.splitFrom, Option.getD_some, ih, List.flatten_cons, List.reverse_append,
      List.append_assoc]

/-- A word is read as what it stands for. -/
theorem Word.splitFrom {value : List Char} (h : Word input rest value) :
    splitFrom .bare none input = splitFrom .bare (some value.reverse) rest := by
  cases h with
  | pieces hrow =>
    cases hrow with
    | cons hpiece hpieces =>
      rw [hpiece.splitFrom, splitFrom_pieces hpieces, List.flatten_cons, List.reverse_append]
      simp

/-- Blanks before a word are skipped. -/
theorem splitFrom_blanks {blanks : List Char} (h : IsBlank blanks) (rest : List Char) :
    splitFrom .bare none (blanks ++ rest) = splitFrom .bare none rest := by
  induction blanks with
  | nil => rfl
  | cons c blanks ih =>
    rw [IsBlank, List.forall_mem_cons] at h
    rw [List.cons_append, splitFrom_blank h.1, ih h.2]
    exact id_map _

/-- Where a word may end, it is the first one of the words. -/
theorem splitFrom_endsWord (h : EndsWord rest) (value : List Char) :
    splitFrom .bare (some value.reverse) rest =
      (String.ofList value :: ·) <$> splitFrom .bare none rest := by
  cases rest with
  | nil => simp [splitFrom, finished, Functor.map, Except.map]
  | cons c rest =>
    have hblank : Text.isBlank c := h c rfl
    rw [splitFrom_blank hblank, splitFrom_blank hblank, finished_some, List.reverse_reverse]
    cases splitFrom .bare none rest with
    | ok words => rfl
    | error quotation => rfl

/-- A line is read as its words. -/
theorem Line.splitFrom {text : List Char} {words : List String} (h : Line text words) :
    splitFrom .bare none text = .ok words := by
  induction h with
  | @blank text hblank =>
    have hskip := splitFrom_blanks hblank []
    rw [List.append_nil] at hskip
    rw [hskip, Words.splitFrom]
    rfl
  | word hblanks hword hends _ ih =>
    rw [splitFrom_blanks hblanks, hword.splitFrom, splitFrom_endsWord hends, ih]
    rfl

/-- A quotation without an end is an error of the reader. -/
theorem Open.splitFrom {quotation : Unterminated} {text : List Char} (h : Open quotation text)
    (word : Option (List Char)) : splitFrom .bare word text = .error quotation := by
  obtain ⟨inner, rfl, hinner⟩ := h
  cases quotation with
  | single =>
    have hliteral := splitFrom_literal hinner (word.getD []) []
    rw [List.append_nil] at hliteral
    rw [Unterminated.quote, splitFrom_open_single, begun, hliteral, Words.splitFrom]
  | double =>
    obtain ⟨value, hitems⟩ := hinner
    rw [Unterminated.quote, splitFrom_open_double, begun, splitFrom_items hitems, Words.splitFrom]

/-- A line that leaves a quotation open is an error of the reader. -/
theorem LeavesOpen.splitFrom {quotation : Unterminated} {line : List Char}
    (h : LeavesOpen quotation line) (word : Option (List Char)) :
    splitFrom .bare word line = .error quotation := by
  obtain ⟨rest, elements, hrow, hopen⟩ := h
  induction hrow generalizing word with
  | nil => exact hopen.splitFrom word
  | cons helement _ ih =>
    cases helement with
    | blank hc =>
      rw [splitFrom_blank hc, ih none hopen]
      rfl
    | piece hpiece =>
      rw [hpiece.splitFrom]
      exact ih _ hopen

/-! ## All texts -/

/-- Unless a quote closes the double quotes, an item comes next. -/
theorem exists_item {c : Char} (h : c ≠ '\x22') (rest : List Char) :
    ∃ later d, Item (c :: rest) later d ∧ later.length ≤ rest.length := by
  by_cases hescape : c = '\\' ∧ ∃ next ∈ rest.head?, next ∈ escapable
  · obtain ⟨rfl, next, hnext, hescapable⟩ := hescape
    obtain ⟨later, rfl⟩ := List.head?_eq_some_iff.1 hnext
    exact ⟨later, next, .escaped hescapable, Nat.le_succ _⟩
  · refine ⟨rest, c, .plain h fun hc next hnext hescapable => ?_, Nat.le_refl _⟩
    exact hescape ⟨hc, next, hnext, hescapable⟩

/-- In double quotes there are items up to a quote, or up to the end of the text. -/
theorem exists_items (text : List Char) :
    ∃ value rest, Row Item text rest value ∧ rest.length ≤ text.length ∧
      (rest = [] ∨ rest.head? = some '\x22') := by
  -- On the length, as an item takes one character or two.
  induction hlength : text.length using Nat.strongRecOn generalizing text with
  | ind length ih =>
    subst hlength
    cases text with
    | nil => exact ⟨[], [], .nil, Nat.le_refl _, .inl rfl⟩
    | cons c text =>
      by_cases hquote : c = '\x22'
      · subst hquote
        exact ⟨[], _, .nil, Nat.le_refl _, .inr rfl⟩
      · obtain ⟨later, d, hitem, hle⟩ := exists_item hquote text
        obtain ⟨value, rest, hrow, hrest, hend⟩ := ih _ (Nat.lt_succ_of_le hle) later rfl
        exact ⟨d :: value, rest, .cons hitem hrow, Nat.le_succ_of_le (Nat.le_trans hrest hle), hend⟩

/-- A text begins with a blank, a piece or a quotation without an end. -/
theorem exists_element {text : List Char} (h : text ≠ []) :
    (∃ rest element, Element text rest element ∧ rest.length < text.length) ∨
      ∃ quotation, Open quotation text := by
  obtain ⟨c, rest, rfl⟩ := List.exists_cons_of_ne_nil h
  -- The first character tells which of them it is, and only quotes have to be looked for an end.
  by_cases hblank : Text.isBlank c
  · exact .inl ⟨rest, none, .blank hblank, Nat.lt_succ_self _⟩
  by_cases hsingle : c = '\x27'
  · subst hsingle
    by_cases hclosed : '\x27' ∈ rest
    · obtain ⟨value, later, rfl, hvalue⟩ := List.eq_append_cons_of_mem hclosed
      refine .inl ⟨later, _, .piece (.single hvalue), ?_⟩
      simp only [List.length_cons, List.length_append]
      omega
    · exact .inr ⟨.single, rest, rfl, hclosed⟩
  by_cases hdouble : c = '\x22'
  · subst hdouble
    obtain ⟨value, later, hitems, hle, hend⟩ := exists_items rest
    rcases hend with rfl | hclosed
    · exact .inr ⟨.double, rest, rfl, value, hitems⟩
    · obtain ⟨later, rfl⟩ := List.head?_eq_some_iff.1 hclosed
      exact .inl ⟨later, _, .piece (.double hitems), Nat.lt_succ_of_lt hle⟩
  by_cases hbackslash : c = '\\'
  · subst hbackslash
    cases rest with
    | nil => exact .inl ⟨[], _, .piece .trailing, Nat.lt_succ_self _⟩
    | cons next rest => exact .inl ⟨rest, _, .piece .escaped, Nat.lt_add_of_pos_right Nat.two_pos⟩
  · exact .inl ⟨rest, _, .piece (.bare ⟨hblank, hsingle, hdouble, hbackslash⟩),
      Nat.lt_succ_self _⟩

/-- A text goes on with blanks and pieces to its end, or to a quotation without an end. -/
theorem exists_elements (text : List Char) :
    (∃ elements, Row Element text [] elements) ∨ ∃ quotation, LeavesOpen quotation text := by
  induction hlength : text.length using Nat.strongRecOn generalizing text with
  | ind length ih =>
    subst hlength
    by_cases hne : text = []
    · subst hne
      exact .inl ⟨_, .nil⟩
    rcases exists_element hne with ⟨rest, element, helement, hshorter⟩ | ⟨quotation, hopen⟩
    · rcases ih _ hshorter rest rfl with ⟨elements, hrow⟩ | ⟨quotation, left, elements, hrow, hopen⟩
      · exact .inl ⟨_, .cons helement hrow⟩
      · exact .inr ⟨quotation, left, _, .cons helement hrow, hopen⟩
    · exact .inr ⟨quotation, text, [], .nil, hopen⟩

/-- A blank before a line changes nothing. -/
theorem Line.blank_cons {c : Char} {text : List Char} {words : List String} (h : Line text words)
    (hc : Text.isBlank c) : Line (c :: text) words := by
  cases h with
  | blank htext => exact .blank (List.forall_mem_cons.2 ⟨hc, htext⟩)
  | word hblanks hword hends hline =>
    rw [← List.cons_append]
    exact .word (List.forall_mem_cons.2 ⟨hc, hblanks⟩) hword hends hline

/-- Before a line a piece makes the first word longer, or it is a word of its own. -/
theorem Line.exists_piece_append {value : List Char} {words : List String} (h : Line rest words)
    (hpiece : Piece input rest value) : ∃ words, Line input words := by
  have hnone : IsBlank [] := List.forall_mem_nil _
  have halone (hends : EndsWord rest) : ∃ words, Line input words :=
    ⟨_, .word hnone (.pieces (.cons hpiece .nil)) hends h⟩
  cases h with
  | blank hrest => exact halone fun next hnext => hrest next (List.mem_of_mem_head? hnext)
  | @word blanks input' rest' value' words hblanks hword hends hline =>
    cases blanks with
    | nil =>
      cases hword with
      | pieces hpieces =>
        exact ⟨_, .word hnone (.pieces (.cons hpiece hpieces)) hends hline⟩
    | cons c blanks =>
      -- Blanks keep the piece apart from the word after them.
      refine halone fun next hnext => ?_
      obtain rfl : c = next := Option.some.inj hnext
      exact hblanks c List.mem_cons_self

/-- Blanks and pieces make a line. -/
theorem exists_line_of_elements {text : List Char} {elements : List (Option (List Char))}
    (h : Row Element text [] elements) : ∃ words, Line text words := by
  -- From the end of the text: every element stands before a line already.
  generalize hrest : ([] : List Char) = rest at h
  induction h with
  | nil => exact ⟨[], .blank (by simp [IsBlank, ← hrest])⟩
  | cons helement _ ih =>
    obtain ⟨words, hline⟩ := ih hrest
    cases helement with
    | blank hc => exact ⟨words, hline.blank_cons hc⟩
    | piece hpiece => exact hline.exists_piece_append hpiece

/-- Every text is a line or leaves a quotation open. -/
theorem line_or_leavesOpen (text : List Char) :
    (∃ words, Line text words) ∨ ∃ quotation, LeavesOpen quotation text :=
  (exists_elements text).imp (fun ⟨_, hrow⟩ => exists_line_of_elements hrow) id

/-! ## The reader and the grammar -/

/-- The reader of words gives words exactly if the text is a line with these words, and it reports
a quotation exactly if the text leaves that quotation open. So no line has two readings. -/
theorem split_iff (text : String) :
    (∀ words, split text = .ok words ↔ Line text.toList words) ∧
      ∀ quotation, split text = .error quotation ↔ LeavesOpen quotation text.toList := by
  refine ⟨fun words => ⟨fun hsplit => ?_, Line.splitFrom⟩, fun quotation => ⟨fun hsplit => ?_,
    fun hopen => hopen.splitFrom none⟩⟩
  · rcases line_or_leavesOpen text.toList with ⟨found, hline⟩ | ⟨quotation, hopen⟩
    · have hfound : split text = .ok found := hline.splitFrom
      rw [hsplit, Except.ok.injEq] at hfound
      rwa [hfound]
    · have herror : split text = .error quotation := hopen.splitFrom none
      simp [hsplit] at herror
  · rcases line_or_leavesOpen text.toList with ⟨words, hline⟩ | ⟨found, hopen⟩
    · have hwords : split text = .ok words := hline.splitFrom
      simp [hsplit] at hwords
    · have hfound : split text = .error found := hopen.splitFrom none
      rw [hsplit, Except.error.injEq] at hfound
      rwa [hfound]

end Honeypot.Words
