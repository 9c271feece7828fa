import Honeypot.Shell.Expansion

/-!
# The two scanners of a command line, character by character

A command line is read twice: once for the references in it and once for its words. Both readers
follow the quotes, each in its own way. Here is what each of them does with one character, by the
quotation that the character stands in.

* `Quoting.after`: the quotation after a character that is not escaped.
* `Expansion.piecesFrom_plain`, `Expansion.piecesFrom_escape`, `Expansion.piecesFrom_reference` and
  the other lemmas beside them: one step of the reader of references.
* `Words.splitFrom_single`, `Words.splitFrom_escape` and the other lemmas beside them: one step of
  the reader of words.
-/

namespace Honeypot

/-- The quotation after a character that is not escaped: a quote opens one or closes its own. -/
def Quoting.after (c : Char) : Quoting → Quoting
  | .bare => if c = '\x27' then .single else if c = '\x22' then .double else .bare
  | .single => if c = '\x27' then .bare else .single
  | .double => if c = '\x22' then .bare else .double

/-- A dollar opens and closes no quotation. -/
theorem Quoting.after_dollar (quoting : Quoting) : quoting.after '$' = quoting := by
  cases quoting <;> rfl

theorem Quoting.after_backslash (quoting : Quoting) : quoting.after '\\' = quoting := by
  cases quoting <;> rfl

namespace Expansion

variable {quoting : Quoting} {c : Char} {rest : List Char}

@[simp] theorem piecesFrom_nil (quoting : Quoting) : piecesFrom quoting [] = [] := by
  rw [piecesFrom]

/-- Outside single quotes a backslash and the character after it are kept together. -/
theorem piecesFrom_escape (h : quoting ≠ .single) (c : Char) (rest : List Char) :
    piecesFrom quoting ('\\' :: c :: rest) = .literal ['\\', c] :: piecesFrom quoting rest := by
  rw [piecesFrom.eq_def]
  simp [h]

/-- A character is literal if it stands in single quotes or neither escapes nor refers. -/
theorem piecesFrom_plain (h : quoting = .single ∨ c ≠ '\\' ∧ c ≠ '$') (rest : List Char) :
    piecesFrom quoting (c :: rest) = .literal [c] :: piecesFrom (quoting.after c) rest := by
  -- The reader has a case of its own for the last character of a line.
  cases rest with
  | nil => simp [piecesFrom]
  | cons next rest =>
    have hescape : ¬(c = '\\' ∧ quoting ≠ .single) :=
      fun hc => h.elim hc.2 fun hplain => hplain.1 hc.1
    have hrefer : ¬(c = '$' ∧ quoting ≠ .single) :=
      fun hc => h.elim hc.2 fun hplain => hplain.2 hc.1
    rw [piecesFrom.eq_def]
    dsimp only
    rw [if_neg hescape, if_neg hrefer]
    by_cases hquote : c = '\x27'
    · subst hquote
      cases quoting <;> simp [Quoting.after]
    · by_cases hdouble : c = '\x22'
      · subst hdouble
        cases quoting <;> simp [Quoting.after]
      · cases quoting <;> simp [Quoting.after, hquote, hdouble]

/-- The last character of a line is literal, even if it would escape the next one. -/
theorem piecesFrom_singleton (quoting : Quoting) (c : Char) :
    piecesFrom quoting [c] = [.literal [c]] := by
  rw [piecesFrom]

/-- Outside single quotes a dollar makes the reference that the text after it begins with. -/
theorem piecesFrom_reference (h : quoting ≠ .single) {text rest : List Char} {target : Reference}
    (hreference : reference? text = some (target, rest)) :
    piecesFrom quoting ('$' :: text) = .reference target :: piecesFrom quoting rest := by
  cases text with
  | nil => simp [reference?, named?] at hreference
  | cons c text =>
    rw [piecesFrom.eq_def]
    dsimp only
    rw [if_neg (by decide), if_neg (by decide), if_neg (by simp), if_pos ⟨rfl, h⟩]
    split
    · next found after hfound =>
      rw [hreference] at hfound
      obtain ⟨rfl, rfl⟩ := Prod.mk.inj (Option.some.inj hfound)
      rfl
    · next hnone =>
      rw [hreference] at hnone
      exact absurd hnone (Option.some_ne_none _)

/-- A dollar that makes no reference is literal. -/
theorem piecesFrom_dollar (h : reference? rest = none) :
    piecesFrom quoting ('$' :: rest) = .literal ['$'] :: piecesFrom (quoting.after '$') rest := by
  by_cases hsingle : quoting = .single
  · exact piecesFrom_plain (.inl hsingle) rest
  rw [Quoting.after_dollar]
  cases rest with
  | nil => rw [piecesFrom_singleton, piecesFrom_nil]
  | cons c rest =>
    rw [piecesFrom.eq_def]
    dsimp only
    rw [if_neg (by decide), if_neg (by decide), if_neg (by simp), if_pos ⟨rfl, hsingle⟩]
    split
    · next hfound =>
      rw [h] at hfound
      exact absurd hfound.symm (Option.some_ne_none _)
    · rfl

end Expansion

namespace Words

variable {word : Option (List Char)} {c : Char} {rest : List Char}

-- Only here is the scanner itself unfolded.
attribute [local simp] splitFrom

@[simp] theorem push_some (c : Char) (word : List Char) : push c (some word) = some (c :: word) :=
  rfl

@[simp] theorem begun_some (word : List Char) : begun (some word) = some word := rfl

@[simp] theorem begun_none : begun none = some [] := rfl

@[simp] theorem finished_some (word : List Char) :
    finished (some word) = [String.ofList word.reverse] := rfl

/-- A character in single quotes stands for itself. -/
theorem splitFrom_single (h : c ≠ '\x27') :
    splitFrom .single word (c :: rest) = splitFrom .single (push c word) rest := by
  rw [splitFrom, if_neg h]

theorem splitFrom_close_single :
    splitFrom .single word ('\x27' :: rest) = splitFrom .bare word rest := by
  rw [splitFrom, if_pos rfl]

theorem splitFrom_open_single :
    splitFrom .bare word ('\x27' :: rest) = splitFrom .single (begun word) rest := by
  rw [splitFrom, if_pos rfl]
  rintro _ _ ⟨⟩

/-- Outside quotes a backslash escapes anything. -/
theorem splitFrom_escape :
    splitFrom .bare word ('\\' :: c :: rest) = splitFrom .bare (push c word) rest := by
  rw [splitFrom]

theorem splitFrom_open_double :
    splitFrom .bare word ('\x22' :: rest) = splitFrom .double (begun word) rest := by
  rw [splitFrom, if_neg (by decide), if_pos rfl]
  rintro _ _ ⟨⟩

theorem splitFrom_close_double :
    splitFrom .double word ('\x22' :: rest) = splitFrom .bare word rest := by
  rw [splitFrom, if_pos rfl]
  rintro _ _ ⟨⟩

/-- In double quotes a character stands for itself unless it closes them or escapes. -/
theorem splitFrom_double (hquote : c ≠ '\x22')
    (hescape : c = '\\' → ∀ next ∈ rest.head?, ¬ isEscapable next) :
    splitFrom .double word (c :: rest) = splitFrom .double (push c word) rest := by
  by_cases hbackslash : c = '\\'
  · subst hbackslash
    cases rest with
    | nil => simp
    | cons next rest => rw [splitFrom, if_neg (hescape rfl next rfl)]
  · rw [splitFrom, if_neg hquote]
    rintro _ _ rfl
    exact absurd rfl hbackslash

/-- Outside quotes a character stands for itself unless it is a blank, a quote or a backslash. -/
theorem splitFrom_bare (hblank : ¬ Text.isBlank c) (hsingle : c ≠ '\x27') (hdouble : c ≠ '\x22')
    (hbackslash : c ≠ '\\') :
    splitFrom .bare word (c :: rest) = splitFrom .bare (push c word) rest := by
  rw [splitFrom, if_neg hsingle, if_neg hdouble, if_neg hbackslash, if_neg hblank]
  rintro _ _ rfl
  exact absurd rfl hbackslash

/-- A blank ends the word before it. -/
theorem splitFrom_blank (h : Text.isBlank c) :
    splitFrom .bare word (c :: rest) = (finished word ++ ·) <$> splitFrom .bare none rest := by
  have hne {other : Char} (hother : Text.isBlank other = false) : c ≠ other := by
    rintro rfl
    simp [h] at hother
  have hbackslash : c ≠ '\\' := hne (by decide)
  rw [splitFrom, if_neg (hne (by decide)), if_neg (hne (by decide)), if_neg hbackslash, if_pos h]
  rintro _ _ rfl
  exact absurd rfl hbackslash

end Words

end Honeypot
