import Honeypot.Shell.Expansion
import Honeypot.Userland.Variables

/-!
# Names of variables

Which names a variable can be given, and which characters a name is made of, said without the tests
that the commands and the shell apply.

* `Userland.IsLetter`, `Userland.IsDigit`, `Userland.IsNameChar`: the characters of names.
* `Userland.IsIdentifier`: names that variables can be given.
* `Userland.isIdentifier_iff`, `Expansion.isNameChar_iff`: the tests find just these.
-/

namespace Honeypot

namespace Userland

/-- An ASCII letter. -/
def IsLetter (c : Char) : Prop := ('a' ≤ c ∧ c ≤ 'z') ∨ ('A' ≤ c ∧ c ≤ 'Z')

/-- An ASCII digit. -/
def IsDigit (c : Char) : Prop := '0' ≤ c ∧ c ≤ '9'

/-- A letter, a digit or an underscore. -/
def IsNameChar (c : Char) : Prop := IsLetter c ∨ IsDigit c ∨ c = '_'

/-- A letter or an underscore, and then letters, digits and underscores. -/
def IsIdentifier (name : String) : Prop :=
  ∃ first rest, name.toList = first :: rest ∧ (IsLetter first ∨ first = '_') ∧
    ∀ c ∈ rest, IsLetter c ∨ IsDigit c ∨ c = '_'

theorem isAlpha_iff {c : Char} : c.isAlpha = true ↔ IsLetter c := by
  show (decide (c.val ≥ 'A'.val ∧ c.val ≤ 'Z'.val) ||
    (decide (c.val ≥ 'a'.val) && decide (c.val ≤ 'z'.val))) = true ↔ _
  simp [IsLetter, Char.le_def, or_comm]

theorem isDigit_iff {c : Char} : c.isDigit = true ↔ IsDigit c := by
  simp [IsDigit, Char.isDigit, Char.le_def]

/-- The test for names of variables finds just these. -/
theorem isIdentifier_iff {name : String} : isIdentifier name = true ↔ IsIdentifier name := by
  unfold isIdentifier IsIdentifier
  cases hname : name.toList with
  | nil => simp
  | cons first rest =>
    simp [Char.isAlphanum, isAlpha_iff, isDigit_iff, or_assoc, and_assoc]

instance : DecidablePred IsIdentifier := fun _ => decidable_of_iff _ isIdentifier_iff

namespace IsIdentifier

variable {name : String} (h : IsIdentifier name)

include h

theorem toList_ne_nil : name.toList ≠ [] := by
  obtain ⟨first, rest, hname, -, -⟩ := h
  rw [hname]
  exact List.cons_ne_nil first rest

/-- The first character of a name is one of those that may come later. -/
theorem isNameChar : ∀ c ∈ name.toList, IsNameChar c := by
  obtain ⟨first, rest, hname, hfirst, hrest⟩ := h
  rw [hname, List.forall_mem_cons]
  exact ⟨hfirst.imp_right .inr, hrest⟩

end IsIdentifier

end Userland

namespace Expansion

/-- The shell takes just these characters for a name after a dollar. -/
theorem isNameChar_iff {c : Char} : isNameChar c = true ↔ Userland.IsNameChar c := by
  rw [isNameChar, Char.isAlphanum, Bool.or_eq_true, Bool.or_eq_true, Userland.isAlpha_iff,
    Userland.isDigit_iff, beq_iff_eq, or_assoc]
  rfl

end Expansion

/-- A name holds no equals sign, which would end it. -/
theorem Userland.IsIdentifier.equals_not_mem {name : String} (h : IsIdentifier name) :
    '=' ∉ name.toList := by
  intro hmem
  exact absurd (Expansion.isNameChar_iff.2 (h.isNameChar _ hmem)) (by decide)

end Honeypot
