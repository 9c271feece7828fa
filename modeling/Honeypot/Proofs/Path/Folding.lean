import Honeypot.Proofs.Path.Normal

/-!
# Ways to fold a path text

A path text can be folded on a stack that holds the names with the innermost one on top, it can be
left alone if it is in normal form already, and what stands before a slash can be folded first. All
of these come to the text of the location that the path text denotes.

* `Location.isNormal`: the test for normal forms, which looks at the pieces of a text.
* `Location.fold`, `Location.foldUnlessNormal`: folding on a stack, with and without the test.
* `Location.isNormal_iff`: the test finds the texts that folding leaves as they are.
* `Location.foldings_agree`: all the ways lead to one text.

## References

- [SPEC] `SPEC_FULL.md`: §4.2, Virtual Process Context; §6, External Interfaces
-/

namespace Honeypot

namespace Location

/-- Whether a path text is in normal form: a slash alone, or plain pieces after a first slash. -/
def isNormal (path : String) : Bool :=
  path = "/" ||
    (isAbsolute path &&
      (pieces (String.ofList path.toList.tail)).all fun piece =>
        piece ≠ "" ∧ piece ≠ "." ∧ piece ≠ "..")

/-- A stack of names, the innermost one last, after a further piece of a path. -/
def pile (names : List String) (piece : String) : List String :=
  if piece = "" ∨ piece = "." then names
  else if piece = ".." then names.dropLast
  else names ++ [piece]

/-- A path text folded on a stack. -/
def fold (path : String) : String :=
  "/" ++ String.intercalate "/" ((pieces path).foldl pile [])

/-- A path text folded on a stack, unless it is in normal form. -/
def foldUnlessNormal (path : String) : String :=
  if isNormal path then path else fold path

variable {path : String}

/-! ## Stacks -/

theorem pile_eq (names : List String) (piece : String) :
    pile names piece = (enter names.reverse piece).reverse := by
  unfold pile enter
  split_ifs <;> simp

/-- The stack holds the names of the location that is entered piece by piece. -/
theorem foldl_pile (names pieces : List String) :
    pieces.foldl pile names = (pieces.foldl enter names.reverse).reverse := by
  induction pieces generalizing names with
  | nil => simp
  | cons piece pieces ih =>
    -- The stack is the location upside down.
    rw [List.foldl_cons, ih, pile_eq, List.reverse_reverse, List.foldl_cons]

/-- A path text is folded on a stack to its normal form. -/
theorem fold_eq_normalize (path : String) : fold path = normalize path := by
  rw [fold, foldl_pile]
  rfl

/-! ## The test for normal forms -/

/-- A text that starts at the root is a slash and what comes after it. -/
theorem eq_slash_append_of_isAbsolute (h : isAbsolute path = true) :
    path = "" ++ "/" ++ String.ofList path.toList.tail := by
  cases hchars : path.toList with
  | nil => simp [isAbsolute, hchars] at h
  | cons c chars =>
    obtain rfl : c = '/' := by simpa [isAbsolute, hchars] using h
    exact String.toList_inj.1 (by simp [hchars])

/-- Before the first slash of a text that starts at the root there is an empty piece. -/
theorem pieces_of_isAbsolute (h : isAbsolute path = true) :
    pieces path = "" :: pieces (String.ofList path.toList.tail) :=
  (congrArg pieces (eq_slash_append_of_isAbsolute h)).trans (pieces_append_slash "" _)

/-- Plain pieces are entered by going down, one after the other. -/
theorem foldl_enter_of_isNamed {names : List String} (h : IsNamed names) (location : Location) :
    names.foldl enter location = names.reverse ++ location := by
  induction names generalizing location with
  | nil => rfl
  | cons name names ih =>
    rw [isNamed_cons] at h
    rw [List.foldl_cons, enter_of_isName h.1, ih h.2]
    simp

/-- The text of a location passes the test. -/
theorem isNormal_text {location : Location} (h : location.IsNamed) :
    isNormal location.text = true := by
  by_cases hroot : location = []
  · subst hroot
    rfl
  · -- After the empty piece before the first slash, the pieces of the text are the names.
    have hpieces := pieces_of_isAbsolute (isAbsolute_text location)
    rw [pieces_text h hroot, List.cons.injEq] at hpieces
    rw [isNormal, isAbsolute_text, ← hpieces.2, Bool.true_and, Bool.or_eq_true, List.all_eq_true]
    refine .inr fun name hname => decide_eq_true ?_
    obtain ⟨hne, hdot, hdots, -⟩ := h name (List.mem_reverse.1 hname)
    exact ⟨hne, hdot, hdots⟩

/-- A text that passes the test is in normal form. -/
theorem normalize_of_isNormal (h : isNormal path = true) : normalize path = path := by
  rw [isNormal, Bool.or_eq_true, Bool.and_eq_true, decide_eq_true_iff, List.all_eq_true] at h
  rcases h with rfl | ⟨habsolute, hplain⟩
  · rfl
  · generalize hnames : pieces (String.ofList path.toList.tail) = names at hplain
    have hnamed : IsNamed names := by
      intro name hname
      obtain ⟨hne, hdot, hdots⟩ := of_decide_eq_true (hplain name hname)
      exact ⟨hne, hdot, hdots, not_mem_of_mem_pieces (hnames ▸ hname)⟩
    have hreverse : IsNamed names.reverse := fun name hname =>
      hnamed name (List.mem_reverse.1 hname)
    have hne : names ≠ [] := by
      rw [← hnames, pieces, Ne, List.map_eq_nil_iff]
      exact Text.pieces_ne_nil _ _
    have hpieces : pieces path = "" :: names := hnames ▸ pieces_of_isAbsolute habsolute
    have hlocation : ofText path = names.reverse := by
      rw [ofText, hpieces, List.foldl_cons]
      exact (foldl_enter_of_isNamed hnamed root).trans (List.append_nil _)
    -- The text has the pieces of the path, and so it is the path.
    apply pieces_injective
    rw [normalize, hlocation, pieces_text hreverse (by simpa using hne), List.reverse_reverse,
      hpieces]

theorem isNormal_iff : isNormal path = true ↔ normalize path = path :=
  ⟨normalize_of_isNormal, fun h => h ▸ isNormal_text (isNamed_ofText path)⟩

/-! ## All ways -/

/-- What stands before a slash can be folded first. -/
theorem normalize_append_slash (path rest : String) :
    normalize (path ++ "/" ++ rest) = normalize (normalize path ++ "/" ++ rest) := by
  rw [normalize_eq_iff, ofText_append_slash, ofText_append_slash, ofText_normalize]

/-- The test does not show in what is folded. -/
theorem foldUnlessNormal_eq_normalize (path : String) : foldUnlessNormal path = normalize path := by
  unfold foldUnlessNormal
  split
  · next h => exact (normalize_of_isNormal h).symm
  · exact fold_eq_normalize path

/-- A path text read from a directory is entered from where it starts. -/
theorem resolve_eq_text (directory path : String) :
    resolve directory path =
      text ((pieces path).foldl enter (if isAbsolute path then root else ofText directory)) := by
  unfold resolve join normalize
  split_ifs
  · rfl
  · rw [ofText_append_slash]

/-- Folding leaves a path text as it is exactly if the test finds it in normal form, so it makes no
difference whether the test is made before. What is folded is in normal form, and folding it again
does not change it. The part before a slash can be folded first. A path text that is read from a
directory, put after it and folded on a stack of its own, is the normal form of the path text, or of
the directory and the path text with a slash between them: it is entered from the root or from the
directory. -/
theorem foldings_agree (path rest directory : String) :
    ((isNormal path = true ↔ fold path = path) ∧ fold path = normalize path ∧
      foldUnlessNormal path = normalize path) ∧
    (isNormal (normalize path) = true ∧ normalize (normalize path) = normalize path) ∧
    normalize (path ++ "/" ++ rest) = normalize (normalize path ++ "/" ++ rest) ∧
    fold (join directory rest) = resolve directory rest ∧
    resolve directory rest =
      (if isAbsolute rest then normalize rest else normalize (directory ++ "/" ++ rest)) ∧
    resolve directory rest =
      text ((pieces rest).foldl enter (if isAbsolute rest then root else ofText directory)) := by
  refine ⟨⟨?_, fold_eq_normalize path, foldUnlessNormal_eq_normalize path⟩,
    ⟨isNormal_text (isNamed_ofText path), normalize_normalize path⟩,
    normalize_append_slash path rest, fold_eq_normalize _, ?_, resolve_eq_text directory rest⟩
  · rw [fold_eq_normalize]
    exact isNormal_iff
  · exact apply_ite normalize _ _ _

end Location

end Honeypot
