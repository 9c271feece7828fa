import Honeypot.Path.Location
import Honeypot.Proofs.Text.Split
import Mathlib.Tactic.SplitIfs

/-!
# Locations and their texts

Path texts only lead to locations whose names are plain: not empty, not a dot or two, without a
slash. On these a location and its text determine each other.

* `isNamed_ofText`: every path text leads to a location of plain names.
* `ofText_text`, `text_injective`: a location of plain names is the one that its text denotes.
* `ofText_append_slash`: what stands after a slash is entered from what stands before it.
* `resolve_text`: a plain name read from a directory is the text of the location below it.
* `exists_text_eq_lead_append_iff`, `eq_cons_iff_text_eq`: what is below a directory, and what is
  in it, can be told from what the path texts begin with.
* `exists_eq_text_of_append_slash`: a path text in normal form goes on from a slash only after one
  that is in normal form itself.

## References

- [SPEC] `SPEC_FULL.md`: §6, External Interfaces
-/

namespace Honeypot

namespace Location

/-- A name that a path can go down by. -/
def IsName (name : String) : Prop :=
  name ≠ "" ∧ name ≠ "." ∧ name ≠ ".." ∧ '/' ∉ name.toList

/-- A location of names that a path can go down by. -/
def IsNamed (location : Location) : Prop :=
  ∀ name ∈ location, IsName name

instance (name : String) : Decidable (IsName name) := by
  unfold IsName
  infer_instance

instance (location : Location) : Decidable location.IsNamed := by
  unfold IsNamed
  infer_instance

@[simp]
theorem isNamed_nil : IsNamed [] := by
  simp [IsNamed]

@[simp]
theorem isNamed_cons {name : String} {above : Location} :
    IsNamed (name :: above) ↔ IsName name ∧ IsNamed above :=
  List.forall_mem_cons

/-- Every location above one of plain names is one of plain names. -/
theorem IsNamed.of_suffix {location above : Location} (h : location.IsNamed)
    (hsuffix : above <:+ location) : above.IsNamed :=
  fun name hname => h name (hsuffix.subset hname)

/-! ## From texts to locations -/

/-- A plain name is entered by going down. -/
theorem enter_of_isName {name : String} (h : IsName name) (location : Location) :
    location.enter name = name :: location := by
  simp [enter, h.1, h.2.1, h.2.2.1]

/-- Entering a piece without a slash keeps names plain. -/
theorem isNamed_enter {location : Location} (h : location.IsNamed) {piece : String}
    (hpiece : '/' ∉ piece.toList) : (location.enter piece).IsNamed := by
  unfold enter
  split_ifs with hstay hup
  · exact h
  · exact h.of_suffix (List.tail_suffix location)
  · rw [not_or] at hstay
    exact isNamed_cons.2 ⟨⟨hstay.1, hstay.2, hup, hpiece⟩, h⟩

/-- Entering pieces without a slash keeps names plain. -/
theorem isNamed_foldl_enter {location : Location} (h : location.IsNamed) {pieces : List String}
    (hpieces : ∀ piece ∈ pieces, '/' ∉ piece.toList) : (pieces.foldl enter location).IsNamed := by
  induction pieces generalizing location with
  | nil => exact h
  | cons piece pieces ih =>
    rw [List.forall_mem_cons] at hpieces
    exact ih (isNamed_enter h hpieces.1) hpieces.2

/-- No piece of a path text holds a slash. -/
theorem not_mem_of_mem_pieces {path piece : String} (h : piece ∈ pieces path) :
    '/' ∉ piece.toList := by
  obtain ⟨chars, hchars, rfl⟩ := List.mem_map.1 h
  rw [String.toList_ofList]
  exact Text.not_mem_of_mem_pieces hchars

/-- Every path text leads to a location of plain names. -/
theorem isNamed_ofText (path : String) : (ofText path).IsNamed :=
  isNamed_foldl_enter isNamed_nil fun _ => not_mem_of_mem_pieces

/-- A slash cuts a path text into the pieces before it and those after it. -/
theorem pieces_append_slash (directory path : String) :
    pieces (directory ++ "/" ++ path) = pieces directory ++ pieces path := by
  have h : (directory ++ "/" ++ path).toList = directory.toList ++ '/' :: path.toList := by
    simp
  rw [pieces, h, Text.pieces_append_cons, List.map_append]
  rfl

/-- What stands after a slash is entered from what stands before it. -/
theorem ofText_append_slash (directory path : String) :
    ofText (directory ++ "/" ++ path) = (pieces path).foldl enter (ofText directory) := by
  rw [ofText, pieces_append_slash, List.foldl_append]
  rfl

/-- Path texts with the same pieces are one text. -/
theorem pieces_injective : Function.Injective pieces := by
  intro one other h
  have hchars := (List.map_inj_right fun _ _ => String.ofList_inj.1).1 h
  exact String.toList_inj.1 (Text.pieces_injective '/' hchars)

/-- What has no slash is one piece. -/
theorem pieces_of_not_mem {name : String} (h : '/' ∉ name.toList) : pieces name = [name] := by
  rw [pieces, Text.pieces_of_not_mem h]
  simp

/-- A plain name after a slash goes down by it. -/
theorem ofText_append_name {name : String} (h : IsName name) (directory : String) :
    ofText (directory ++ "/" ++ name) = name :: ofText directory := by
  rw [ofText_append_slash, pieces_of_not_mem h.2.2.2]
  exact enter_of_isName h _

/-! ## From locations to texts -/

@[simp]
theorem text_root : text [] = "/" := rfl

/-- What the path texts of everything in a directory begin with: its own text with a slash. Only
after the root there is no further slash. -/
def lead (directory : Location) : String :=
  (if directory = [] then "" else directory.text) ++ "/"

/-- The text of a location ends with its name. -/
theorem text_cons (name : String) (above : Location) :
    text (name :: above) = above.lead ++ name := by
  unfold lead text
  rw [List.reverse_cons]
  by_cases h : above = []
  · subst h
    simp
  · rw [if_neg h, String.intercalate_append_of_ne_nil (by simpa using h) (by simp)]
    simp [String.append_assoc]

/-- The text of a location of plain names denotes it. -/
theorem ofText_text {location : Location} (h : location.IsNamed) :
    ofText location.text = location := by
  induction location with
  | nil => rfl
  | cons name above ih =>
    rw [isNamed_cons] at h
    rw [text_cons, lead, ofText_append_name h.1]
    split_ifs with habove
    · subst habove
      rfl
    · rw [ih h.2]

/-- Locations of plain names with one text are one location. -/
theorem text_injective {one other : Location} (hone : one.IsNamed) (hother : other.IsNamed)
    (h : one.text = other.text) : one = other := by
  rw [← ofText_text hone, h, ofText_text hother]

/-- A plain name read from the text of a directory gives the text of the location below it. -/
theorem resolve_text {name : String} {above : Location} (hname : IsName name)
    (habove : above.IsNamed) : resolve above.text name = text (name :: above) := by
  -- Without a slash at its front, the name is read from the directory.
  have hrelative : isAbsolute name = false := by
    have h := hname.2.2.2
    unfold isAbsolute
    cases hchars : name.toList with
    | nil => rfl
    | cons c rest =>
      rw [hchars, List.mem_cons, not_or] at h
      simpa using Ne.symm h.1
  rw [resolve, join, hrelative, normalize]
  simp only [Bool.false_eq_true, if_false]
  rw [ofText_append_name hname, ofText_text habove]

/-! ## What path texts begin with -/

/-- The pieces of the text of a location are its names, the outermost first, after the slash that
it begins with. -/
theorem pieces_text {location : Location} (h : location.IsNamed) (hroot : location ≠ []) :
    pieces location.text = "" :: location.reverse := by
  induction location with
  | nil => exact absurd rfl hroot
  | cons name above ih =>
    rw [isNamed_cons] at h
    rw [text_cons, lead, pieces_append_slash, pieces_of_not_mem h.1.2.2.2, List.reverse_cons]
    split_ifs with habove
    · subst habove
      rfl
    · rw [ih h.2 habove, List.cons_append]

/-- After what the texts in a directory begin with, there are the names further down. -/
theorem pieces_lead_append {directory : Location} (h : directory.IsNamed) (rest : String) :
    pieces (directory.lead ++ rest) = "" :: directory.reverse ++ pieces rest := by
  rw [lead, pieces_append_slash]
  split_ifs with hroot
  · subst hroot
    rfl
  · rw [pieces_text h hroot]

/-- The names of a location whose text begins with what those in a directory begin with. -/
theorem reverse_eq_of_text_eq {directory below : Location} (hdirectory : directory.IsNamed)
    (hbelow : below.IsNamed) {rest : String} (hrest : rest ≠ "")
    (h : below.text = directory.lead ++ rest) :
    below.reverse = directory.reverse ++ pieces rest := by
  have hroot : below ≠ [] := by
    rintro rfl
    -- Of the text of the root, nothing is left after a slash.
    have hlength := congrArg String.length h
    rw [text_root, lead, String.length_append, String.length_append] at hlength
    have hone : "/".length = 1 := rfl
    have hpos : rest.length ≠ 0 := mt String.length_eq_zero_iff.1 hrest
    omega
  have hpieces := congrArg pieces h
  rw [pieces_text hbelow hroot, pieces_lead_append hdirectory] at hpieces
  exact (List.cons.inj hpieces).2

/-- A location is below a directory exactly if its text begins with what those in the directory
begin with, and goes on. -/
theorem exists_text_eq_lead_append_iff {directory below : Location}
    (hdirectory : directory.IsNamed) (hbelow : below.IsNamed) :
    (∃ rest, rest ≠ "" ∧ below.text = directory.lead ++ rest) ↔
      directory <:+ below ∧ below ≠ directory := by
  constructor
  · rintro ⟨rest, hrest, htext⟩
    have hreverse := reverse_eq_of_text_eq hdirectory hbelow hrest htext
    rw [← List.reverse_inj, List.reverse_reverse, List.reverse_append, List.reverse_reverse]
      at hreverse
    subst hreverse
    refine ⟨List.suffix_append _ _, fun heq => ?_⟩
    exact Text.pieces_ne_nil _ _ (by simpa [pieces] using List.self_eq_append_left.1 heq.symm)
  · rintro ⟨⟨front, rfl⟩, hne⟩
    -- Name by name, from the outermost one below the directory on.
    induction front with
    | nil => exact absurd rfl hne
    | cons name front ih =>
      rw [List.cons_append, isNamed_cons] at hbelow
      rw [List.cons_append, text_cons]
      by_cases hfront : front = []
      · subst hfront
        exact ⟨name, hbelow.1.1, rfl⟩
      · have hproper : front ++ directory ≠ directory :=
          fun heq => hfront (List.self_eq_append_left.1 heq.symm)
        obtain ⟨rest, -, htext⟩ := ih hbelow.2 hproper
        refine ⟨rest ++ "/" ++ name, by simp, ?_⟩
        rw [lead, if_neg (by simp [hfront]), htext]
        simp only [String.append_assoc]

/-- A location is in a directory under a name exactly if its text is what those in the directory
begin with, and the name without a further slash. -/
theorem eq_cons_iff_text_eq {directory below : Location} (hdirectory : directory.IsNamed)
    (hbelow : below.IsNamed) {name : String} (hname : name ≠ "") (hslash : '/' ∉ name.toList) :
    below = name :: directory ↔ below.text = directory.lead ++ name := by
  constructor
  · rintro rfl
    exact text_cons name directory
  · intro h
    have hreverse := reverse_eq_of_text_eq hdirectory hbelow hname h
    rw [pieces_of_not_mem hslash, ← List.reverse_cons, List.reverse_inj] at hreverse
    exact hreverse

/-- Below the root, what the texts in a directory begin with is itself no text of a location. -/
theorem text_ne_lead {directory other : Location} (hdirectory : directory.IsNamed)
    (hother : other.IsNamed) (hroot : directory ≠ []) : other.text ≠ directory.lead := by
  intro h
  have hpieces := congrArg pieces h
  have hempty : pieces "" = [""] := rfl
  rw [← String.append_empty (s := directory.lead), pieces_lead_append hdirectory, hempty] at hpieces
  by_cases hne : other = []
  · subst hne
    have hslash : pieces (text []) = ["", ""] := rfl
    rw [hslash] at hpieces
    simp [hroot] at hpieces
  · -- The last piece is empty, and so is no name.
    rw [pieces_text hother hne, List.cons_append, List.cons.injEq] at hpieces
    have hlast : "" ∈ other := by
      rw [← List.mem_reverse, hpieces.2]
      simp
    exact (hother _ hlast).1 rfl

/-- What stands before a slash in the text of a location is the text of a location below the root,
unless it is nothing. -/
theorem exists_eq_text_of_append_slash {location : Location} (h : location.IsNamed)
    {before rest : String} (hbefore : before ≠ "") (htext : location.text = before ++ "/" ++ rest) :
    ∃ above : Location, above ≠ [] ∧ above.IsNamed ∧ before = above.text := by
  have hroot : location ≠ [] := by
    rintro rfl
    -- The text of the root is a slash alone.
    have hlength := congrArg String.length htext
    rw [text_root, String.length_append, String.length_append] at hlength
    have hpos : before.length ≠ 0 := mt String.length_eq_zero_iff.1 hbefore
    omega
  have hpieces := congrArg pieces htext
  rw [pieces_text h hroot, pieces_append_slash] at hpieces
  obtain ⟨first, names, hfirst⟩ :=
    List.exists_cons_of_ne_nil (l := pieces before) (by simp [pieces, Text.pieces_ne_nil])
  rw [hfirst, List.cons_append, List.cons.injEq] at hpieces
  obtain ⟨rfl, hnames⟩ := hpieces
  have hne : names ≠ [] := by
    rintro rfl
    exact hbefore (pieces_injective (hfirst.trans rfl))
  have hnamed : IsNamed names.reverse := by
    intro name hname
    refine h name (List.mem_reverse.1 ?_)
    rw [hnames]
    exact List.mem_append_left _ (List.mem_reverse.1 hname)
  refine ⟨names.reverse, by simpa using hne, hnamed, pieces_injective ?_⟩
  rw [hfirst, pieces_text hnamed (by simpa using hne), List.reverse_reverse]

end Location

end Honeypot
