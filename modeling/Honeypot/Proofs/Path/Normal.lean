import Honeypot.Store.Basic
import Honeypot.Proofs.Path.Location

/-!
# Normal forms of path texts

Two path texts lead to one location exactly if they have one normal form, so what holds of locations
can be told from normal forms.

* `Location.ofText_normalize`, `Location.normalize_normalize`: what a normal form is of.
* `Location.normalize_eq_iff`: when two path texts have one normal form.
* `Location.isBelow_iff`: which locations are below another one.
* `Location.exists_eq_append_slash_iff`: a normal form that goes on after another name and a slash
  is below the location of that name.
-/

namespace Honeypot

namespace Location

variable {one other path : String}

/-! ## Texts in normal form -/

theorem isAbsolute_text (location : Location) : isAbsolute location.text = true := by
  simp [isAbsolute, text]

theorem isAbsolute_normalize (path : String) : isAbsolute (normalize path) = true :=
  isAbsolute_text _

theorem isAbsolute_resolve (directory path : String) : isAbsolute (resolve directory path) = true :=
  isAbsolute_text _

/-- A text in normal form leads where the text did that it is the normal form of. -/
theorem ofText_normalize (path : String) : ofText (normalize path) = ofText path :=
  ofText_text (isNamed_ofText path)

@[simp]
theorem normalize_normalize (path : String) : normalize (normalize path) = normalize path :=
  congrArg text (ofText_normalize path)

/-- A resolved path is in normal form. -/
theorem normalize_resolve (directory path : String) :
    normalize (resolve directory path) = resolve directory path :=
  normalize_normalize _

/-- A path text that starts at the root is taken as it is. -/
theorem join_of_isAbsolute {path : String} (h : isAbsolute path = true) (directory : String) :
    join directory path = path := if_pos h

/-- Texts in normal form lead to the locations that they are the texts of. -/
theorem map_ofText_map_text {locations : List Location} (h : ∀ location ∈ locations,
    location.IsNamed) : (locations.map text).map ofText = locations := by
  rw [List.map_map]
  exact (List.map_congr_left fun location hmem => ofText_text (h location hmem)).trans
    (List.map_id _)

/-! ## Which texts lead where -/

/-- Two path texts have one normal form exactly if they lead to one location. -/
theorem normalize_eq_iff : normalize one = normalize other ↔ ofText one = ofText other :=
  ⟨fun h => text_injective (isNamed_ofText _) (isNamed_ofText _) h, fun h => congrArg text h⟩

/-- A path text leads to the root exactly if the root's is its normal form. -/
theorem normalize_eq_slash_iff : normalize path = "/" ↔ ofText path = [] := by
  show normalize path = normalize "/" ↔ ofText path = ofText "/"
  exact normalize_eq_iff

theorem isBelow_iff {location above : Location} :
    location.isBelow above = true ↔ above <:+ location ∧ location ≠ above := by
  rw [isBelow, Bool.and_eq_true, decide_eq_true_iff, List.isSuffixOf_iff_suffix, and_comm]

/-- A name in normal form goes on after another name and a slash exactly if that is in normal form
as well, and leads to a directory above which is not the root. -/
theorem exists_eq_append_slash_iff {above below : String} (habove : above ≠ "")
    (hbelow : normalize below = below) :
    (∃ rest, below = above ++ "/" ++ rest) ↔
      normalize above = above ∧ normalize above ≠ "/" ∧
        (ofText below).isBelow (ofText above) = true := by
  have hnamed := isNamed_ofText below
  rw [isBelow_iff]
  constructor
  · rintro ⟨rest, hrest⟩
    have htext : (ofText below).text = above ++ "/" ++ rest := hbelow.trans hrest
    obtain ⟨location, hroot, hlocation, rfl⟩ := exists_eq_text_of_append_slash hnamed habove htext
    have hlead : location.lead = location.text ++ "/" := by rw [lead, if_neg hroot]
    have hne : rest ≠ "" := by
      rintro rfl
      rw [← hlead, String.append_empty] at htext
      exact text_ne_lead hlocation hnamed hroot htext
    rw [Ne, normalize_eq_slash_iff, normalize, ofText_text hlocation]
    refine ⟨rfl, hroot, ?_⟩
    exact (exists_text_eq_lead_append_iff hlocation hnamed).1 ⟨rest, hne, hlead ▸ htext⟩
  · rintro ⟨hnormal, hroot, hproper⟩
    obtain ⟨rest, -, htext⟩ :=
      (exists_text_eq_lead_append_iff (isNamed_ofText above) hnamed).2 hproper
    -- Below the root, the texts begin with that of the directory and a slash.
    have hlead : (ofText above).lead = normalize above ++ "/" :=
      congrArg (· ++ "/") (if_neg (mt normalize_eq_slash_iff.2 hroot))
    refine ⟨rest, ?_⟩
    rw [← hbelow, normalize, htext, hlead, hnormal]

end Location

end Honeypot
