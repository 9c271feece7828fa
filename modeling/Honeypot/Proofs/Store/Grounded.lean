import Honeypot.Proofs.Store.Basic
import Mathlib.Data.List.Infix

/-!
# Nodes that stand in directories

A store is grounded if every node but the root stands in a directory. Files that are put in and
nodes that are taken away keep it so. A directory that is made keeps it so exactly if there is no
file on the way to it.

* `Store.Grounded`, `Store.HasFileAbove`, `Request.IsBelowFile`: the condition and what breaks it.
* `Store.Grounded.find?_above`: what is above a node of a grounded store are directories.
* `Store.grounded_perform_iff`: which requests keep a store grounded.
* `Store.Clear`: runs without requests that break it; `Store.clear_iff_grounded` characterizes
  them by the stores they go through.
-/

namespace Honeypot

namespace Store

/-- Every node but the root stands in a directory. -/
def Grounded (store : Store) : Prop :=
  ∀ name above, (store.find? (name :: above)).isSome = true → store.find? above = some .directory

/-- A file is properly above a location. -/
def HasFileAbove (store : Store) (location : Location) : Prop :=
  ∃ above, above <:+ location ∧ above ≠ location ∧
    ∃ content, store.find? above = some (.file content)

instance (store : Store) (location : Location) :
    Decidable (∃ content, store.find? location = some (.file content)) :=
  match h : store.find? location with
  | some (.file content) => .isTrue ⟨content, rfl⟩
  | some .directory => .isFalse (by simp)
  | none => .isFalse (by simp)

instance (store : Store) (location : Location) : Decidable (store.HasFileAbove location) :=
  decidable_of_iff
    (∃ above ∈ location.tails, above ≠ location ∧
      ∃ content, store.find? above = some (.file content))
    (by simp only [HasFileAbove, List.mem_tails])

theorem grounded_empty : empty.Grounded := by
  intro name above h
  simp at h

/-! ## Above a node -/

variable {store : Store}

/-- What is properly above a node of a grounded store are directories. -/
theorem Grounded.find?_above (h : store.Grounded) {location above : Location}
    (hlocation : (store.find? location).isSome = true) (hsuffix : above <:+ location)
    (hne : above ≠ location) : store.find? above = some .directory := by
  induction location with
  | nil => exact absurd (List.suffix_nil.1 hsuffix) hne
  | cons name location ih =>
    have hparent := h name location hlocation
    rcases List.suffix_cons_iff.1 hsuffix with heq | hsuffix
    · exact absurd heq hne
    · by_cases heq : above = location
      · rw [heq, hparent]
      · exact ih (by rw [hparent]; rfl) hsuffix heq

/-- Nothing is below what is no directory of a grounded store. -/
theorem Grounded.find?_below (h : store.Grounded) {location below : Location}
    (hlocation : store.find? location ≠ some .directory) (hsuffix : location <:+ below)
    (hne : below ≠ location) : store.find? below = none := by
  cases hbelow : store.find? below with
  | none => rfl
  | some node =>
    exact absurd (h.find?_above (by rw [hbelow]; rfl) hsuffix hne.symm) hlocation

/-- In a grounded store no file is above a node. -/
theorem Grounded.not_hasFileAbove (h : store.Grounded) {location : Location}
    (hlocation : (store.find? location).isSome = true) : ¬ store.HasFileAbove location := by
  rintro ⟨above, hsuffix, hne, content, hfile⟩
  rw [h.find?_above hlocation hsuffix hne] at hfile
  simp at hfile

/-- What is properly above a location in a directory are directories. -/
theorem Grounded.find?_of_parent (h : store.Grounded) {location above : Location}
    (hparent : store.find? location.parent = some .directory) (hsuffix : above <:+ location)
    (hne : above ≠ location) : store.find? above = some .directory := by
  cases location with
  | nil => exact absurd (List.suffix_nil.1 hsuffix) hne
  | cons name location =>
    have hdirectory : store.find? location = some .directory := hparent
    rcases List.suffix_cons_iff.1 hsuffix with heq | hsuffix
    · exact absurd heq hne
    · by_cases heq : above = location
      · rw [heq, hdirectory]
      · exact h.find?_above (by rw [hdirectory]; rfl) hsuffix heq

/-- No file is above a location in a directory. -/
theorem Grounded.not_hasFileAbove_of_parent (h : store.Grounded) {location : Location}
    (hparent : store.find? location.parent = some .directory) : ¬ store.HasFileAbove location := by
  rintro ⟨above, hsuffix, hne, content, hfile⟩
  rw [h.find?_of_parent hparent hsuffix hne] at hfile
  simp at hfile

/-! ## What a request keeps -/

/-- A file put into a directory stands in it, and nothing was below it. -/
theorem Grounded.insert (h : store.Grounded) {location : Location} {content : Bytes}
    (hparent : store.find? location.parent = some .directory)
    (hlocation : store.find? location ≠ some .directory) :
    (store.insert location (.file content)).Grounded := by
  intro name above hnode
  rw [find?_insert] at hnode
  have habove : store.find? above = some .directory := by
    split_ifs at hnode with heq
    · rw [heq] at hparent
      exact hparent
    · exact h name above hnode
  -- What stands in a directory does not stand in the file that was put in.
  have hne : location ≠ above := by
    rintro rfl
    exact hlocation habove
  rw [find?_insert, if_neg hne, habove]

/-- A node with nothing below it is taken away from under no other. -/
theorem Grounded.erase (h : store.Grounded) {location : Location}
    (hbelow : store.find? location = some .directory → store.hasBelow location = false) :
    Grounded ⟨store.nodes.erase location⟩ := by
  intro name above hnode
  rw [find?_erase] at hnode
  split_ifs at hnode with heq
  · simp at hnode
  · have habove := h name above hnode
    -- A directory that is taken away has nothing in it.
    have hne : location ≠ above := by
      rintro rfl
      have hhas : store.hasBelow location = true :=
        hasBelow_iff.2 ⟨name :: location, hnode, by simp, List.suffix_cons _ _⟩
      rw [hbelow habove] at hhas
      simp at hhas
    rw [find?_erase, if_neg hne, habove]

/-- Where there is no file above a missing directory, those made above it fill the way to it. -/
theorem Grounded.find?_makeDirectories_above (h : store.Grounded) {location above : Location}
    (hfile : ¬ store.HasFileAbove location) (hsuffix : above <:+ location) :
    (makeDirectories location store).find? above = some .directory := by
  by_cases hmade : store.IsMade location above
  · exact (find?_makeDirectories _ _ store).1 hmade
  rw [(find?_makeDirectories _ _ store).2 hmade]
  -- Something is there between the two, and what is above that are directories.
  simp only [IsMade, not_or, not_and, not_forall] at hmade
  obtain ⟨between, habove, hbetween, hproper, hnode⟩ := hmade.2 hsuffix
  cases hnode' : store.find? between with
  | none => exact absurd hnode' hnode
  | some node =>
    cases node with
    | file content => exact absurd ⟨between, hbetween, hproper, content, hnode'⟩ hfile
    | directory =>
      by_cases heq : above = between
      · rw [heq, hnode']
      · exact h.find?_above (by rw [hnode']; rfl) habove heq

/-- Directories made where no file is on the way stand in directories. -/
theorem Grounded.makeDirectories (h : store.Grounded) {location : Location}
    (hfile : ¬ store.HasFileAbove location) :
    (makeDirectories location store).Grounded := by
  intro name above hnode
  by_cases hmade : store.IsMade location (name :: above)
  · -- A directory that was made is on the way to the location, and so is what is above it.
    have hsuffix : name :: above <:+ location := by
      rcases hmade with rfl | ⟨hsuffix, -⟩
      · exact List.suffix_refl _
      · exact hsuffix
    exact h.find?_makeDirectories_above hfile ((List.suffix_cons _ _).trans hsuffix)
  · rw [(find?_makeDirectories _ _ store).2 hmade] at hnode
    have habove := h name above hnode
    by_cases hmade : store.IsMade location above
    · exact (find?_makeDirectories _ _ store).1 hmade
    · rw [(find?_makeDirectories _ _ store).2 hmade, habove]

/-- A directory made below a file leaves the first directory on the way in no directory. -/
theorem not_grounded_makeDirectories {location : Location}
    (hfile : store.HasFileAbove location) : ¬ (Store.makeDirectories location store).Grounded := by
  intro hgrounded
  obtain ⟨above, ⟨front, rfl⟩, hne, content, hcontent⟩ := hfile
  -- The file is there, so it is kept. The location itself is made, and below a file.
  have hkept : (Store.makeDirectories (front ++ above) store).find? above =
      some (.file content) := by
    rw [find?_makeDirectories_of_isSome (by rw [hcontent]; rfl) hne, hcontent]
  have hlocation : (Store.makeDirectories (front ++ above) store).find? (front ++ above) =
      some .directory := (find?_makeDirectories _ _ store).1 (.inl rfl)
  have hdirectory := hgrounded.find?_above (by rw [hlocation]; rfl) (List.suffix_append _ _) hne
  rw [hkept] at hdirectory
  simp at hdirectory

end Store

/-- A request to make a directory below a file. -/
def Request.IsBelowFile (store : Store) : Request → Prop
  | .mkdir path => store.HasFileAbove (Location.ofText path)
  | _ => False

instance (store : Store) (request : Request) : Decidable (request.IsBelowFile store) := by
  cases request <;> unfold Request.IsBelowFile <;> infer_instance

namespace Store

/-- A request keeps a store grounded exactly if it makes no directory below a file. -/
theorem grounded_perform_iff {store : Store} (h : store.Grounded) (request : Request) :
    (store.perform request).2.Grounded ↔ ¬ request.IsBelowFile store := by
  obtain hsame | ⟨path, content, rfl, hparent, hfile, hafter⟩ | ⟨path, rfl, -, hafter⟩ |
    ⟨path, rfl, -, hbelow, hafter⟩ := store.perform_cases request
  · rw [hsame]
    refine iff_of_true h fun hbelow => ?_
    cases request with
    | mkdir path =>
      -- Nothing changed, so the location is taken, and no file is above what is there.
      rw [perform_mkdir, mkdir] at hsame
      cases hnode : store.find? (Location.ofText path) with
      | none =>
        simp only [hnode, settled] at hsame
        rw [← hsame] at h
        exact not_grounded_makeDirectories hbelow h
      | some node => exact h.not_hasFileAbove (by rw [hnode]; rfl) hbelow
    | _ => exact hbelow
  · rw [hafter]
    exact iff_of_true (h.insert hparent hfile) id
  · rw [hafter]
    exact ⟨fun hgrounded hbelow => not_grounded_makeDirectories hbelow hgrounded,
      h.makeDirectories⟩
  · rw [hafter]
    exact iff_of_true (h.erase hbelow) id

/-- No request of a run makes a directory below what is a file at that time. -/
def Clear : Store → List Request → Prop
  | _, [] => True
  | store, request :: requests =>
    ¬ request.IsBelowFile store ∧ (store.perform request).2.Clear requests

instance decidableClear : (store : Store) → (requests : List Request) →
    Decidable (store.Clear requests)
  | _, [] => .isTrue trivial
  | store, request :: requests =>
    have := decidableClear (store.perform request).2 requests
    inferInstanceAs (Decidable (¬ request.IsBelowFile store ∧ _))

/-- The beginning of a clear run is clear. -/
theorem Clear.of_isPrefix {store : Store} {earlier requests : List Request}
    (h : store.Clear requests) (hearlier : earlier <+: requests) : store.Clear earlier := by
  induction earlier generalizing store requests with
  | nil => trivial
  | cons request earlier ih =>
    obtain ⟨later, rfl⟩ := hearlier
    exact ⟨h.1, ih h.2 (List.prefix_append _ _)⟩

/-- A clear run ends with a grounded store if it starts with one. -/
theorem Clear.grounded_after {store : Store} {requests : List Request} (h : store.Clear requests)
    (hgrounded : store.Grounded) : (store.after requests).Grounded := by
  induction requests generalizing store with
  | nil => exact hgrounded
  | cons request requests ih => exact ih h.2 ((grounded_perform_iff hgrounded request).2 h.1)

/-- A run is clear exactly if every store that it goes through is grounded. -/
theorem clear_iff_grounded {store : Store} (hgrounded : store.Grounded)
    (requests : List Request) :
    store.Clear requests ↔
      ∀ earlier, earlier <+: requests → (store.after earlier).Grounded := by
  constructor
  · exact fun h earlier hearlier => (h.of_isPrefix hearlier).grounded_after hgrounded
  · intro h
    induction requests generalizing store with
    | nil => trivial
    | cons request requests ih =>
      -- The first request leads to one of the stores of the run.
      have hnext : (store.perform request).2.Grounded :=
        h [request] (List.prefix_append [request] requests)
      refine ⟨(grounded_perform_iff hgrounded request).1 hnext, ih hnext fun earlier hearlier => ?_⟩
      exact h (request :: earlier) (List.cons_prefix_cons.2 ⟨rfl, hearlier⟩)

end Store

end Honeypot
