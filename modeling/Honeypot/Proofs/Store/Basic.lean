import Honeypot.Store.Volume
import Honeypot.Proofs.Path.Location
import Mathlib.Data.List.Nodup
import Mathlib.Data.Nat.Notation

/-!
# Nodes of a store

Runs of a store on which nothing is denied, and what every store in such a run has in common.

* `Store.perform`, `Store.after`: the answer to a request, and the store after a list of them.
* `Store.find?_makeDirectories`: which directories are made, and that nothing else changes.
* `Store.IsRooted`: the root is a directory, and every node is filed under plain names.
* `Store.isRooted_after`: this holds throughout every run.
-/

namespace Honeypot

/-- Entries with different keys are the keys with the values filed under them. -/
theorem Entries.mem_iff {κ β : Type} [DecidableEq κ] {key : κ} {value : β}
    {entries : List (κ × β)} (nodup : (entries.map Prod.fst).Nodup) :
    (key, value) ∈ entries ↔ find? key entries = some value := by
  induction entries with
  | nil => simp [find?]
  | cons entry rest ih =>
    obtain ⟨name, other⟩ := entry
    rw [List.map_cons, List.nodup_cons] at nodup
    by_cases h : name = key
    · subst h
      have hrest : (name, value) ∉ rest := fun hmem => nodup.1 (List.mem_map.2 ⟨_, hmem, rfl⟩)
      simp [find?, hrest, eq_comm]
    · simp [find?, h, Ne.symm h, ih nodup.2]

namespace Store

/-! ## The view of a store -/

/-- A store is seen through the nodes that it has. -/
theorem mem_keys_iff {store : Store} {location : Location} :
    location ∈ store.nodes.keys ↔ (store.find? location).isSome = true :=
  Dictionary.contains_iff.symm

@[simp]
theorem find?_empty (location : Location) :
    empty.find? location = if [] = location then some .directory else none :=
  Dictionary.find?_insert Dictionary.empty [] location Node.directory

@[simp]
theorem find?_erase (store : Store) (location other : Location) :
    find? ⟨store.nodes.erase location⟩ other =
      if location = other then none else store.find? other :=
  Dictionary.find?_erase store.nodes location other

/-- The entries of a directory are the nodes one name below it. -/
theorem mem_children_iff {store : Store} {directory : Location} {entry : Entry} :
    entry ∈ store.children directory ↔
      ∃ node, store.find? (entry.name :: directory) = some node ∧
        entry.metadata = node.metadata := by
  rw [children, List.mem_filterMap]
  constructor
  · rintro ⟨⟨location, node⟩, hmem, hentry⟩
    cases location with
    | nil => simp at hentry
    | cons name above =>
      dsimp only at hentry
      split_ifs at hentry with habove
      obtain rfl := Option.some.inj hentry
      exact ⟨node, by rw [← habove]; exact (Entries.mem_iff store.nodes.nodup_keys).1 hmem, rfl⟩
  · rintro ⟨node, hnode, hmetadata⟩
    refine ⟨(entry.name :: directory, node), (Entries.mem_iff store.nodes.nodup_keys).2 hnode, ?_⟩
    simp [← hmetadata]

/-- The entries of a directory have different names. -/
theorem nodup_map_name_children (store : Store) (directory : Location) :
    ((store.children directory).map Entry.name).Nodup := by
  have hkeys : store.nodes.entries.Pairwise fun one other => one.1 ≠ other.1 :=
    List.pairwise_map.1 store.nodes.nodup_keys
  rw [List.Nodup, List.pairwise_map, children, List.pairwise_filterMap]
  refine hkeys.imp fun {one other} hne entry hone entry' hother hname => hne ?_
  -- In one directory, entries of one name come from one location.
  obtain ⟨location, node⟩ := one
  obtain ⟨location', node'⟩ := other
  cases location with
  | nil => simp at hone
  | cons name above =>
    cases location' with
    | nil => simp at hother
    | cons name' above' =>
      dsimp only at hone hother
      split_ifs at hone hother with habove habove'
      obtain rfl := Option.some.inj hone
      obtain rfl := Option.some.inj hother
      simp only at hname
      rw [habove, habove', hname]

/-- Something lies below a location exactly if a longer location that ends with it has a node. -/
theorem hasBelow_iff {store : Store} {location : Location} :
    store.hasBelow location = true ↔
      ∃ below, (store.find? below).isSome = true ∧ below ≠ location ∧ location <:+ below := by
  simp [hasBelow, Location.isBelow, mem_keys_iff]

/-! ## Directories that are made -/

/-- Whether making a directory at `location` makes one at `other`: at the location itself, and
above it as long as nothing is there in between. -/
def IsMade (store : Store) (location other : Location) : Prop :=
  other = location ∨ (other <:+ location ∧
    ∀ between, other <:+ between → between <:+ location → between ≠ location →
      store.find? between = none)

/-- What is made on the way to a location whose directory is missing: the location, and what is
made on the way to that directory. -/
theorem isMade_cons_of_find?_eq_none {store : Store} {name : String} {above other : Location}
    (h : store.find? above = none) :
    store.IsMade (name :: above) other ↔ other = name :: above ∨ store.IsMade above other := by
  constructor
  · rintro (rfl | ⟨hsuffix, hmissing⟩)
    · exact .inl rfl
    · rcases List.suffix_cons_iff.1 hsuffix with rfl | hsuffix
      · exact .inl rfl
      · refine .inr (.inr ⟨hsuffix, fun between hother hbetween _ => ?_⟩)
        -- Above the directory, nothing is as long as the location itself.
        refine hmissing between hother (hbetween.trans (List.suffix_cons _ _)) fun heq => ?_
        have := hbetween.length_le
        rw [heq, List.length_cons] at this
        omega
  · rintro (rfl | rfl | ⟨hsuffix, hmissing⟩)
    · exact .inl rfl
    · refine .inr ⟨List.suffix_cons _ _, fun between hother hbetween hne => ?_⟩
      rcases List.suffix_cons_iff.1 hbetween with rfl | hbetween
      · exact absurd rfl hne
      · rw [hbetween.eq_of_length_le hother.length_le, h]
    · refine .inr ⟨hsuffix.trans (List.suffix_cons _ _), fun between hother hbetween hne => ?_⟩
      rcases List.suffix_cons_iff.1 hbetween with rfl | hbetween
      · exact absurd rfl hne
      · by_cases heq : between = above
        · rw [heq, h]
        · exact hmissing between hother hbetween heq

/-- Only the location itself is made if something is where its directory should be. -/
theorem isMade_cons_of_find?_isSome {store : Store} {name : String} {above other : Location}
    (h : (store.find? above).isSome = true) :
    store.IsMade (name :: above) other ↔ other = name :: above := by
  constructor
  · rintro (rfl | ⟨hsuffix, hmissing⟩)
    · rfl
    · rcases List.suffix_cons_iff.1 hsuffix with rfl | hsuffix
      · rfl
      · rw [hmissing above hsuffix (List.suffix_cons _ _) (by simp)] at h
        simp at h
  · exact .inl

/-- Making a directory makes it and those above it up to the first node that is there already.
Nothing else changes. -/
theorem find?_makeDirectories (location other : Location) (store : Store) :
    (store.IsMade location other →
      (makeDirectories location store).find? other = some .directory) ∧
    (¬ store.IsMade location other →
      (makeDirectories location store).find? other = store.find? other) := by
  induction location generalizing store with
  | nil =>
    have hmade : store.IsMade [] other ↔ other = [] :=
      ⟨fun h => h.elim id fun h => List.suffix_nil.1 h.1, .inl⟩
    rw [hmade, makeDirectories, find?_insert]
    constructor
    · rintro rfl
      exact if_pos rfl
    · exact fun h => if_neg (Ne.symm h)
  | cons name above ih =>
    rw [makeDirectories, find?_insert]
    cases habove : store.find? above with
    | some node =>
      -- The directory above is there, so no more than one is made.
      rw [isMade_cons_of_find?_isSome (by rw [habove]; rfl)]
      constructor
      · rintro rfl
        exact if_pos rfl
      · exact fun h => if_neg (Ne.symm h)
    | none =>
      -- Those above are made as well, and the induction speaks of them.
      rw [isMade_cons_of_find?_eq_none habove]
      constructor
      · rintro (rfl | h)
        · exact if_pos rfl
        · by_cases heq : name :: above = other
          · exact if_pos heq
          · rw [if_neg heq]
            exact (ih store).1 h
      · rw [not_or]
        rintro ⟨hne, h⟩
        rw [if_neg (Ne.symm hne)]
        exact (ih store).2 h

/-- What is there is kept when a directory is made elsewhere. -/
theorem find?_makeDirectories_of_isSome {store : Store} {location other : Location}
    (hother : (store.find? other).isSome = true) (hne : other ≠ location) :
    (makeDirectories location store).find? other = store.find? other := by
  refine (find?_makeDirectories location other store).2 ?_
  rintro (heq | ⟨hsuffix, hmissing⟩)
  · exact hne heq
  · rw [hmissing other (List.suffix_refl _) hsuffix hne] at hother
    simp at hother

/-! ## Requests and runs -/

/-- The answer of a store on which nothing is denied, and the store after it. -/
def perform (store : Store) (request : Request) : request.Answer × Store :=
  let step := (Volume.ofStore store).perform request
  (step.1, step.2.store)

/-- The store after a list of requests. -/
def after (store : Store) (requests : List Request) : Store :=
  requests.foldl (fun store request => (store.perform request).2) store

@[simp]
theorem guarded_ofStore {α : Type} (store : Store) (operation : Operation) (path : String)
    (outcome : Except Failure α) :
    (Volume.ofStore store).guarded operation path outcome = outcome := by
  simp [Volume.guarded, Volume.denies, Volume.ofStore]

theorem perform_readdir (store : Store) (path : String) :
    store.perform (.readdir path) = (store.readdir path, store) := by
  change ((Volume.ofStore store).readdir path, store) = _
  rw [Volume.readdir, guarded_ofStore]
  rfl

theorem perform_read (store : Store) (path : String) :
    store.perform (.read path) = (store.read path, store) := by
  change ((Volume.ofStore store).read path, store) = _
  rw [Volume.read, guarded_ofStore]
  rfl

theorem perform_stat (store : Store) (path : String) :
    store.perform (.stat path) = (store.stat path, store) := by
  change ((Volume.ofStore store).stat path, store) = _
  rw [Volume.stat, guarded_ofStore]
  rfl

theorem perform_contains (store : Store) (path : String) :
    store.perform (.contains path) = (store.contains path, store) := rfl

/-- Whether there is a directory is always told when nothing is denied. -/
theorem perform_isDirectory (store : Store) (path : String) :
    store.perform (.isDirectory path) =
      (.ok (decide (store.find? (Location.ofText path) = some .directory)), store) := by
  have hanswer : (Volume.ofStore store).isDirectory path =
      .ok (decide (store.find? (Location.ofText path) = some .directory)) := by
    rw [Volume.isDirectory, Volume.stat, guarded_ofStore]
    simp only [Volume.ofStore, stat]
    -- That there is nothing at the path counts as no directory, not as a failure.
    cases store.find? (Location.ofText path) with
    | none => simp [Failure.isNotFound]
    | some node => cases node <;> simp [Node.metadata]
  change ((Volume.ofStore store).isDirectory path, store) = _
  rw [hanswer]
  rfl

/-- A change that succeeds is made, and one that fails is not. -/
def settled (store : Store) (outcome : Except Failure Store) : Except Failure Unit × Store :=
  match outcome with
  | .ok later => (.ok (), later)
  | .error failure => (.error failure, store)

theorem perform_write (store : Store) (path : String) (content : Bytes) :
    store.perform (.write path content) = store.settled (store.write path content) := by
  change ((Volume.write _ path content).1, (Volume.write _ path content).2.store) = _
  rw [Volume.write, guarded_ofStore]
  cases h : store.write path content <;> simp [Volume.ofStore, Volume.changed, settled, h]

theorem perform_mkdir (store : Store) (path : String) :
    store.perform (.mkdir path) = store.settled (store.mkdir path) := by
  change ((Volume.mkdir _ path).1, (Volume.mkdir _ path).2.store) = _
  rw [Volume.mkdir, guarded_ofStore]
  cases h : store.mkdir path <;> simp [Volume.ofStore, Volume.changed, settled, h]

theorem perform_remove (store : Store) (path : String) :
    store.perform (.remove path) = store.settled (store.remove path) := by
  change ((Volume.remove _ path).1, (Volume.remove _ path).2.store) = _
  rw [Volume.remove, guarded_ofStore]
  cases h : store.remove path <;> simp [Volume.ofStore, Volume.changed, settled, h]

/-- What a request can do to a store: nothing, put a file into a directory, make missing
directories, or take away a file or a directory with nothing below it. -/
theorem perform_cases (store : Store) (request : Request) :
    (store.perform request).2 = store ∨
    (∃ path content, request = .write path content ∧
      store.find? (Location.ofText path).parent = some .directory ∧
      store.find? (Location.ofText path) ≠ some .directory ∧
      (store.perform request).2 = store.insert (Location.ofText path) (.file content)) ∨
    (∃ path, request = .mkdir path ∧ store.find? (Location.ofText path) = none ∧
      (store.perform request).2 = makeDirectories (Location.ofText path) store) ∨
    (∃ path, request = .remove path ∧ Location.ofText path ≠ [] ∧
      (store.find? (Location.ofText path) = some .directory →
        store.hasBelow (Location.ofText path) = false) ∧
      (store.perform request).2 = ⟨store.nodes.erase (Location.ofText path)⟩) := by
  cases request with
  | write path content =>
    rw [perform_write, write]
    cases hparent : store.find? (Location.ofText path).parent with
    | none => exact .inl rfl
    | some node =>
      cases node with
      | file _ => exact .inl rfl
      | directory =>
        -- A file may be replaced, a directory may not.
        by_cases hfile : store.find? (Location.ofText path) = some .directory
        · simp [hfile, settled]
        · exact .inr (.inl ⟨path, content, rfl, hparent, hfile, by simp [hfile, settled]⟩)
  | mkdir path =>
    rw [perform_mkdir, mkdir]
    cases hnode : store.find? (Location.ofText path) with
    | none => exact .inr (.inr (.inl ⟨path, rfl, hnode, rfl⟩))
    | some node => cases node <;> exact .inl rfl
  | remove path =>
    rw [perform_remove, remove]
    -- Three things stay: the root, what is not there, and what has something below it.
    by_cases hroot : Location.ofText path = Location.root
    · simp [hroot, settled]
    · cases hnode : store.find? (Location.ofText path) with
      | none => simp [hroot, settled]
      | some node =>
        cases node with
        | file content =>
          exact .inr (.inr (.inr ⟨path, rfl, hroot, by simp [hnode], by simp [hroot, settled]⟩))
        | directory =>
          cases hbelow : store.hasBelow (Location.ofText path) with
          | true => simp [hroot, settled]
          | false =>
            exact .inr (.inr (.inr ⟨path, rfl, hroot, fun _ => hbelow, by simp [hroot, settled]⟩))
  | _ => exact .inl rfl

/-- What holds of a store and is kept by every request holds after every run. -/
theorem after_induction {motive : Store → Prop} {store : Store} (h : motive store)
    (step : ∀ store request, motive store → motive (store.perform request).2)
    (requests : List Request) : motive (store.after requests) := by
  induction requests generalizing store with
  | nil => exact h
  | cons request requests ih => exact ih (step store request h)

@[simp]
theorem after_nil (store : Store) : store.after [] = store := rfl

@[simp]
theorem after_cons (store : Store) (request : Request) (requests : List Request) :
    store.after (request :: requests) = (store.perform request).2.after requests := rfl

theorem after_append (store : Store) (requests more : List Request) :
    store.after (requests ++ more) = (store.after requests).after more :=
  List.foldl_append

/-! ## The root and the names -/

/-- The root is a directory, and every node is filed under plain names. -/
structure IsRooted (store : Store) : Prop where
  find?_root : store.find? [] = some .directory
  isNamed : ∀ location, (store.find? location).isSome = true → location.IsNamed

theorem isRooted_empty : empty.IsRooted where
  find?_root := rfl
  isNamed location h := by
    by_cases hroot : [] = location
    · exact hroot ▸ Location.isNamed_nil
    · simp [hroot] at h

/-- Every request keeps the root a directory and the names plain. -/
theorem IsRooted.perform {store : Store} (h : store.IsRooted) (request : Request) :
    (store.perform request).2.IsRooted := by
  obtain hsame | ⟨path, content, -, hparent, hfile, hafter⟩ | ⟨path, -, hnone, hafter⟩ |
    ⟨path, -, hroot, -, hafter⟩ := store.perform_cases request
  · rwa [hsame]
  · rw [hafter]
    constructor
    · -- The root is a directory, so no file is put there.
      have hne : Location.ofText path ≠ [] := fun heq => hfile (heq ▸ h.find?_root)
      rw [find?_insert, if_neg hne]
      exact h.find?_root
    · intro location hlocation
      rw [find?_insert] at hlocation
      split_ifs at hlocation with heq
      · exact heq ▸ Location.isNamed_ofText path
      · exact h.isNamed location hlocation
  · rw [hafter]
    constructor
    · -- If it is made at all, it is made as a directory.
      by_cases hmade : store.IsMade (Location.ofText path) []
      · exact (find?_makeDirectories _ _ store).1 hmade
      · rw [(find?_makeDirectories _ _ store).2 hmade]
        exact h.find?_root
    · intro location hlocation
      by_cases hmade : store.IsMade (Location.ofText path) location
      · rcases hmade with rfl | ⟨hsuffix, -⟩
        · exact Location.isNamed_ofText path
        · exact (Location.isNamed_ofText path).of_suffix hsuffix
      · rw [(find?_makeDirectories _ _ store).2 hmade] at hlocation
        exact h.isNamed location hlocation
  · rw [hafter]
    constructor
    · -- The root is never taken away.
      rw [find?_erase, if_neg hroot]
      exact h.find?_root
    · intro location hlocation
      rw [find?_erase] at hlocation
      by_cases heq : Location.ofText path = location
      · exact heq ▸ Location.isNamed_ofText path
      · rw [if_neg heq] at hlocation
        exact h.isNamed location hlocation

/-- The path texts of the nodes are different. -/
theorem IsRooted.nodup_map_text {store : Store} (h : store.IsRooted) :
    (store.nodes.keys.map Location.text).Nodup := by
  have hnamed {location : Location} (hlocation : location ∈ store.nodes.keys) :
      location.IsNamed := h.isNamed _ (mem_keys_iff.1 hlocation)
  refine List.Nodup.map_on (fun _ hone _ hother htext => ?_) store.nodes.nodup_keys
  exact Location.text_injective (hnamed hone) (hnamed hother) htext

/-- Throughout every run the root is a directory and the names are plain. -/
theorem isRooted_after (requests : List Request) : (empty.after requests).IsRooted :=
  after_induction isRooted_empty (fun _ request h => h.perform request) requests

end Store

end Honeypot
