import Honeypot.Proofs.Process.Lockstep
import Honeypot.Proofs.Text.Order
import Mathlib.Data.List.Nodup

/-!
# Registrations

A registry shows of its registrations the last one of every name, and nothing of their order. Its
names are those that something was registered under, in the order of their bytes.

* `Entries.IsLatest`, `Dictionary.find?_ofList_eq_some_iff`: what is filed after entries were put in
  one after the other.
* `Dictionary.find?_ofList_swap`: neighbours under different keys can be exchanged.
* `Registry.pairwise_names`, `Registry.mem_names_iff`, `Registry.names_congr`: the names of a
  registry are determined by what is found in it.
* `Registry.execute_congr`: so is what its commands do.

## References

- [SPEC] `SPEC_FULL.md`: §4.1, Command Registry
-/

namespace Honeypot

variable {κ β : Type}

/-! ## Entries put in one after the other -/

/-- Whether a value is the last one that a list of entries has for a key. -/
def Entries.IsLatest (entries : List (κ × β)) (key : κ) (value : β) : Prop :=
  ∃ before after, entries = before ++ (key, value) :: after ∧ ∀ later ∈ after, later.1 ≠ key

/-- The last entry for a key is the first of all entries, or it comes after that. -/
theorem Entries.isLatest_cons_iff {entry : κ × β} {entries : List (κ × β)} {key : κ} {value : β} :
    IsLatest (entry :: entries) key value ↔
      IsLatest entries key value ∨ entry = (key, value) ∧ ∀ later ∈ entries, later.1 ≠ key := by
  constructor
  · rintro ⟨before, after, hentries, hafter⟩
    cases before with
    | nil =>
      obtain ⟨rfl, rfl⟩ := List.cons.inj hentries
      exact .inr ⟨rfl, hafter⟩
    | cons first before =>
      obtain ⟨-, rfl⟩ := List.cons.inj hentries
      exact .inl ⟨before, after, rfl, hafter⟩
  · rintro (⟨before, after, rfl, hafter⟩ | ⟨rfl, hafter⟩)
    · exact ⟨entry :: before, after, rfl, hafter⟩
    · exact ⟨[], entries, rfl, hafter⟩

/-- There is a last entry for every key that has one. -/
theorem Entries.exists_isLatest_iff {entries : List (κ × β)} {key : κ} :
    (∃ value, IsLatest entries key value) ↔ ∃ entry ∈ entries, entry.1 = key := by
  induction entries with
  | nil => simp [IsLatest]
  | cons entry entries ih =>
    simp only [isLatest_cons_iff, exists_or, ih, List.exists_mem_cons_iff]
    by_cases hlater : ∃ later ∈ entries, later.1 = key
    · exact iff_of_true (.inl hlater) (.inr hlater)
    · rw [or_iff_right hlater, or_iff_left hlater]
      push Not at hlater
      constructor
      · rintro ⟨value, rfl, -⟩
        rfl
      · rintro rfl
        exact ⟨entry.2, rfl, hlater⟩

namespace Dictionary

variable [DecidableEq κ] {dict one other : Dictionary κ β} {entries : List (κ × β)} {key : κ}
  {value : β}

/-- Dictionaries in which the same is filed under every key still are such after entries were put
in. -/
theorem find?_insertAll_congr (h : ∀ key, one.find? key = other.find? key) (key : κ) :
    (one.insertAll entries).find? key = (other.insertAll entries).find? key := by
  induction entries generalizing one other with
  | nil => exact h key
  | cons entry entries ih =>
    apply ih
    intro name
    rw [find?_insert, find?_insert, h]

/-- After entries were put in, the last one for a key is filed, or what was filed before if there is
none. -/
theorem find?_insertAll_eq_some_iff :
    (dict.insertAll entries).find? key = some value ↔
      Entries.IsLatest entries key value ∨
        (∀ entry ∈ entries, entry.1 ≠ key) ∧ dict.find? key = some value := by
  induction entries generalizing dict with
  | nil =>
    have hnone : ¬ Entries.IsLatest ([] : List (κ × β)) key value := by
      rintro ⟨before, after, h, -⟩
      simp at h
    simp [insertAll, hnone]
  | cons entry entries ih =>
    obtain ⟨name, first⟩ := entry
    -- What the first entry filed is filed before the others are put in.
    show ((dict.insert name first).insertAll entries).find? key = some value ↔ _
    rw [ih, find?_insert, Entries.isLatest_cons_iff, List.forall_mem_cons, or_assoc]
    apply or_congr_right
    by_cases hname : name = key <;> simp [hname, and_comm]

/-- What is filed is the last entry for a key. -/
theorem find?_ofList_eq_some_iff :
    (ofList entries).find? key = some value ↔ Entries.IsLatest entries key value := by
  rw [ofList, find?_insertAll_eq_some_iff]
  simp

/-- Nothing is filed under the keys of which there is no entry. -/
theorem find?_ofList_eq_none_iff :
    (ofList entries).find? key = none ↔ ∀ entry ∈ entries, entry.1 ≠ key := by
  have hsome := @Entries.exists_isLatest_iff _ _ entries key
  simp only [← find?_ofList_eq_some_iff, ← Option.isSome_iff_exists] at hsome
  rw [← Option.not_isSome_iff_eq_none, hsome]
  push Not
  rfl

/-- Two neighbours among the entries that are put in can be exchanged if their keys differ. -/
theorem find?_ofList_swap {first second : κ × β} (hne : first.1 ≠ second.1)
    (before after : List (κ × β)) (key : κ) :
    (ofList (before ++ first :: second :: after)).find? key =
      (ofList (before ++ second :: first :: after)).find? key := by
  simp only [ofList, insertAll, List.foldl_append, List.foldl_cons]
  -- The two differ in the order of two insertions, which is made up for before the others.
  refine @find?_insertAll_congr _ _ _ _ _ after (fun name => ?_) key
  simp only [find?_insert]
  split_ifs with hsecond hfirst
  · exact absurd (hfirst.trans hsecond.symm) hne
  · rfl
  · rfl
  · rfl

end Dictionary

/-! ## Names -/

namespace Registry

variable {registry one other : Registry} {name : String}

/-- The names of a registry are those under which a command is found. -/
theorem mem_names_iff : name ∈ registry.names ↔ ∃ command, registry.find? name = some command := by
  rw [names, List.mem_mergeSort, ← Dictionary.contains_iff]
  exact Option.isSome_iff_exists

/-- The names of a registry ascend. -/
theorem pairwise_names (registry : Registry) : registry.names.Pairwise Text.Precedes := by
  have hsorted : registry.names.Pairwise fun one other => Text.bytewise one other = true := by
    refine List.pairwise_mergeSort ?_ ?_ _
    · exact fun _ _ _ => Text.bytewise_trans
    · exact Text.bytewise_total
  -- Sorting keeps the keys, of which there is each only one.
  have hperm : registry.names.Perm registry.commands.keys := List.mergeSort_perm _ _
  have hnodup : registry.names.Nodup := hperm.nodup_iff.2 registry.commands.nodup_keys
  exact hsorted.and hnodup

/-- There are as many names as commands. -/
theorem length_names (registry : Registry) : registry.names.length = registry.size := by
  rw [names, List.length_mergeSort]
  exact List.length_map _

/-- Registries that find the same commands have the same names. -/
theorem names_congr (h : ∀ name, one.find? name = other.find? name) : one.names = other.names := by
  refine Text.eq_of_pairwise_precedes (pairwise_names one) (pairwise_names other) fun name => ?_
  rw [mem_names_iff, mem_names_iff, h]

/-- A registry is described by its names. -/
theorem description_congr (h : one.names = other.names) : one.description = other.description := by
  unfold description
  rw [h]

/-- Registries that find the same commands run them alike. -/
theorem execute_congr {σ : Type} [Supply σ] (h : ∀ name, one.find? name = other.find? name)
    (streams : Streams σ) (observer : Option (Duplex σ)) (path : String) (args : List String)
    (machine : Machine σ) :
    one.execute streams observer path args machine =
      other.execute streams observer path args machine := by
  unfold execute
  rw [h]

end Registry

end Honeypot
