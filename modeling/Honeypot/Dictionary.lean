/-!
# Dictionaries

A finite map as a list of entries with distinct keys. An entry that is replaced keeps its place,
a new one goes to the end, so the list shows the order in which keys first came in.

* `find?`: the view of a dictionary through which the other operations are described.
* `find?_insert`, `find?_erase`, `keys_insert`: what insertion and removal do to that view.
* `insert_of_find?_eq_some`: inserting what is there already changes nothing.

## References

- [SPEC] `SPEC_FULL.md`: §3, Data Model
-/

namespace Honeypot

variable {κ β : Type} [DecidableEq κ]

namespace Entries

/-- The value filed under a key. -/
def find? (key : κ) : List (κ × β) → Option β
  | [] => none
  | (name, value) :: rest => if name = key then some value else find? key rest

/-- The entries with a key set to a value. -/
def insert (key : κ) (value : β) : List (κ × β) → List (κ × β)
  | [] => [(key, value)]
  | (name, old) :: rest =>
    if name = key then (key, value) :: rest else (name, old) :: insert key value rest

theorem map_fst_insert (key : κ) (value : β) (entries : List (κ × β)) :
    (insert key value entries).map Prod.fst =
      if key ∈ entries.map Prod.fst then entries.map Prod.fst
      else entries.map Prod.fst ++ [key] := by
  induction entries with
  | nil => simp [insert]
  | cons entry rest ih =>
    obtain ⟨name, old⟩ := entry
    by_cases h : name = key
    · simp [insert, h]
    · have h' : ¬ key = name := fun e => h e.symm
      by_cases hm : key ∈ rest.map Prod.fst <;> simp_all [insert]

theorem nodup_insert (key : κ) (value : β) {entries : List (κ × β)}
    (h : (entries.map Prod.fst).Nodup) : ((insert key value entries).map Prod.fst).Nodup := by
  rw [map_fst_insert]
  split
  · exact h
  · rename_i hm
    exact List.nodup_append.2 ⟨h, by simp, fun a ha b hb => by
      rw [List.mem_singleton.1 hb]; rintro rfl; exact hm ha⟩

theorem find?_insert (key name : κ) (value : β) (entries : List (κ × β)) :
    find? name (insert key value entries) =
      if key = name then some value else find? name entries := by
  induction entries with
  | nil => simp [insert, find?]
  | cons entry rest ih =>
    obtain ⟨first, old⟩ := entry
    by_cases h : first = key
    · by_cases hn : key = name <;> simp [insert, find?, h, hn]
    · by_cases hn : first = name
      · subst hn
        have : ¬ key = first := fun e => h e.symm
        simp [insert, find?, h, this]
      · simp [insert, find?, h, hn, ih]

theorem find?_eq_none_iff {key : κ} {entries : List (κ × β)} :
    find? key entries = none ↔ key ∉ entries.map Prod.fst := by
  induction entries with
  | nil => simp [find?]
  | cons entry rest ih =>
    obtain ⟨name, value⟩ := entry
    by_cases h : name = key
    · simp [find?, h]
    · have h' : ¬ key = name := fun e => h e.symm
      simp only [find?, h, if_false, ih, List.map_cons, List.mem_cons, h', false_or]

/-- The entries without a key. -/
def erase (key : κ) : List (κ × β) → List (κ × β)
  | [] => []
  | (name, value) :: rest => if name = key then rest else (name, value) :: erase key rest

theorem erase_sublist (key : κ) (entries : List (κ × β)) : (erase key entries).Sublist entries := by
  induction entries with
  | nil => exact .slnil
  | cons entry rest ih =>
    by_cases h : entry.1 = key
    · simp [erase, h]
    · simpa [erase, h] using ih

theorem find?_erase (key name : κ) {entries : List (κ × β)}
    (nodup : (entries.map Prod.fst).Nodup) :
    find? name (erase key entries) = if key = name then none else find? name entries := by
  induction entries with
  | nil => simp [erase, find?]
  | cons entry rest ih =>
    obtain ⟨first, old⟩ := entry
    rw [List.map_cons, List.nodup_cons] at nodup
    by_cases h : first = key
    · subst h
      by_cases hn : first = name
      · subst hn
        simpa [erase] using find?_eq_none_iff.2 nodup.1
      · simp [erase, find?, hn]
    · by_cases hn : first = name
      · subst hn
        have : ¬ key = first := fun e => h e.symm
        simp [erase, find?, h, this]
      · simp [erase, find?, h, hn, ih nodup.2]

theorem insert_of_find?_eq_some {key : κ} {value : β} {entries : List (κ × β)}
    (h : find? key entries = some value) : insert key value entries = entries := by
  induction entries with
  | nil => simp [find?] at h
  | cons entry rest ih =>
    obtain ⟨name, old⟩ := entry
    by_cases hk : name = key
    · simp_all [find?, insert]
    · simp_all [find?, insert]

end Entries

/-- A finite map from keys to values, in order of first insertion. -/
structure Dictionary (κ β : Type) [DecidableEq κ] where
  /-- The entries, each key once. -/
  entries : List (κ × β)
  /-- No key is filed twice. -/
  nodup_keys : (entries.map Prod.fst).Nodup

namespace Dictionary

/-- The dictionary without entries. -/
def empty : Dictionary κ β := ⟨[], List.nodup_nil⟩

instance : EmptyCollection (Dictionary κ β) := ⟨empty⟩

instance : Inhabited (Dictionary κ β) := ⟨empty⟩

/-- The keys in order of first insertion. -/
def keys (dict : Dictionary κ β) : List κ := dict.entries.map Prod.fst

/-- The number of entries. -/
def size (dict : Dictionary κ β) : Nat := dict.entries.length

/-- The value filed under a key. -/
def find? (dict : Dictionary κ β) (key : κ) : Option β := Entries.find? key dict.entries

/-- Whether a key is filed. -/
def contains (dict : Dictionary κ β) (key : κ) : Bool := (dict.find? key).isSome

/-- The dictionary with a key set to a value. -/
def insert (dict : Dictionary κ β) (key : κ) (value : β) : Dictionary κ β :=
  ⟨Entries.insert key value dict.entries, Entries.nodup_insert key value dict.nodup_keys⟩

/-- The dictionary without a key. -/
def erase (dict : Dictionary κ β) (key : κ) : Dictionary κ β :=
  ⟨Entries.erase key dict.entries,
    dict.nodup_keys.sublist ((Entries.erase_sublist key dict.entries).map _)⟩

/-- A dictionary with further entries put in one after the other, later ones winning. -/
def insertAll (dict : Dictionary κ β) (entries : List (κ × β)) : Dictionary κ β :=
  entries.foldl (fun dict entry => dict.insert entry.1 entry.2) dict

/-- The dictionary of a list of entries, later ones winning. -/
def ofList (entries : List (κ × β)) : Dictionary κ β := empty.insertAll entries

@[simp] theorem find?_empty (key : κ) : (empty : Dictionary κ β).find? key = none := rfl

@[simp] theorem find?_insert (dict : Dictionary κ β) (key name : κ) (value : β) :
    (dict.insert key value).find? name = if key = name then some value else dict.find? name :=
  Entries.find?_insert key name value dict.entries

@[simp] theorem find?_erase (dict : Dictionary κ β) (key name : κ) :
    (dict.erase key).find? name = if key = name then none else dict.find? name :=
  Entries.find?_erase key name dict.nodup_keys

theorem contains_iff {dict : Dictionary κ β} {key : κ} :
    dict.contains key = true ↔ key ∈ dict.keys := by
  rw [contains, Option.isSome_iff_ne_none, Ne, find?, Entries.find?_eq_none_iff, keys,
    Decidable.not_not]

theorem keys_insert (dict : Dictionary κ β) (key : κ) (value : β) :
    (dict.insert key value).keys = if key ∈ dict.keys then dict.keys else dict.keys ++ [key] :=
  Entries.map_fst_insert key value dict.entries

/-- Inserting what is filed already changes nothing. -/
theorem insert_of_find?_eq_some {dict : Dictionary κ β} {key : κ} {value : β}
    (h : dict.find? key = some value) : dict.insert key value = dict := by
  obtain ⟨entries, nodup⟩ := dict
  simp only [insert, mk.injEq]
  exact Entries.insert_of_find?_eq_some h

/-- What is filed after entries were put in is one of them, or was filed before. -/
theorem mem_of_find?_insertAll {dict : Dictionary κ β} {entries : List (κ × β)} {key : κ}
    {value : β} (h : (dict.insertAll entries).find? key = some value) :
    (key, value) ∈ entries ∨ dict.find? key = some value := by
  induction entries generalizing dict with
  | nil => exact .inr h
  | cons entry entries ih =>
    rcases ih h with hmem | hfind
    · exact .inl (.tail _ hmem)
    · rw [find?_insert] at hfind
      split at hfind
      · next hkey => exact .inl (by simp [← hkey, ← Option.some.inj hfind])
      · exact .inr hfind

end Dictionary

end Honeypot
