import Honeypot.Process.Basic
import Honeypot.Proofs.Store.Basic
import Honeypot.Proofs.Text.Order
import Honeypot.Proofs.Text.Split

/-!
# Environments and their texts

An environment is listed as `KEY=VALUE` texts, in no particular order. A value is found in the list
by cutting each text at its first equals sign, so a name that holds one may pass for a shorter name.

* `Environment.lookUp_eq_find?_iff`: when a list gives what the environment gives, whatever its
  order.
* `Environment.Poses`: names that pass for another one.
* `Environment.lookUp_eq_find?_of_not_poses`: a name that no other one passes for is found in every
  order.
* `Environment.IsHonest`, `Environment.IsStable`: environments in which no name passes for one that
  commands look up, and what is seen in their lists under every order.
* `Process.environ_perm`: a process lists its whole environment.

## References

- [SPEC] `SPEC_FULL.md`: §3, Data Model; §4.2, Virtual Process Context
-/

namespace Honeypot

namespace Dictionary

variable {κ β : Type} [DecidableEq κ]

theorem mem_keys_insert {dict : Dictionary κ β} {key name : κ} {value : β} :
    name ∈ (dict.insert key value).keys ↔ name = key ∨ name ∈ dict.keys := by
  rw [keys_insert]
  split
  · next hkey =>
    refine ⟨.inr, ?_⟩
    rintro (rfl | hname)
    · exact hkey
    · exact hname
  · rw [List.mem_append, List.mem_singleton, or_comm]

/-- The keys after entries were put in are theirs and those that there were before. -/
theorem mem_keys_insertAll {dict : Dictionary κ β} {entries : List (κ × β)} {name : κ} :
    name ∈ (dict.insertAll entries).keys ↔ name ∈ dict.keys ∨ name ∈ entries.map Prod.fst := by
  induction entries generalizing dict with
  | nil => simp [insertAll]
  | cons entry entries ih =>
    show name ∈ ((dict.insert entry.1 entry.2).insertAll entries).keys ↔ _
    rw [ih, mem_keys_insert, List.map_cons, List.mem_cons, or_assoc, or_left_comm]

/-- A key is one under which something is filed. -/
theorem mem_keys_iff_exists {dict : Dictionary κ β} {name : κ} :
    name ∈ dict.keys ↔ ∃ value, dict.find? name = some value :=
  contains_iff.symm.trans Option.isSome_iff_exists

end Dictionary

/-! ## One environment -/

namespace Environment

variable {environment : Environment} {order : List String} {key value : String}

/-- A value is only found in a text that is cut into the key and this value. -/
theorem exists_of_lookUp (h : lookUp key order = some value) :
    ∃ text ∈ order, Text.nameAndValue text = some (key, value) := by
  obtain ⟨text, htext, hvalue⟩ := List.exists_of_findSome?_eq_some h
  refine ⟨text, htext, ?_⟩
  split at hvalue
  · next name _ hcut =>
    split_ifs at hvalue with hname
    obtain rfl := Option.some.inj hvalue
    rw [hcut, hname]
  · simp at hvalue

/-- Something is found if a text is cut into the key and a value. -/
theorem lookUp_isSome {text : String} (htext : text ∈ order)
    (hcut : Text.nameAndValue text = some (key, value)) : (lookUp key order).isSome = true := by
  rw [lookUp, List.findSome?_isSome_iff]
  exact ⟨text, htext, by simp [hcut]⟩

/-- What is found under a key is found in no text with a longer name, as the key holds no equals
sign. -/
theorem not_mem_of_lookUp (h : lookUp key order = some value) : '=' ∉ key.toList := by
  obtain ⟨_, -, hcut⟩ := exists_of_lookUp h
  exact (Text.nameAndValue_eq_some_iff.1 hcut).1

theorem mem_texts_iff {text : String} :
    text ∈ environment.texts ↔
      ∃ name value, environment.find? name = some value ∧ text = name ++ "=" ++ value := by
  rw [texts, List.mem_map]
  constructor
  · rintro ⟨⟨name, value⟩, hmem, rfl⟩
    exact ⟨name, value, (Entries.mem_iff environment.nodup_keys).1 hmem, rfl⟩
  · rintro ⟨name, value, hfind, rfl⟩
    exact ⟨(name, value), (Entries.mem_iff environment.nodup_keys).2 hfind, rfl⟩

/-- Where no name holds an equals sign, a value that is found in the texts is that of the
variable. -/
theorem find?_of_lookUp (hnames : ∀ name ∈ environment.keys, '=' ∉ name.toList)
    (horder : order.Perm environment.texts) (h : lookUp key order = some value) :
    environment.find? key = some value := by
  obtain ⟨text, htext, hcut⟩ := exists_of_lookUp h
  obtain ⟨name, other, hfind, rfl⟩ := mem_texts_iff.1 (horder.mem_iff.1 htext)
  -- The text is cut where its name ends.
  have hname := hnames name (Dictionary.mem_keys_iff_exists.2 ⟨other, hfind⟩)
  have hwhole : Text.nameAndValue (name ++ "=" ++ other) = some (name, other) :=
    Text.nameAndValue_eq_some_iff.2 ⟨hname, rfl⟩
  obtain ⟨rfl, rfl⟩ := Prod.mk.inj (Option.some.inj (hwhole.symm.trans hcut))
  exact hfind

/-- Where no name holds an equals sign, the texts in any order give what the environment gives. -/
theorem lookUp_eq_find? (hnames : ∀ name ∈ environment.keys, '=' ∉ name.toList)
    (horder : order.Perm environment.texts) (key : String) :
    lookUp key order = environment.find? key := by
  cases hlook : lookUp key order with
  | some value => exact (find?_of_lookUp hnames horder hlook).symm
  | none =>
    cases hfind : environment.find? key with
    | none => rfl
    | some value =>
      -- The variable has a text, and that is cut into its name and its value.
      have hkey := hnames key (Dictionary.mem_keys_iff_exists.2 ⟨value, hfind⟩)
      have htext : key ++ "=" ++ value ∈ order :=
        horder.mem_iff.2 (mem_texts_iff.2 ⟨key, value, hfind, rfl⟩)
      have hfound := lookUp_isSome htext (Text.nameAndValue_eq_some_iff.2 ⟨hkey, rfl⟩)
      rw [hlook] at hfound
      simp at hfound

/-- The texts of an environment, in whatever order they come, give what the environment gives
exactly if no name in it holds an equals sign. -/
theorem lookUp_eq_find?_iff :
    (∀ order, order.Perm environment.texts → ∀ key, lookUp key order = environment.find? key) ↔
      ∀ name ∈ environment.keys, '=' ∉ name.toList := by
  constructor
  · intro h name hname
    -- What is not found in the texts is a name with an equals sign itself.
    obtain ⟨value, hfind⟩ := Dictionary.mem_keys_iff_exists.1 hname
    exact not_mem_of_lookUp ((h _ (.refl _) name).trans hfind)
  · exact fun hnames order horder key => lookUp_eq_find? hnames horder key

/-- Whether a name with a value passes for another name with a longer value. -/
def Poses (name key : String) : Prop := (key ++ "=").toList <+: name.toList

instance (name key : String) : Decidable (Poses name key) := inferInstanceAs (Decidable (_ <+: _))

/-- A name without an equals sign passes for no other. -/
theorem not_poses {name : String} (h : '=' ∉ name.toList) (key : String) : ¬ Poses name key := by
  rintro ⟨rest, hname⟩
  rw [← hname] at h
  simp at h

/-- A text is cut into a key and a value if its name is the key or passes for it. -/
theorem eq_or_poses {name other : String}
    (hcut : Text.nameAndValue (name ++ "=" ++ other) = some (key, value)) :
    name = key ∧ other = value ∨ Poses name key := by
  obtain ⟨hkey, htext⟩ := Text.nameAndValue_eq_some_iff.1 hcut
  have hlists := congrArg String.toList htext
  simp only [String.toList_append, List.append_assoc] at hlists
  -- One of the two equals signs stands no later than the other.
  rcases List.append_eq_append_iff.1 hlists with ⟨more, hmore, hrest⟩ | ⟨more, hmore, hrest⟩
  · cases more with
    | nil =>
      have hvalue : other.toList = value.toList := by simpa using hrest
      exact .inl ⟨String.toList_inj.1 (by simpa using hmore.symm), String.toList_inj.1 hvalue⟩
    | cons c more =>
      obtain rfl : '=' = c := (List.cons.inj hrest).1
      rw [hmore] at hkey
      simp at hkey
  · cases more with
    | nil =>
      have hvalue : other.toList = value.toList := by simpa using hrest.symm
      exact .inl ⟨String.toList_inj.1 (by simpa using hmore), String.toList_inj.1 hvalue⟩
    | cons c more =>
      obtain rfl : '=' = c := (List.cons.inj hrest).1
      exact .inr ⟨more, by simp [hmore]⟩

/-- A value is found under a name in every order if no other name passes for it. -/
theorem lookUp_eq_find?_of_not_poses (hkey : '=' ∉ key.toList)
    (hnames : ∀ name ∈ environment.keys, ¬ Poses name key)
    (horder : order.Perm environment.texts) : lookUp key order = environment.find? key := by
  cases hlook : lookUp key order with
  | some value =>
    obtain ⟨text, htext, hcut⟩ := exists_of_lookUp hlook
    obtain ⟨name, other, hfind, rfl⟩ := mem_texts_iff.1 (horder.mem_iff.1 htext)
    -- The text that is found belongs to the key itself, for no other name poses as it.
    rcases eq_or_poses hcut with ⟨rfl, rfl⟩ | hposes
    · exact hfind.symm
    · exact absurd hposes (hnames name (Dictionary.mem_keys_iff_exists.2 ⟨other, hfind⟩))
  | none =>
    cases hfind : environment.find? key with
    | none => rfl
    | some value =>
      have htext : key ++ "=" ++ value ∈ order :=
        horder.mem_iff.2 (mem_texts_iff.2 ⟨key, value, hfind, rfl⟩)
      have hfound := lookUp_isSome htext (Text.nameAndValue_eq_some_iff.2 ⟨hkey, rfl⟩)
      rw [hlook] at hfound
      simp at hfound

/-! ## Orders that make no difference -/

/-- The names that commands look up in the list of the environment. -/
def soughtNames : List String := ["HOME", "USER"]

/-- No name passes for one that commands look up. -/
def IsHonest (environment : Environment) : Prop :=
  ∀ key ∈ soughtNames, ∀ name ∈ environment.keys, ¬ Poses name key

/-- A name without an equals sign may be added. -/
theorem IsHonest.insert (h : environment.IsHonest) {name : String} (hname : '=' ∉ name.toList)
    (value : String) : IsHonest (environment.insert name value) := by
  intro key hkey other hother
  rcases Dictionary.mem_keys_insert.1 hother with rfl | hother
  · exact not_poses hname key
  · exact h key hkey other hother

/-- Whether what is seen in a list is the same for all orders of an honest environment. -/
def IsStable {β : Type} (view : List String → β) : Prop :=
  ∀ environment : Environment, environment.IsHonest → ∀ order order' : List String,
    order.Perm environment.texts → order'.Perm environment.texts → view order = view order'

/-- A list that is sorted is the same for all orders. -/
theorem isStable_mergeSort : IsStable (·.mergeSort Text.bytewise) :=
  fun _ _ _ _ horder horder' => Text.mergeSort_eq_of_perm (horder.trans horder'.symm)

/-- A value that commands look up is the same for all orders. -/
theorem isStable_lookUp (hkey : key ∈ soughtNames) : IsStable (lookUp key) := by
  have hequals : ∀ key ∈ soughtNames, '=' ∉ key.toList := by decide
  intro environment hhonest order order' horder horder'
  rw [lookUp_eq_find?_of_not_poses (hequals key hkey) (hhonest key hkey) horder,
    lookUp_eq_find?_of_not_poses (hequals key hkey) (hhonest key hkey) horder']

end Environment

/-- A process lists its whole environment. -/
theorem Process.environ_perm (process : Process) :
    process.environ.Perm process.environment.texts :=
  (process.arrangement.perm _).map _

end Honeypot
