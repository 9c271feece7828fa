import Honeypot.Proofs.Store.Grounded
import Mathlib.Data.List.Perm.Basic
import Mathlib.Data.List.Nodup

/-!
# Walks through a store

A walk lists a directory, and then walks through every entry in the same way.

* `Store.walk`: the path texts that a walk meets, so many levels deep.
* `Store.mem_walk_iff`: it meets what is below, with nothing but directories in between.
* `Store.nodup_walk`: it meets nothing twice.
* `Store.grounded_iff_walk`: it meets every node but the root exactly if the store is grounded.
* `Store.Grounded.walk_perm`: the paths met in a grounded store are those of its nodes.
-/

namespace Honeypot

namespace Store

/-- The path texts that a walk from a path meets, so many levels deep. -/
def walk (store : Store) : ℕ → String → List String
  | 0, _ => []
  | depth + 1, path =>
    match store.readdir path with
    | .error _ => []
    | .ok entries => entries.flatMap fun entry =>
        let inner := Location.resolve path entry.name
        inner :: store.walk depth inner

variable {store : Store}

/-- What is listed of a directory: its entries in the order of their names. -/
theorem readdir_text {location : Location} (hnamed : location.IsNamed)
    (h : store.find? location = some .directory) :
    store.readdir location.text = .ok ((store.children location).mergeSort
      fun one other => Text.bytewise one.name other.name) := by
  simp [readdir, Location.ofText_text hnamed, h]

/-- Only directories are listed. -/
theorem find?_of_readdir_eq_ok {location : Location} (hnamed : location.IsNamed)
    {entries : List Entry} (h : store.readdir location.text = .ok entries) :
    store.find? location = some .directory := by
  rw [readdir, Location.ofText_text hnamed] at h
  cases hnode : store.find? location with
  | none => simp [hnode] at h
  | some node => cases node <;> simp_all

/-- One level of a walk through a directory: the names in it, and the walks through them. -/
theorem mem_walk_succ_iff (hrooted : store.IsRooted) {depth : ℕ} {location : Location}
    (hnamed : location.IsNamed) {path : String} :
    path ∈ store.walk (depth + 1) location.text ↔
      store.find? location = some .directory ∧
        ∃ name, (store.find? (name :: location)).isSome = true ∧
          (path = Location.text (name :: location) ∨
            path ∈ store.walk depth (Location.text (name :: location))) := by
  have hresolve {name : String} (hname : (store.find? (name :: location)).isSome = true) :
      Location.resolve location.text name = Location.text (name :: location) :=
    Location.resolve_text (Location.isNamed_cons.1 (hrooted.isNamed _ hname)).1 hnamed
  constructor
  · intro h
    rw [walk] at h
    split at h
    · simp at h
    · next entries hentries =>
      -- Only a directory is read, and what is read are the children, in some order.
      have hdirectory := find?_of_readdir_eq_ok hnamed hentries
      rw [readdir_text hnamed hdirectory, Except.ok.injEq] at hentries
      obtain ⟨entry, hentry, hpath⟩ := List.mem_flatMap.1 h
      rw [← hentries, List.mem_mergeSort, mem_children_iff] at hentry
      obtain ⟨node, hnode, -⟩ := hentry
      have hname : (store.find? (entry.name :: location)).isSome = true := by
        rw [hnode]
        rfl
      rw [hresolve hname, List.mem_cons] at hpath
      exact ⟨hdirectory, entry.name, hname, hpath⟩
  · rintro ⟨hdirectory, name, hname, hpath⟩
    rw [walk, readdir_text hnamed hdirectory, List.mem_flatMap]
    obtain ⟨node, hnode⟩ := Option.isSome_iff_exists.1 hname
    refine ⟨⟨name, node.metadata⟩, ?_, ?_⟩
    · rw [List.mem_mergeSort, mem_children_iff]
      exact ⟨node, hnode, rfl⟩
    · rw [hresolve hname, List.mem_cons]
      exact hpath

/-- A walk meets the nodes below its start, down to its depth, that have nothing but directories
above them from there on. -/
theorem mem_walk_iff (hrooted : store.IsRooted) {depth : ℕ} {location : Location}
    (hnamed : location.IsNamed) {path : String} :
    path ∈ store.walk depth location.text ↔
      ∃ below : Location, path = below.text ∧ location <:+ below ∧ below ≠ location ∧
        below.length ≤ location.length + depth ∧ (store.find? below).isSome = true ∧
        ∀ above, location <:+ above → above <:+ below → above ≠ below →
          store.find? above = some .directory := by
  induction depth generalizing location path with
  | zero =>
    refine iff_of_false (by simp [walk]) ?_
    rintro ⟨below, -, hsuffix, hne, hlength, -⟩
    -- Below the start everything has more names.
    exact hne (hsuffix.eq_of_length_le (by omega)).symm
  | succ depth ih =>
    rw [mem_walk_succ_iff hrooted hnamed]
    constructor
    · rintro ⟨hdirectory, name, hname, rfl | hpath⟩
      · refine ⟨name :: location, rfl, List.suffix_cons _ _, by simp, ?_, hname, ?_⟩
        · simp
        · intro above hlocation habove hne
          rcases List.suffix_cons_iff.1 habove with heq | habove
          · exact absurd heq hne
          · rw [habove.eq_of_length_le hlocation.length_le, hdirectory]
      · rw [ih (hrooted.isNamed _ hname)] at hpath
        obtain ⟨below, rfl, hsuffix, hne, hlength, hnode, habove⟩ := hpath
        have hlocation : location <:+ below := (List.suffix_cons _ _).trans hsuffix
        refine ⟨below, rfl, hlocation, ?_, ?_, hnode, ?_⟩
        · rintro rfl
          exact absurd hsuffix.length_le (by simp)
        · rw [List.length_cons] at hlength
          omega
        · intro above hlow hhigh hproper
          by_cases heq : above = location
          · rw [heq, hdirectory]
          · refine habove above ?_ hhigh hproper
            refine List.suffix_of_suffix_length_le hsuffix hhigh ?_
            by_contra hlt
            rw [List.length_cons] at hlt
            exact heq (hlow.eq_of_length_le (by omega)).symm
    · rintro ⟨below, rfl, ⟨front, rfl⟩, hne, hlength, hnode, habove⟩
      have hdirectory := habove location (List.suffix_refl _) (List.suffix_append _ _) hne.symm
      -- What leads down starts with an entry of the directory, from which the walk goes on.
      rcases List.eq_nil_or_concat front with rfl | ⟨front, name, rfl⟩
      · exact absurd rfl hne
      · rw [List.concat_eq_append, List.append_assoc, List.singleton_append] at *
        by_cases hfront : front = []
        · subst hfront
          exact ⟨hdirectory, name, hnode, .inl rfl⟩
        · have hproper : name :: location ≠ front ++ name :: location :=
            fun heq => hfront (List.self_eq_append_left.1 heq)
          have hname := habove (name :: location) (List.suffix_cons _ _) (List.suffix_append _ _)
            hproper
          have hinner : (store.find? (name :: location)).isSome = true := by
            rw [hname]
            rfl
          refine ⟨hdirectory, name, hinner, .inr ?_⟩
          rw [ih (hrooted.isNamed _ hinner)]
          refine ⟨_, rfl, List.suffix_append _ _, hproper.symm, ?_, hnode, ?_⟩
          · rw [List.length_cons]
            omega
          · intro above hlow hhigh
            exact habove above ((List.suffix_cons _ _).trans hlow) hhigh

/-! ## Once each -/

/-- What a walk meets at an entry or after it is at the entry or below it. -/
theorem exists_of_mem_cons_walk (hrooted : store.IsRooted) {depth : ℕ} {location : Location}
    (hnamed : location.IsNamed) {path : String}
    (h : path ∈ location.text :: store.walk depth location.text) :
    ∃ below : Location, path = below.text ∧ below.IsNamed ∧ location <:+ below := by
  rcases List.mem_cons.1 h with rfl | h
  · exact ⟨location, rfl, hnamed, List.suffix_refl _⟩
  · obtain ⟨below, hpath, hsuffix, -, -, hnode, -⟩ := (mem_walk_iff hrooted hnamed).1 h
    exact ⟨below, hpath, hrooted.isNamed _ hnode, hsuffix⟩

/-- A walk does not come back to where it starts. -/
theorem not_mem_walk (hrooted : store.IsRooted) {depth : ℕ} {location : Location}
    (hnamed : location.IsNamed) : location.text ∉ store.walk depth location.text := by
  intro h
  obtain ⟨below, htext, -, hne, -, hnode, -⟩ := (mem_walk_iff hrooted hnamed).1 h
  exact hne (Location.text_injective hnamed (hrooted.isNamed _ hnode) htext).symm

/-- A walk meets nothing twice. -/
theorem nodup_walk (hrooted : store.IsRooted) {depth : ℕ} {location : Location}
    (hnamed : location.IsNamed) : (store.walk depth location.text).Nodup := by
  induction depth generalizing location with
  | zero => exact List.nodup_nil
  | succ depth ih =>
    rw [walk]
    cases hentries : store.readdir location.text with
    | error _ => exact List.nodup_nil
    | ok entries =>
      have hdirectory := find?_of_readdir_eq_ok hnamed hentries
      rw [readdir_text hnamed hdirectory, Except.ok.injEq] at hentries
      have hinner {entry : Entry} (hentry : entry ∈ entries) :
          Location.IsNamed (entry.name :: location) := by
        rw [← hentries, List.mem_mergeSort, mem_children_iff] at hentry
        obtain ⟨node, hnode, -⟩ := hentry
        exact hrooted.isNamed _ (by rw [hnode]; rfl)
      have hresolve {entry : Entry} (hentry : entry ∈ entries) :
          Location.resolve location.text entry.name = Location.text (entry.name :: location) :=
        Location.resolve_text (Location.isNamed_cons.1 (hinner hentry)).1 hnamed
      have hnames : entries.Pairwise fun one other => one.name ≠ other.name := by
        rw [← List.pairwise_map (R := (· ≠ ·)), ← hentries]
        exact ((List.mergeSort_perm _ _).map _).nodup_iff.2 (nodup_map_name_children store location)
      dsimp only
      rw [List.nodup_flatMap]
      -- At every entry nothing twice, and nothing at two different entries.
      constructor
      · intro entry hentry
        rw [hresolve hentry, List.nodup_cons]
        exact ⟨not_mem_walk hrooted (hinner hentry), ih (hinner hentry)⟩
      · refine hnames.imp_of_mem fun {one other} hone hother hne path hmem hmem' => hne ?_
        dsimp only at hmem hmem'
        rw [hresolve hone] at hmem
        rw [hresolve hother] at hmem'
        obtain ⟨below, rfl, hnamed, hbelow⟩ := exists_of_mem_cons_walk hrooted (hinner hone) hmem
        obtain ⟨below', htext, hnamed', hbelow'⟩ :=
          exists_of_mem_cons_walk hrooted (hinner hother) hmem'
        obtain rfl := Location.text_injective hnamed hnamed' htext
        -- Both are above what was met twice, and as long as each other.
        have hsuffix := List.suffix_of_suffix_length_le hbelow hbelow' (by simp)
        exact (List.cons.inj (hsuffix.eq_of_length (by simp))).1

/-- A walk from the root meets neither the root nor anything twice. -/
theorem nodup_root_walk (hrooted : store.IsRooted) {depth : ℕ} :
    ("/" :: store.walk depth "/").Nodup := by
  rw [List.nodup_cons, ← Location.text_root]
  exact ⟨not_mem_walk hrooted Location.isNamed_nil, nodup_walk hrooted Location.isNamed_nil⟩

/-! ## All nodes -/

/-- The way up from a location goes through different locations. -/
theorem nodup_tails (location : Location) : location.tails.Nodup := by
  induction location with
  | nil => simp
  | cons name above ih =>
    rw [List.tails_cons, List.nodup_cons]
    refine ⟨fun h => ?_, ih⟩
    have hlength := ((List.mem_tails _ _).1 h).length_le
    rw [List.length_cons] at hlength
    omega

/-- A node of a grounded store has fewer names than the store has nodes. -/
theorem Grounded.length_lt_size (h : store.Grounded) {location : Location}
    (hlocation : (store.find? location).isSome = true) : location.length < store.size := by
  -- All the locations on the way up have nodes, and there is one more of them than names.
  have hkeys : location.tails ⊆ store.nodes.keys := by
    intro above habove
    rw [List.mem_tails] at habove
    rw [mem_keys_iff]
    by_cases heq : above = location
    · rw [heq, hlocation]
    · rw [h.find?_above hlocation habove heq]
      rfl
  have hlength := (List.subperm_of_subset (nodup_tails location) hkeys).length_le
  rw [List.length_tails, Dictionary.keys, List.length_map] at hlength
  exact hlength

/-- Every node below the root of a grounded store is met by a walk that goes deep enough. -/
theorem Grounded.text_mem_walk (h : store.Grounded) (hrooted : store.IsRooted)
    {location : Location} (hlocation : (store.find? location).isSome = true)
    (hroot : location ≠ []) {depth : ℕ} (hdepth : store.size ≤ depth) :
    location.text ∈ store.walk depth "/" := by
  rw [← Location.text_root, mem_walk_iff hrooted Location.isNamed_nil]
  refine ⟨location, rfl, List.nil_suffix, hroot, ?_, hlocation, ?_⟩
  · have hlength := h.length_lt_size hlocation
    rw [List.length_nil]
    omega
  · intro above _ hsuffix hne
    exact h.find?_above hlocation hsuffix hne

/-- A store is grounded exactly if a walk from the root meets every node but the root. -/
theorem grounded_iff_walk (hrooted : store.IsRooted) :
    store.Grounded ↔ ∀ location, (store.find? location).isSome = true → location ≠ [] →
      location.text ∈ store.walk store.size "/" := by
  constructor
  · intro h location hlocation hroot
    exact h.text_mem_walk hrooted hlocation hroot (Nat.le_refl _)
  · intro h name above hnode
    -- The walk has come through the directory in which the node should stand.
    have hmem := h _ hnode (by simp)
    rw [← Location.text_root, mem_walk_iff hrooted Location.isNamed_nil] at hmem
    obtain ⟨below, htext, -, -, -, hbelow, habove⟩ := hmem
    obtain rfl := Location.text_injective (hrooted.isNamed _ hnode) (hrooted.isNamed _ hbelow) htext
    exact habove above List.nil_suffix (List.suffix_cons _ _) (by simp)

/-- A walk from the root of a grounded store meets the paths of all nodes but the root, and
each of them once. -/
theorem Grounded.walk_perm (h : store.Grounded) (hrooted : store.IsRooted) {depth : ℕ}
    (hdepth : store.size ≤ depth) :
    ("/" :: store.walk depth "/").Perm (store.nodes.keys.map Location.text) := by
  -- The walk comes to no path twice and the keys are distinct, so membership decides.
  rw [List.perm_ext_iff_of_nodup (nodup_root_walk hrooted) hrooted.nodup_map_text]
  intro path
  rw [List.mem_cons, List.mem_map]
  constructor
  · rintro (rfl | hmem)
    · refine ⟨[], mem_keys_iff.2 ?_, rfl⟩
      rw [hrooted.find?_root]
      rfl
    · rw [← Location.text_root, mem_walk_iff hrooted Location.isNamed_nil] at hmem
      obtain ⟨below, rfl, -, -, -, hbelow, -⟩ := hmem
      exact ⟨below, mem_keys_iff.2 hbelow, rfl⟩
  · rintro ⟨location, hlocation, rfl⟩
    by_cases hroot : location = []
    · subst hroot
      exact .inl rfl
    · exact .inr (h.text_mem_walk hrooted (mem_keys_iff.1 hlocation) hroot hdepth)

end Store

end Honeypot
