import Honeypot.Proofs.Store.Range

/-!
# Listings and all the nodes

What is read off a range of path texts is what a look at all the nodes would show. The listing of a
directory has a line for every node whose parent it is, and the first path text from that of the
directory and a slash on tells whether anything is below it, at any depth.

* `Store.childKeys`: the locations one name below a directory, among all that have nodes.
* `Store.Shows`: what should be told of a location.
* `Store.IsListing`, `Store.IsRooted.isListing`: what a listing should be, and that one is.
* `Store.first?`, `Store.IsRanged.hasBelow_eq_first`: whether anything is below a directory can be
  told from one node.
* `Store.scans_agree`: listings and removals of directories in every store that requests lead to.

## References

- [SPEC] `SPEC_FULL.md`: §6, External Interfaces
-/

namespace Honeypot

open Location (ofText)

namespace Store

variable {store : Store} {directory : Location} {path : String}

/-! ## Listings -/

/-- The locations of a store in a directory. The root, though it is its own parent, is in none. -/
def childKeys (store : Store) (directory : Location) : List Location :=
  store.nodes.keys.filter fun key => key ≠ [] ∧ key.parent = directory

theorem cons_mem_childKeys_iff {name : String} {above : Location} :
    name :: above ∈ store.childKeys directory ↔
      above = directory ∧ (store.find? (name :: above)).isSome = true := by
  rw [childKeys, List.mem_filter, mem_keys_iff, decide_eq_true_iff, and_comm]
  exact and_congr_left fun _ => and_iff_right (List.cons_ne_nil name above)

/-- The entries of a directory are the locations in it, each once. -/
theorem perm_childKeys (store : Store) (directory : Location) :
    ((store.children directory).map fun entry => entry.name :: directory).Perm
      (store.childKeys directory) := by
  have hnames : ((store.children directory).map fun entry => entry.name :: directory).Nodup := by
    have hmap := (store.nodup_map_name_children directory).map (f := (· :: directory))
      fun one other h => (List.cons.inj h).1
    rwa [List.map_map] at hmap
  have hkeys : (store.childKeys directory).Nodup := store.nodes.nodup_keys.filter _
  -- Neither list has a key twice, so having the same members is enough.
  rw [List.perm_ext_iff_of_nodup hnames hkeys]
  intro key
  rw [List.mem_map]
  constructor
  · rintro ⟨entry, hentry, rfl⟩
    obtain ⟨node, hnode, -⟩ := mem_children_iff.1 hentry
    exact cons_mem_childKeys_iff.2 ⟨rfl, by rw [hnode]; rfl⟩
  · intro hkey
    cases key with
    | nil => simp [childKeys] at hkey
    | cons name above =>
      obtain ⟨rfl, hnode⟩ := cons_mem_childKeys_iff.1 hkey
      obtain ⟨node, hnode⟩ := Option.isSome_iff_exists.1 hnode
      exact ⟨⟨name, node.metadata⟩, mem_children_iff.2 ⟨node, hnode, rfl⟩, rfl⟩

/-- What should be told of a location: of a file, how long its content is. -/
inductive Shows (store : Store) (location : Location) : Metadata → Prop
  | file {content} : store.find? location = some (.file content) →
      Shows store location ⟨.file, content.length⟩
  | directory : store.find? location = some .directory → Shows store location ⟨.directory, 0⟩

/-- Something is told of a location only if there is a node. -/
theorem Shows.isSome {location : Location} {metadata : Metadata}
    (h : store.Shows location metadata) : (store.find? location).isSome = true := by
  cases h with
  | file hnode | directory hnode =>
    rw [hnode]
    rfl

/-- What is told of a path is what should be told of its location. -/
theorem stat_eq_ok_iff {metadata : Metadata} :
    store.stat path = .ok metadata ↔ store.Shows (ofText path) metadata := by
  unfold stat
  dsimp only
  constructor
  · intro h
    cases hnode : store.find? (ofText path) with
    | none => simp [hnode] at h
    | some node =>
      obtain rfl : node.metadata = metadata := by simpa [hnode] using h
      cases node with
      | file content => exact .file hnode
      | directory => exact .directory hnode
  · intro h
    cases h with
    | file hnode | directory hnode =>
      rw [hnode]
      rfl

/-- Lines as a listing of a directory should have them. -/
structure IsListing (store : Store) (directory : Location) (entries : List Entry) : Prop where
  /-- There is a line for every location in the directory. -/
  perm : (entries.map fun entry => entry.name :: directory).Perm (store.childKeys directory)
  /-- The names ascend. -/
  ascending : entries.Pairwise fun one other => Text.Precedes one.name other.name
  /-- Every line tells of the node under its name, whether it is a file and how long it is. -/
  shows : ∀ entry ∈ entries, store.Shows (entry.name :: directory) entry.metadata

/-- The lines that are read off the range of a directory are as they should be. -/
theorem IsRooted.isListing (h : store.IsRooted) (hnamed : directory.IsNamed) :
    store.IsListing directory
      ((store.range directory.lead).filterMap (line? directory.lead)) where
  perm := by
    have hlines : ((store.range directory.lead).filterMap (line? directory.lead)).Perm
        (store.children directory) := by
      rw [← mergeSort_children_eq (fun line => h.mem_lines_iff hnamed) (h.pairwise_lines _)]
      exact List.mergeSort_perm _ _
    exact (hlines.map _).trans (store.perm_childKeys directory)
  ascending := h.pairwise_lines directory.lead
  shows entry hentry := by
    obtain ⟨node, hnode, hmetadata⟩ := mem_children_iff.1 ((h.mem_lines_iff hnamed).1 hentry)
    rw [hmetadata]
    cases node with
    | file content => exact .file hnode
    | directory => exact .directory hnode

/-- What is told of an entry by its line is what is told of it by its name after the path of the
directory and a slash. -/
theorem IsListing.stat_eq {entries : List Entry} (h : store.IsListing (ofText path) entries)
    (hrooted : store.IsRooted) {entry : Entry} (hentry : entry ∈ entries) :
    store.stat (path ++ "/" ++ entry.name) = .ok entry.metadata := by
  have hshows := h.shows entry hentry
  have hnamed := hrooted.isNamed (entry.name :: ofText path) hshows.isSome
  rwa [stat_eq_ok_iff, Location.ofText_append_name (Location.isNamed_cons.1 hnamed).1]

/-! ## Removals -/

/-- The first node whose path text is not before a text. -/
def first? (store : Store) (lead : String) : Option (String × Node) :=
  (store.filed.dropWhile fun entry => !Text.bytewise lead entry.1).head?

/-- A range is empty unless it begins with the first node. -/
theorem isEmpty_range (store : Store) (lead : String) :
    (store.range lead).isEmpty = !(store.first? lead).any (isUnder lead) := by
  rw [range, first?]
  cases store.filed.dropWhile fun entry => !Text.bytewise lead entry.1 with
  | nil => rfl
  | cons entry entries => cases hunder : isUnder lead entry <;> simp [hunder]

/-- Something is below a directory exactly if the first node from where those below it would be is
one of them. -/
theorem IsRanged.hasBelow_eq_first (h : store.IsRanged) (hroot : ofText path ≠ []) :
    store.hasBelow (ofText path) =
      (store.first? (ofText path).lead).any (isUnder (ofText path).lead) := by
  rw [h.hasBelow_eq path hroot, isEmpty_range, Bool.not_not]

/-- Something is below a location exactly if another key goes on from it. -/
theorem hasBelow_iff_exists_key : store.hasBelow directory = true ↔
    ∃ key ∈ store.nodes.keys, key ≠ directory ∧ directory <:+ key := by
  simp only [hasBelow_iff, mem_keys_iff]

/-- A directory other than the root can be removed if nothing is below it. -/
theorem remove_of_directory (h : store.find? (ofText path) = some .directory)
    (hroot : ofText path ≠ []) :
    store.remove path =
      if store.hasBelow (ofText path) then .error (.filesystem (.notEmpty (ofText path).text))
      else .ok ⟨store.nodes.erase (ofText path)⟩ := by
  have hne : ¬ ofText path = Location.root := hroot
  simp only [remove, h, if_neg hne]

/-! ## All stores that requests lead to -/

/-- In every store that requests lead to, a directory is listed by what is read off its range, which
is as a listing should be, with the kind and the length of every node, and agrees with what is told
of every entry by its path. A directory other than the root is not empty exactly if the first node
from there on is below it, which is so exactly if any node is below it, at any depth. Then it cannot
be removed, and otherwise its removal takes it away and nothing else. -/
theorem scans_agree (requests : List Request)
    (hdirectory : (empty.after requests).find? (ofText path) = some .directory) :
    let store := empty.after requests
    let directory := ofText path
    (∃ entries, store.readdir path = .ok entries ∧
      entries = (store.range directory.lead).filterMap (line? directory.lead) ∧
      store.IsListing directory entries ∧
      ∀ entry ∈ entries, store.stat (path ++ "/" ++ entry.name) = .ok entry.metadata ∧
        store.Shows (ofText (path ++ "/" ++ entry.name)) entry.metadata) ∧
    (directory ≠ [] →
      ((store.first? directory.lead).any (isUnder directory.lead) = true ↔
        ∃ key ∈ store.nodes.keys, key ≠ directory ∧ directory <:+ key) ∧
      ((store.perform (.remove path)).1 = .error (.filesystem (.notEmpty directory.text)) ↔
        ∃ key ∈ store.nodes.keys, key ≠ directory ∧ directory <:+ key) ∧
      ((¬ ∃ key ∈ store.nodes.keys, key ≠ directory ∧ directory <:+ key) →
        (store.perform (.remove path)).1 = .ok () ∧
        ∀ other, (store.perform (.remove path)).2.find? other =
          if directory = other then none else store.find? other)) := by
  intro store directory
  have hrooted : store.IsRooted := isRooted_after requests
  have hnamed : directory.IsNamed := Location.isNamed_ofText path
  have hlisting := hrooted.isListing hnamed
  refine ⟨⟨_, hrooted.isRanged.readdir_eq path hdirectory, rfl, hlisting, fun entry hentry => ?_⟩,
    fun hroot => ?_⟩
  · have hstat := hlisting.stat_eq hrooted hentry
    exact ⟨hstat, stat_eq_ok_iff.1 hstat⟩
  rw [← hrooted.isRanged.hasBelow_eq_first hroot, ← hasBelow_iff_exists_key, perform_remove,
    remove_of_directory hdirectory hroot]
  refine ⟨Iff.rfl, ?_, fun hnone => ?_⟩
  · -- What is below the directory decides, and nothing else can stop its removal.
    cases store.hasBelow directory with
    | true => exact iff_of_true rfl rfl
    | false => exact iff_of_false nofun nofun
  · rw [Bool.not_eq_true] at hnone
    rw [hnone]
    exact ⟨rfl, find?_erase store directory⟩

/-- Requests that lead to names with bytes before and after that of a slash, next to a directory and
in it. -/
def neighbours : List Request :=
  [.mkdir "/d/a0", .write "/d/a-" [1, 2], .mkdir "/d/a", .write "/d/a/x" [1], .write "/d-" [],
    .write "/d0" []]

theorem scans_agree_among_neighbours :
    let store := empty.after neighbours
    (∃ entries, store.readdir "d/." = .ok entries ∧
      entries.map Entry.name = ["a", "a-", "a0"] ∧
      ∀ entry ∈ entries, store.stat ("d/." ++ "/" ++ entry.name) = .ok entry.metadata) ∧
    (store.perform (.remove "d/.")).1 = .error (.filesystem (.notEmpty "/d")) ∧
    (store.perform (.remove "/d//a0")).1 = .ok () ∧
    (store.perform (.remove "/d//a0")).2.find? ["a-", "d"] = some (.file [1, 2]) := by
  intro store
  -- The kernel makes the store.
  have hfound : store.find? (ofText "d/.") = some .directory ∧
      store.find? (ofText "/d//a0") = some .directory ∧
      store.find? ["a-", "d"] = some (.file [1, 2]) := by decide +kernel
  have hkeys : store.childKeys ["d"] = [["a0", "d"], ["a-", "d"], ["a", "d"]] := by decide +kernel
  have hbelow : ∃ key ∈ store.nodes.keys, key ≠ ofText "d/." ∧ ofText "d/." <:+ key := by
    decide +kernel
  have hempty : ¬ ∃ key ∈ store.nodes.keys, key ≠ ofText "/d//a0" ∧ ofText "/d//a0" <:+ key := by
    decide +kernel
  obtain ⟨⟨entries, hentries, -, hlisting, hstat⟩, hfull⟩ := scans_agree neighbours hfound.1
  obtain ⟨hremoved, hothers⟩ := ((scans_agree neighbours hfound.2.1).2 (by decide)).2.2 hempty
  refine ⟨⟨entries, hentries, ?_, fun entry hentry => (hstat entry hentry).1⟩,
    ((hfull (by decide)).2.1).2 hbelow, hremoved, ?_⟩
  · -- The names are those of the locations, and there is only one order for them.
    have hperm := (hlisting.perm.trans (.of_eq hkeys)).filterMap List.head?
    have hname : List.head? ∘ (fun entry : Entry => entry.name :: ofText "d/.") =
        some ∘ Entry.name := rfl
    rw [List.filterMap_map, hname, List.filterMap_eq_map] at hperm
    have hascending : (entries.map Entry.name).Pairwise fun one other =>
        Text.bytewise one other = true :=
      List.pairwise_map.2 (hlisting.ascending.imp fun hprecedes => hprecedes.1)
    refine List.Perm.eq_of_pairwise (fun one other _ _ => Text.bytewise_antisymm) hascending
      (by decide) (hperm.trans ?_)
    decide
  · rw [hothers]
    exact hfound.2.2

end Store

end Honeypot
