import Honeypot.Proofs.Store.Basic
import Honeypot.Proofs.Text.Order
import Mathlib.Data.List.Perm.Basic

/-!
# Directories as ranges of path texts

With the nodes in the order of their path texts, those below a directory stand together: they are
the range of the texts that begin with the text of the directory and a slash. So a directory can
be listed, and found to be empty, without a look at any other node.

* `Store.filed`, `Store.range`: the nodes in order, and those that begin with a text.
* `Store.range_eq_filter`: the range has all texts that begin so.
* `Store.mergeSort_children_eq`: what makes lines the listing of a directory.
* `Store.IsRanged`, `Store.IsRooted.isRanged`: listings and empty directories are read off ranges.
-/

namespace Honeypot

/-- Whether a text begins with another one. -/
def Text.beginsWith (lead text : String) : Bool :=
  lead.toList.isPrefixOf text.toList

theorem Text.beginsWith_iff {lead text : String} :
    beginsWith lead text = true ↔ ∃ rest, text = lead ++ rest := by
  rw [beginsWith, List.isPrefixOf_iff_prefix]
  constructor
  · rintro ⟨chars, hchars⟩
    refine ⟨String.ofList chars, ?_⟩
    rw [← String.toList_inj, String.toList_append, String.toList_ofList, hchars]
  · rintro ⟨rest, rfl⟩
    rw [String.toList_append]
    exact List.prefix_append _ _

namespace Store

/-- The nodes with their path texts, in the order of the texts. -/
def filed (store : Store) : List (String × Node) :=
  (store.nodes.entries.map fun (location, node) => (location.text, node)).mergeSort
    fun one other => Text.bytewise one.1 other.1

/-- Whether the path text of a node begins with a text. -/
def isUnder (lead : String) (entry : String × Node) : Bool :=
  Text.beginsWith lead entry.1

/-- The nodes whose path texts begin with a text: from the first text on that is not before it,
as long as they begin with it. -/
def range (store : Store) (lead : String) : List (String × Node) :=
  (store.filed.dropWhile fun entry => !Text.bytewise lead entry.1).takeWhile (isUnder lead)

/-- The line of a listing for a node in the directory, the texts of which begin with a text. A
node further down has no line. -/
def line? (lead : String) (entry : String × Node) : Option Entry :=
  let rest := entry.1.toList.drop lead.toList.length
  if rest = [] ∨ '/' ∈ rest then none else some ⟨String.ofList rest, entry.2.metadata⟩

/-! ## Ranges in an order -/

/-- In an order, once a text begins with another one, those that do so stand together. -/
theorem takeWhile_eq_filter {entries : List (String × Node)} {lead : String}
    (hsorted : entries.Pairwise fun one other => Text.bytewise one.1 other.1 = true)
    (hlead : ∀ entry ∈ entries, Text.bytewise lead entry.1 = true) :
    entries.takeWhile (isUnder lead) = entries.filter (isUnder lead) := by
  induction entries with
  | nil => rfl
  | cons entry entries ih =>
    rw [List.pairwise_cons] at hsorted
    rw [List.forall_mem_cons] at hlead
    by_cases hbegins : isUnder lead entry = true
    · rw [List.takeWhile_cons_of_pos hbegins, List.filter_cons_of_pos hbegins,
        ih hsorted.2 hlead.2]
    · rw [List.takeWhile_cons_of_neg hbegins, List.filter_cons_of_neg hbegins]
      -- Nothing that begins with the text can come after what does not.
      refine (List.filter_eq_nil_iff.2 fun other hother hafter => hbegins ?_).symm
      obtain ⟨rest, hrest⟩ := Text.beginsWith_iff.1 hafter
      have horder := hsorted.1 other hother
      rw [hrest] at horder
      exact Text.beginsWith_iff.2 (Text.exists_eq_append_of_bytewise hlead.1 horder)

/-- In an order, the texts that begin with another one start where it would stand. -/
theorem takeWhile_dropWhile_eq_filter {entries : List (String × Node)} (lead : String)
    (hsorted : entries.Pairwise fun one other => Text.bytewise one.1 other.1 = true) :
    (entries.dropWhile fun entry => !Text.bytewise lead entry.1).takeWhile (isUnder lead) =
      entries.filter (isUnder lead) := by
  induction entries with
  | nil => rfl
  | cons entry entries ih =>
    by_cases hlead : Text.bytewise lead entry.1 = true
    · rw [List.dropWhile_cons_of_neg (by simpa using hlead)]
      refine takeWhile_eq_filter hsorted ?_
      rw [List.forall_mem_cons]
      exact ⟨hlead, fun other hother =>
        Text.bytewise_trans hlead ((List.pairwise_cons.1 hsorted).1 other hother)⟩
    · have hbegins : ¬ isUnder lead entry = true := by
        intro hbegins
        obtain ⟨rest, hrest⟩ := Text.beginsWith_iff.1 hbegins
        exact hlead (hrest ▸ Text.bytewise_append lead rest)
      rw [List.dropWhile_cons_of_pos (by simpa using hlead), List.filter_cons_of_neg hbegins]
      exact ih (List.pairwise_cons.1 hsorted).2

variable {store : Store}

theorem sorted_filed (store : Store) :
    store.filed.Pairwise fun one other => Text.bytewise one.1 other.1 = true := by
  refine List.pairwise_mergeSort ?_ ?_ _
  · exact fun _ _ _ => Text.bytewise_trans
  · exact fun _ _ => Text.bytewise_total _ _

/-- A range has all the nodes whose path texts begin with its text. -/
theorem range_eq_filter (store : Store) (lead : String) :
    store.range lead = store.filed.filter (isUnder lead) :=
  takeWhile_dropWhile_eq_filter lead store.sorted_filed

theorem mem_filed_iff {entry : String × Node} :
    entry ∈ store.filed ↔
      ∃ location, store.find? location = some entry.2 ∧ Location.text location = entry.1 := by
  rw [filed, List.mem_mergeSort, List.mem_map]
  constructor
  · rintro ⟨⟨location, node⟩, hmem, rfl⟩
    exact ⟨location, (Entries.mem_iff store.nodes.nodup_keys).1 hmem, rfl⟩
  · rintro ⟨location, hnode, htext⟩
    exact ⟨(location, entry.2), (Entries.mem_iff store.nodes.nodup_keys).2 hnode,
      Prod.ext htext rfl⟩

/-- A range has what is filed under its text and something after it. -/
theorem mem_range_iff {lead : String} {entry : String × Node} :
    entry ∈ store.range lead ↔ ∃ location, store.find? location = some entry.2 ∧
      Location.text location = entry.1 ∧ ∃ rest, entry.1 = lead ++ rest := by
  rw [range_eq_filter, List.mem_filter, mem_filed_iff, isUnder, Text.beginsWith_iff]
  constructor
  · rintro ⟨⟨location, hnode, htext⟩, hrest⟩
    exact ⟨location, hnode, htext, hrest⟩
  · rintro ⟨location, hnode, htext, hrest⟩
    exact ⟨⟨location, hnode, htext⟩, hrest⟩

/-! ## Listings -/

/-- What stands after the common beginning of the texts in a directory is the name of a line,
unless it goes further down. -/
theorem line?_eq_some_iff {lead rest : String} {node : Node} {line : Entry} :
    line? lead (lead ++ rest, node) = some line ↔
      line.name = rest ∧ line.metadata = node.metadata ∧ rest ≠ "" ∧ '/' ∉ rest.toList := by
  have hrest : (lead ++ rest).toList.drop lead.toList.length = rest.toList := by
    rw [String.toList_append, List.drop_left]
  simp only [line?, hrest, String.toList_eq_nil_iff, String.ofList_toList]
  by_cases hline : rest = "" ∨ '/' ∈ rest.toList
  · rw [if_pos hline]
    rw [or_iff_not_imp_left] at hline
    refine iff_of_false (by simp) ?_
    rintro ⟨-, -, hne, hslash⟩
    exact hslash (hline hne)
  · rw [if_neg hline]
    rw [not_or] at hline
    constructor
    · rintro heq
      obtain rfl := Option.some.inj heq
      exact ⟨rfl, rfl, hline⟩
    · rintro ⟨hname, hmetadata, -⟩
      rw [← hname, ← hmetadata]

/-- In a store with plain names, texts are filed strictly in order. -/
theorem IsRooted.pairwise_filed (h : store.IsRooted) :
    store.filed.Pairwise fun one other => Text.Precedes one.1 other.1 := by
  have hperm : (store.filed.map Prod.fst).Perm (store.nodes.keys.map Location.text) := by
    rw [Dictionary.keys, List.map_map]
    have hfiled := (List.mergeSort_perm
      (store.nodes.entries.map fun (location, node) => (location.text, node))
      fun one other => Text.bytewise one.1 other.1).map Prod.fst
    rwa [List.map_map] at hfiled
  have hne := hperm.nodup_iff.2 h.nodup_map_text
  rw [List.Nodup, List.pairwise_map] at hne
  exact store.sorted_filed.imp₂ (fun _ _ horder hne => ⟨horder, hne⟩) hne

/-- The lines read off the range of a directory are its entries. -/
theorem IsRooted.mem_lines_iff (h : store.IsRooted) {directory : Location}
    (hdirectory : directory.IsNamed) {line : Entry} :
    line ∈ (store.range directory.lead).filterMap (line? directory.lead) ↔
      line ∈ store.children directory := by
  rw [List.mem_filterMap, mem_children_iff]
  constructor
  · rintro ⟨⟨path, node⟩, hmem, hline⟩
    obtain ⟨location, hnode, htext, rest, hrest⟩ := mem_range_iff.1 hmem
    dsimp only at hnode htext hrest
    subst hrest
    obtain ⟨rfl, hmetadata, hne, hslash⟩ := line?_eq_some_iff.1 hline
    have hnamed := h.isNamed location (by rw [hnode]; rfl)
    obtain rfl := (Location.eq_cons_iff_text_eq hdirectory hnamed hne hslash).2 htext
    exact ⟨node, hnode, hmetadata⟩
  · rintro ⟨node, hnode, hmetadata⟩
    have hname := (Location.isNamed_cons.1 (h.isNamed _ (by rw [hnode]; rfl))).1
    refine ⟨(directory.lead ++ line.name, node), mem_range_iff.2 ?_, ?_⟩
    · exact ⟨_, hnode, Location.text_cons _ _, line.name, rfl⟩
    · exact line?_eq_some_iff.2 ⟨rfl, hmetadata, hname.1, hname.2.2.2⟩

/-- The lines read off the range of a directory are in the order of their names. -/
theorem IsRooted.pairwise_lines (h : store.IsRooted) (lead : String) :
    ((store.range lead).filterMap (line? lead)).Pairwise
      fun one other => Text.Precedes one.name other.name := by
  rw [List.pairwise_filterMap, range_eq_filter]
  refine (h.pairwise_filed.filter _).imp_of_mem ?_
  rintro ⟨path, node⟩ ⟨path', node'⟩ hmem hmem' ⟨horder, hne⟩ line hline line' hline'
  obtain ⟨rest, rfl⟩ := Text.beginsWith_iff.1 (List.mem_filter.1 hmem).2
  obtain ⟨rest', rfl⟩ := Text.beginsWith_iff.1 (List.mem_filter.1 hmem').2
  obtain ⟨rfl, -⟩ := line?_eq_some_iff.1 hline
  obtain ⟨rfl, -⟩ := line?_eq_some_iff.1 hline'
  -- Both texts begin with the same, so the names alone are in order.
  rw [Text.bytewise_append_append] at horder
  exact ⟨horder, fun heq => hne (by rw [heq])⟩

/-- Lines in order that are the entries of a directory are the listing of it. -/
theorem mergeSort_children_eq {directory : Location} {lines : List Entry}
    (hmem : ∀ line, line ∈ lines ↔ line ∈ store.children directory)
    (hsorted : lines.Pairwise fun one other => Text.Precedes one.name other.name) :
    (store.children directory).mergeSort (fun one other => Text.bytewise one.name other.name) =
      lines := by
  have hnodup : lines.Nodup := hsorted.imp fun hprecedes heq => hprecedes.2 (by rw [heq])
  have hperm : (store.children directory).Perm lines := by
    rw [List.perm_ext_iff_of_nodup (.of_map _ (store.nodup_map_name_children directory)) hnodup]
    exact fun line => (hmem line).symm
  refine List.Perm.eq_of_pairwise ?_ (List.pairwise_mergeSort ?_ ?_ _)
    (hsorted.imp fun hprecedes => hprecedes.1) ((List.mergeSort_perm _ _).trans hperm)
  · -- A name has one line only.
    intro one other hone hother hle hge
    rw [List.mem_mergeSort, mem_children_iff] at hone
    rw [hmem, mem_children_iff] at hother
    obtain ⟨node, hnode, hmetadata⟩ := hone
    obtain ⟨node', hnode', hmetadata'⟩ := hother
    have hname : one.name = other.name := Text.bytewise_antisymm hle hge
    rw [hname, hnode', Option.some.injEq] at hnode
    cases one
    cases other
    simp_all
  · exact fun _ _ _ => Text.bytewise_trans
  · exact fun _ _ => Text.bytewise_total _ _

/-- The directories of a store are read off the range of the path texts that begin with their own
and a slash: a listing, and whether anything is below. -/
structure IsRanged (store : Store) : Prop where
  readdir_eq : ∀ path, store.find? (Location.ofText path) = some .directory →
    store.readdir path = .ok ((store.range (Location.ofText path).lead).filterMap
      (line? (Location.ofText path).lead))
  hasBelow_eq : ∀ path, Location.ofText path ≠ [] →
    store.hasBelow (Location.ofText path) = !(store.range (Location.ofText path).lead).isEmpty

/-- Something is below a location other than the root exactly if its range is not empty. -/
theorem IsRooted.hasBelow_eq_range (h : store.IsRooted) {location : Location}
    (hnamed : location.IsNamed) (hroot : location ≠ []) :
    store.hasBelow location = !(store.range location.lead).isEmpty := by
  rw [Bool.eq_iff_iff, hasBelow_iff, Bool.not_eq_true', List.isEmpty_eq_false_iff_exists_mem]
  constructor
  · rintro ⟨below, hnode, hne, hsuffix⟩
    obtain ⟨node, hfound⟩ := Option.isSome_iff_exists.1 hnode
    obtain ⟨rest, -, htext⟩ :=
      (Location.exists_text_eq_lead_append_iff hnamed (h.isNamed below hnode)).2 ⟨hsuffix, hne⟩
    exact ⟨(below.text, node), mem_range_iff.2 ⟨below, hfound, rfl, rest, htext⟩⟩
  · rintro ⟨⟨path, node⟩, hmem⟩
    obtain ⟨below, hfound, htext, rest, hrest⟩ := mem_range_iff.1 hmem
    dsimp only at hfound htext hrest
    have hnode : (store.find? below).isSome = true := by
      rw [hfound]
      rfl
    have hbelow := h.isNamed below hnode
    rw [hrest] at htext
    -- The bound of the range is the directory with a slash, which no normal path is equal to.
    have hgoes : rest ≠ "" := by
      rintro rfl
      rw [String.append_empty] at htext
      exact Location.text_ne_lead hnamed hbelow hroot htext
    obtain ⟨hsuffix, hne⟩ :=
      (Location.exists_text_eq_lead_append_iff hnamed hbelow).1 ⟨rest, hgoes, htext⟩
    exact ⟨below, hnode, hne, hsuffix⟩

/-- Where the names are plain, directories are read off the ranges of their path texts. -/
theorem IsRooted.isRanged (h : store.IsRooted) : store.IsRanged where
  readdir_eq path hdirectory := by
    have hlines := mergeSort_children_eq
      (fun line => h.mem_lines_iff (Location.isNamed_ofText path))
      (h.pairwise_lines (Location.ofText path).lead)
    simp only [readdir, hdirectory, hlines]
  hasBelow_eq path hroot := h.hasBelow_eq_range (Location.isNamed_ofText path) hroot

end Store

end Honeypot
