import Honeypot.Proofs.Store.Walk
import Honeypot.Proofs.Store.Range
import Honeypot.Proofs.Store.Tree

/-!
# The store as a tree

A store files its nodes flat, by location. As long as no directory is made below a file it cannot
be told from a tree.

* `Mirrors`: a store and a tree have the same node at every location.
* `Mirrors.listing_eq`: a directory is listed the same in both.
* `Mirrors.perform`: every request that makes no directory below a file has the same outcome, and
  the store mirrors the tree afterwards.
* `refines_tree`: so throughout every clear run, and a walk from the root meets every other node
  once.

## References

- [SPEC] `SPEC_FULL.md`: §6, External Interfaces
-/

namespace Honeypot

/-- A store mirrors a tree, the children of which are in order: every location has the same node
in both. -/
structure Mirrors (store : Store) (tree : Tree) : Prop where
  ordered : tree.Ordered
  find?_eq : ∀ location, store.find? location = tree.node? (List.reverse location)

namespace Mirrors

variable {store : Store} {tree : Tree}

theorem empty : Mirrors Store.empty Tree.empty where
  ordered := Tree.ordered_empty
  find?_eq location := by
    rw [Store.find?_empty, Tree.node?_empty]
    simp only [List.reverse_eq_nil_iff, @eq_comm _ [] location]

/-! ## The same nodes -/

/-- At every location there is nothing in both, the same file in both or a directory in both. -/
theorem find?_cases (h : Mirrors store tree) (location : Location) :
    (store.find? location = none ∧ tree.find? location.reverse = none) ∨
    (∃ content, store.find? location = some (.file content) ∧
      tree.find? location.reverse = some (.file content)) ∨
    (∃ children, store.find? location = some .directory ∧
      tree.find? location.reverse = some (.directory children)) := by
  rw [h.find?_eq, Tree.node?]
  cases tree.find? location.reverse with
  | none => exact .inl ⟨rfl, rfl⟩
  | some found =>
    cases found with
    | file content => exact .inr (.inl ⟨content, rfl, rfl⟩)
    | directory children => exact .inr (.inr ⟨children, rfl, rfl⟩)

/-- A file on the way in the tree is a file above in the store. -/
theorem hasFileAbove (h : Mirrors store tree) {location : Location}
    (hway : tree.HasFileOnTheWay location.reverse) : store.HasFileAbove location := by
  obtain ⟨above, content, hfront, hne, hfile⟩ := hway
  refine ⟨above.reverse, ?_, ?_, content, ?_⟩
  · rw [← List.reverse_prefix, List.reverse_reverse]
    exact hfront
  · rintro rfl
    exact hne (List.reverse_reverse _).symm
  · rw [h.find?_eq, List.reverse_reverse, hfile]

/-- With nothing below a location of the store, nothing is below its path in the tree. -/
theorem node?_below (h : Mirrors store tree) {location : Location}
    (hbelow : ∀ below, location <:+ below → below ≠ location → store.find? below = none)
    (below : List String) (hfront : location.reverse <+: below)
    (hne : below ≠ location.reverse) : tree.node? below = none := by
  rw [← List.reverse_reverse below, ← h.find?_eq]
  refine hbelow below.reverse ?_ ?_
  · rw [← List.reverse_prefix, List.reverse_reverse]
    exact hfront
  · rintro rfl
    exact hne (List.reverse_reverse _).symm

/-- A child of the tree is a node one name below. -/
theorem find?_cons (h : Mirrors store tree) {location : Location}
    {children : List (String × Tree)}
    (hfound : tree.find? location.reverse = some (.directory children)) (name : String) :
    store.find? (name :: location) = (Entries.find? name children).map Tree.node := by
  rw [h.find?_eq, List.reverse_cons, Tree.node?, Tree.find?_append, hfound, Option.bind_some]
  rw [Tree.find?]
  cases Entries.find? name children with
  | none => rfl
  | some child => cases child <;> rfl

/-- The children of a directory in the tree are in order. -/
theorem ascending (h : Mirrors store tree) {location : Location}
    {children : List (String × Tree)}
    (hfound : tree.find? location.reverse = some (.directory children)) :
    Tree.Ascending children := by
  cases h.ordered.find? hfound with
  | directory hascending _ => exact hascending

/-- A directory is listed the same in both. -/
theorem listing_eq (h : Mirrors store tree) {location : Location}
    {children : List (String × Tree)}
    (hfound : tree.find? location.reverse = some (.directory children)) :
    (store.children location).mergeSort (fun one other => Text.bytewise one.name other.name) =
      Tree.listing children := by
  have hascending := h.ascending hfound
  refine Store.mergeSort_children_eq (fun entry => ?_) (Tree.pairwise_listing hascending)
  rw [Store.mem_children_iff, Tree.mem_listing_iff hascending, h.find?_cons hfound]
  simp only [Option.map_eq_some_iff]
  constructor
  · rintro ⟨child, hchild, hmetadata⟩
    exact ⟨child.node, ⟨child, hchild, rfl⟩, hmetadata.trans child.metadata_node.symm⟩
  · rintro ⟨_, ⟨child, hchild, rfl⟩, hmetadata⟩
    exact ⟨child, hchild, hmetadata.trans child.metadata_node⟩

/-- Something is below a directory exactly if it has children in the tree. -/
theorem hasBelow_iff (h : Mirrors store tree) {location : Location}
    {children : List (String × Tree)}
    (hfound : tree.find? location.reverse = some (.directory children)) :
    store.hasBelow location = true ↔ children ≠ [] := by
  rw [Store.hasBelow_iff]
  constructor
  · rintro ⟨below, hbelow, hne, ⟨front, rfl⟩⟩ rfl
    -- The outermost name below the directory is that of a child.
    rcases List.eq_nil_or_concat front with rfl | ⟨front, name, rfl⟩
    · exact hne rfl
    · rw [h.find?_eq, List.reverse_append, Tree.node?, Tree.find?_append, hfound] at hbelow
      simp [Tree.find?, Entries.find?] at hbelow
  · intro hne
    obtain ⟨⟨name, child⟩, rest, rfl⟩ := List.exists_cons_of_ne_nil hne
    refine ⟨name :: location, ?_, by simp, List.suffix_cons _ _⟩
    rw [h.find?_cons hfound]
    simp [Entries.find?]

/-! ## The same changes -/

/-- Where no file is above and nothing below, a leaf is put into the tree with directories above
it, and elsewhere the tree stays like the store. -/
theorem exists_put?_eq_some (h : Mirrors store tree) {location : Location} {leaf : Tree}
    (hleaf : leaf.IsLeaf) (hfile : ¬ store.HasFileAbove location)
    (hbelow : ∀ below, location <:+ below → below ≠ location → store.find? below = none) :
    ∃ later, tree.put? location.reverse leaf = some later ∧ later.Ordered ∧
      ∀ other, later.node? (List.reverse other) =
        if other = location then some leaf.node else if other <:+ location then some .directory
        else store.find? other := by
  obtain ⟨later, hput, hnodes⟩ := Tree.exists_put?_eq_some hleaf
    (fun hway => hfile (h.hasFileAbove hway)) (h.node?_below hbelow)
  refine ⟨later, hput, h.ordered.put? hleaf.ordered hput, fun other => ?_⟩
  rw [hnodes, h.find?_eq]
  simp only [List.reverse_inj, List.reverse_prefix]

/-- A file put into a directory is put there in the tree. -/
theorem insert (h : Mirrors store tree) (hgrounded : store.Grounded) {location : Location}
    {content : Bytes} (hparent : store.find? location.parent = some .directory)
    (hlocation : store.find? location ≠ some .directory) :
    ∃ later, tree.put? location.reverse (.file content) = some later ∧
      Mirrors (store.insert location (.file content)) later := by
  obtain ⟨later, hput, hordered, hnodes⟩ := h.exists_put?_eq_some (.inr ⟨content, rfl⟩)
    (hgrounded.not_hasFileAbove_of_parent hparent) fun _ => hgrounded.find?_below hlocation
  refine ⟨later, hput, hordered, fun other => ?_⟩
  rw [Store.find?_insert, hnodes]
  by_cases heq : location = other
  · rw [if_pos heq, if_pos heq.symm]
    rfl
  · rw [if_neg heq, if_neg (Ne.symm heq)]
    split_ifs with hsuffix
    · -- What is above the file was a directory before.
      exact hgrounded.find?_of_parent hparent hsuffix (Ne.symm heq)
    · rfl

/-- Directories made where no file is above are made in the tree. -/
theorem makeDirectories (h : Mirrors store tree) (hgrounded : store.Grounded)
    {location : Location} (hnone : store.find? location = none)
    (hfile : ¬ store.HasFileAbove location) :
    ∃ later, tree.put? location.reverse Tree.empty = some later ∧
      Mirrors (Store.makeDirectories location store) later := by
  obtain ⟨later, hput, hordered, hnodes⟩ := h.exists_put?_eq_some (.inl rfl) hfile
    fun _ => hgrounded.find?_below (by simp [hnone])
  refine ⟨later, hput, hordered, fun other => ?_⟩
  rw [hnodes]
  -- Above the new directory the nodes are directories on both sides, elsewhere none has changed.
  by_cases hsuffix : other <:+ location
  · rw [hgrounded.find?_makeDirectories_above hfile hsuffix, if_pos hsuffix]
    exact (ite_self _).symm
  · have hmade : ¬ store.IsMade location other := by
      rintro (rfl | ⟨habove, -⟩)
      · exact hsuffix (List.suffix_refl _)
      · exact hsuffix habove
    have hne : other ≠ location := by
      rintro rfl
      exact hsuffix (List.suffix_refl _)
    rw [(Store.find?_makeDirectories _ _ store).2 hmade, if_neg hne, if_neg hsuffix]

/-- What is taken away with nothing below it is cut off in the tree. -/
theorem erase (h : Mirrors store tree) {location : Location} (hroot : location ≠ [])
    (hbelow : ∀ below, location <:+ below → below ≠ location → store.find? below = none) :
    Mirrors ⟨store.nodes.erase location⟩ (tree.cut location.reverse) := by
  refine ⟨h.ordered.cut _, fun other => ?_⟩
  rw [Store.find?_erase, Tree.node?_cut h.ordered (by simpa using hroot) (h.node?_below hbelow),
    h.find?_eq]
  simp only [List.reverse_inj, @eq_comm _ location other]

/-! ## The same outcomes -/

theorem readdir_eq (h : Mirrors store tree) (path : String) :
    (store.readdir path).mapError Failure.kind = tree.readdir (Tree.pathOf path) := by
  rw [Store.readdir, Tree.readdir, Tree.pathOf]
  obtain ⟨hstore, htree⟩ | ⟨content, hstore, htree⟩ | ⟨children, hstore, htree⟩ :=
    h.find?_cases (Location.ofText path)
  · simp only [hstore, htree]
    rfl
  · simp only [hstore, htree]
    rfl
  · simp only [hstore, htree, h.listing_eq htree]
    rfl

theorem read_eq (h : Mirrors store tree) (path : String) :
    (store.read path).mapError Failure.kind = tree.read (Tree.pathOf path) := by
  rw [Store.read, Tree.read, Tree.pathOf]
  obtain ⟨hstore, htree⟩ | ⟨content, hstore, htree⟩ | ⟨children, hstore, htree⟩ :=
    h.find?_cases (Location.ofText path)
  all_goals
    simp only [hstore, htree]
    rfl

theorem stat_eq (h : Mirrors store tree) (path : String) :
    (store.stat path).mapError Failure.kind = tree.stat (Tree.pathOf path) := by
  rw [Store.stat, Tree.stat, Tree.pathOf]
  obtain ⟨hstore, htree⟩ | ⟨content, hstore, htree⟩ | ⟨children, hstore, htree⟩ :=
    h.find?_cases (Location.ofText path)
  all_goals
    simp only [hstore, htree]
    rfl

theorem contains_eq (h : Mirrors store tree) (path : String) :
    store.contains path = (tree.find? (Tree.pathOf path)).isSome := by
  rw [Store.contains, Tree.pathOf, h.find?_eq, Tree.node?, Option.isSome_map]

theorem isDirectory_eq (h : Mirrors store tree) (path : String) :
    decide (store.find? (Location.ofText path) = some .directory) =
      tree.isDirectory (Tree.pathOf path) := by
  rw [Tree.isDirectory, Tree.pathOf]
  obtain ⟨hstore, htree⟩ | ⟨content, hstore, htree⟩ | ⟨children, hstore, htree⟩ :=
    h.find?_cases (Location.ofText path)
  all_goals simp [hstore, htree]

/-- A change of a store and one of a tree agree if they fail in the same way, or both are made and
the changed store mirrors the changed tree. -/
inductive Agree : Except Failure Store → Except Failure.Kind Tree → Prop where
  | ok {store : Store} {tree : Tree} (h : Mirrors store tree) : Agree (.ok store) (.ok tree)
  | error (failure : Failure) : Agree (.error failure) (.error failure.kind)

/-- Changes that agree come to the same, and leave a store that mirrors the tree. -/
theorem Agree.settled {change : Except Failure Store} {change' : Except Failure.Kind Tree}
    (hagree : Agree change change') (h : Mirrors store tree) :
    (store.settled change).1.mapError Failure.kind = (tree.settled change').1 ∧
      Mirrors (store.settled change).2 (tree.settled change').2 := by
  cases hagree with
  | ok hlater => exact ⟨rfl, hlater⟩
  | error failure => exact ⟨rfl, h⟩

theorem agree_write (h : Mirrors store tree) (hgrounded : store.Grounded) (path : String)
    (content : Bytes) :
    Agree (store.write path content) (tree.write (Tree.pathOf path) content) := by
  have hparent : (Tree.pathOf path).dropLast = (Location.ofText path).parent.reverse :=
    List.dropLast_reverse
  rw [Store.write, Tree.write, hparent]
  obtain ⟨hstore, htree⟩ | ⟨_, hstore, htree⟩ | ⟨_, hstore, htree⟩ :=
    h.find?_cases (Location.ofText path).parent
  · simp only [hstore, htree]
    exact .error _
  · simp only [hstore, htree]
    exact .error _
  · -- Into a directory, a file goes over nothing or over a file.
    have hput (hlocation : store.find? (Location.ofText path) ≠ some .directory) :
        Agree (.ok (store.insert (Location.ofText path) (.file content)))
          (Tree.grown (tree.put? (Location.ofText path).reverse (.file content))) := by
      obtain ⟨later, hput, hlater⟩ := h.insert hgrounded hstore hlocation
      rw [hput]
      exact .ok hlater
    simp only [hstore, htree, Tree.pathOf]
    obtain ⟨hstore', htree'⟩ | ⟨_, hstore', htree'⟩ | ⟨_, hstore', htree'⟩ :=
      h.find?_cases (Location.ofText path)
    · simp only [hstore', htree'] at hput ⊢
      exact hput (by simp)
    · simp only [hstore', htree'] at hput ⊢
      exact hput (by simp)
    · simp only [hstore', htree', if_true]
      exact .error _

theorem agree_mkdir (h : Mirrors store tree) (hgrounded : store.Grounded) {path : String}
    (hfile : ¬ store.HasFileAbove (Location.ofText path)) :
    Agree (store.mkdir path) (tree.mkdir (Tree.pathOf path)) := by
  rw [Store.mkdir, Tree.mkdir, Tree.pathOf]
  obtain ⟨hstore, htree⟩ | ⟨_, hstore, htree⟩ | ⟨_, hstore, htree⟩ :=
    h.find?_cases (Location.ofText path)
  · simp only [hstore, htree]
    obtain ⟨later, hput, hlater⟩ := h.makeDirectories hgrounded hstore hfile
    rw [hput]
    exact .ok hlater
  · simp only [hstore, htree]
    exact .error _
  · simp only [hstore, htree]
    exact .ok h

theorem agree_remove (h : Mirrors store tree) (hgrounded : store.Grounded) (path : String) :
    Agree (store.remove path) (tree.remove (Tree.pathOf path)) := by
  rw [Store.remove, Tree.remove, Tree.pathOf]
  by_cases hroot : Location.ofText path = Location.root
  · rw [if_pos hroot, if_pos (List.reverse_eq_nil_iff.2 hroot)]
    exact .error _
  · rw [if_neg hroot, if_neg (mt List.reverse_eq_nil_iff.1 hroot)]
    obtain ⟨hstore, htree⟩ | ⟨_, hstore, htree⟩ | ⟨children, hstore, htree⟩ :=
      h.find?_cases (Location.ofText path)
    · simp only [hstore, htree]
      exact .error _
    · simp only [hstore, htree]
      exact .ok (h.erase hroot fun _ => hgrounded.find?_below (by simp [hstore]))
    · cases children with
      -- No child in the tree means no node below in the store, and the converse.
      | nil =>
        have hbelow : store.hasBelow (Location.ofText path) = false := by
          rw [Bool.eq_false_iff, ne_eq, h.hasBelow_iff htree]
          exact not_not_intro rfl
        simp only [hstore, htree, hbelow, Bool.false_eq_true, if_false]
        refine .ok (h.erase hroot fun below hsuffix hne => ?_)
        by_contra hnode
        rw [Bool.eq_false_iff, ne_eq, Store.hasBelow_iff] at hbelow
        exact hbelow ⟨below, Option.isSome_iff_ne_none.2 hnode, hne, hsuffix⟩
      | cons child children =>
        have hbelow : store.hasBelow (Location.ofText path) = true := by
          rw [h.hasBelow_iff htree]
          exact List.cons_ne_nil _ _
        simp only [hstore, htree, hbelow, if_true]
        exact .error _

/-- One request on a grounded store, unless it makes a directory below a file, comes to the same
on the tree, and the store after it mirrors the tree after it. -/
theorem perform (h : Mirrors store tree) (hgrounded : store.Grounded) (request : Request)
    (hclear : ¬ request.IsBelowFile store) :
    request.outcome (store.perform request).1 = (tree.perform request).1 ∧
      Mirrors (store.perform request).2 (tree.perform request).2 := by
  -- A request that only reads leaves both sides as they are, one that changes settles both.
  cases request with
  | readdir path =>
    rw [Store.perform_readdir]
    exact ⟨h.readdir_eq path, h⟩
  | read path =>
    rw [Store.perform_read]
    exact ⟨h.read_eq path, h⟩
  | write path content =>
    rw [Store.perform_write]
    exact (h.agree_write hgrounded path content).settled h
  | stat path =>
    rw [Store.perform_stat]
    exact ⟨h.stat_eq path, h⟩
  | mkdir path =>
    rw [Store.perform_mkdir]
    exact (h.agree_mkdir hgrounded hclear).settled h
  | remove path =>
    rw [Store.perform_remove]
    exact (h.agree_remove hgrounded path).settled h
  | contains path =>
    rw [Store.perform_contains]
    exact ⟨h.contains_eq path, h⟩
  | isDirectory path =>
    rw [Store.perform_isDirectory]
    exact ⟨congrArg Except.ok (h.isDirectory_eq path), h⟩

/-- After a clear run the store mirrors the tree after the same requests. -/
theorem after (h : Mirrors store tree) (hgrounded : store.Grounded) {requests : List Request}
    (hclear : store.Clear requests) : Mirrors (store.after requests) (tree.after requests) := by
  induction requests generalizing store tree with
  | nil => exact h
  | cons request requests ih =>
    -- The request keeps both what the store mirrors and that it is grounded.
    exact ih (h.perform hgrounded request hclear.1).2
      ((Store.grounded_perform_iff hgrounded request).2 hclear.1) hclear.2

end Mirrors

namespace Store

/-- As long as no directory is made below a file, the store that starts empty cannot be told from
a tree: every request comes to the same, and the store has the nodes of the tree at every time,
although it reads its directories off ranges of path texts. So a walk from the root meets each of
its nodes but the root, and none of them twice. -/
theorem refines_tree {requests : List Request} (hclear : empty.Clear requests) :
    (∀ earlier request later, requests = earlier ++ request :: later →
      request.outcome ((empty.after earlier).perform request).1 =
        ((Tree.empty.after earlier).perform request).1) ∧
    ∀ earlier, earlier <+: requests →
      Mirrors (empty.after earlier) (Tree.empty.after earlier) ∧
      (empty.after earlier).IsRanged ∧
      ∀ depth, (empty.after earlier).size ≤ depth →
        ("/" :: (empty.after earlier).walk depth "/").Nodup ∧
        ("/" :: (empty.after earlier).walk depth "/").Perm
          ((empty.after earlier).nodes.keys.map Location.text) ∧
        (empty.after earlier).size = ((empty.after earlier).walk depth "/").length + 1 := by
  -- Both hold after every beginning of the run, as that is a clear run itself.
  have hgrounded {earlier : List Request} (hearlier : earlier <+: requests) :
      (empty.after earlier).Grounded :=
    (hclear.of_isPrefix hearlier).grounded_after grounded_empty
  have hmirrors {earlier : List Request} (hearlier : earlier <+: requests) :
      Mirrors (empty.after earlier) (Tree.empty.after earlier) :=
    Mirrors.empty.after grounded_empty (hclear.of_isPrefix hearlier)
  constructor
  · rintro earlier request later rfl
    have hearlier : earlier <+: earlier ++ request :: later := List.prefix_append _ _
    -- The store after the request is grounded too, so the request made nothing below a file.
    have hrequest : ¬ request.IsBelowFile (empty.after earlier) := by
      have hnext : (empty.after (earlier ++ [request])).Grounded := hgrounded ⟨later, by simp⟩
      rw [after_append, after_cons, after_nil] at hnext
      exact (grounded_perform_iff (hgrounded hearlier) request).1 hnext
    exact ((hmirrors hearlier).perform (hgrounded hearlier) request hrequest).1
  · intro earlier hearlier
    refine ⟨hmirrors hearlier, (isRooted_after earlier).isRanged, fun depth hdepth => ?_⟩
    have hperm := (hgrounded hearlier).walk_perm (isRooted_after earlier) hdepth
    refine ⟨nodup_root_walk (isRooted_after earlier), hperm, ?_⟩
    have hlength := hperm.length_eq
    rw [List.length_map, List.length_cons, Dictionary.keys, List.length_map] at hlength
    exact hlength.symm

/-- Requests that lead to the same directories along different path texts, with two names of which
one begins with the other. -/
def siblings : List Request :=
  [.mkdir "//usr/./bin", .mkdir "/usrlocal/", .write "/usrlocal/../usr/bin/ls" [127],
    .remove "/usr"]

/-- After these requests there are two directories in the root, and a walk meets four nodes. -/
theorem siblings_in_root :
    empty.Clear (siblings ++ [.readdir "/.."]) ∧
      Request.outcome (.readdir "/..") ((empty.after siblings).perform (.readdir "/..")).1 =
        .ok [⟨"usr", ⟨.directory, 0⟩⟩, ⟨"usrlocal", ⟨.directory, 0⟩⟩] ∧
      ((empty.after siblings).walk 5 "/").length = 4 := by
  have hclear : empty.Clear (siblings ++ [.readdir "/.."]) := by decide +kernel
  have hlisting : (Tree.empty.after siblings).readdir (Tree.pathOf "/..") =
      .ok [⟨"usr", ⟨.directory, 0⟩⟩, ⟨"usrlocal", ⟨.directory, 0⟩⟩] := by decide +kernel
  have hsize : (empty.after siblings).size = 5 := by decide +kernel
  obtain ⟨houtcome, hwalk⟩ := refines_tree hclear
  refine ⟨hclear, (houtcome siblings _ [] rfl).trans hlisting, ?_⟩
  have hlength := ((hwalk siblings (List.prefix_append _ _)).2.2 5 hsize.le).2.2
  omega

end Store

end Honeypot
