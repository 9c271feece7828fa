import Honeypot.Proofs.Text.Order
import Honeypot.Proofs.Store.Basic
import Mathlib.Data.List.Infix

/-!
# Filesystems as trees

What a filesystem is for those who use it: a tree, where a directory holds its children, each
under one name, in the order of the names. The operations go down from the root along the names
of a path.

* `Tree`, `Tree.Ordered`: the trees, and those with children in order.
* `Tree.put?`, `Tree.cut`: a leaf put at a path, with the directories missing on the way, and a
  subtree taken away.
* `Tree.perform`, `Tree.after`: the answer to a request, and the tree after a list of them.
* `Tree.exists_put?_eq_some`, `Tree.node?_cut`: what these changes leave at every path.
* `Tree.Ordered.put?`, `Tree.Ordered.cut`: the children stay in order.
-/

namespace Honeypot

/-- A filesystem as a tree. -/
inductive Tree where
  | file (content : Bytes)
  /-- A directory with its children by name. -/
  | directory (children : List (String × Tree))

namespace Tree

/-- The root directory with nothing in it. -/
def empty : Tree := .directory []

/-- The node at the top of a tree. -/
def node : Tree → Node
  | .file content => .file content
  | .directory _ => .directory

/-- The tree at a path, which names the outermost directory first. -/
def find? : Tree → List String → Option Tree
  | tree, [] => some tree
  | .file _, _ :: _ => none
  | .directory children, name :: path =>
    match Entries.find? name children with
    | some child => child.find? path
    | none => none

/-- The node at a path. -/
def node? (tree : Tree) (path : List String) : Option Node :=
  (tree.find? path).map node

/-- Children with one of a name, in its place in the order of the names. -/
def place (name : String) (tree : Tree) : List (String × Tree) → List (String × Tree)
  | [] => [(name, tree)]
  | (other, child) :: children =>
    if name = other then (name, tree) :: children
    else if Text.bytewise name other then (name, tree) :: (other, child) :: children
    else (other, child) :: place name tree children

/-- The tree with a leaf put at a path. Directories that are missing on the way are made, and a
file on the way leaves no way. -/
def put? : Tree → List String → Tree → Option Tree
  | _, [], leaf => some leaf
  | .file _, _ :: _, _ => none
  | .directory children, name :: path, leaf =>
    (put? ((Entries.find? name children).getD empty) path leaf).map fun child =>
      .directory (place name child children)

/-- The tree without what is at a path. The top stays. -/
def cut : Tree → List String → Tree
  | tree, [] => tree
  | .file content, _ :: _ => .file content
  | .directory children, [name] => .directory (Entries.erase name children)
  | .directory children, name :: second :: path =>
    match Entries.find? name children with
    | some child => .directory (place name (child.cut (second :: path)) children)
    | none => .directory children

/-- What is told about the top of a tree: of a file, how long its content is. -/
def metadata : Tree → Metadata
  | .file content => ⟨.file, content.length⟩
  | .directory _ => ⟨.directory, 0⟩

/-- The listing of children. -/
def listing (children : List (String × Tree)) : List Entry :=
  children.map fun (name, child) => ⟨name, child.metadata⟩

end Tree

/-- The kinds of failures that a filesystem tells apart. -/
inductive Failure.Kind where
  /-- There is nothing at the path. -/
  | missing
  /-- The filesystem declines. -/
  | declined
  /-- The failure comes from elsewhere. -/
  | foreign
deriving DecidableEq, Repr

/-- The kind of a failure. -/
def Failure.kind : Failure → Failure.Kind
  | .notFound _ _ => .missing
  | .filesystem _ => .declined
  | _ => .foreign

namespace Request

/-- What a request comes to: its value or the kind of its failure. -/
def Outcome : Request → Type
  | .readdir _ => Except Failure.Kind (List Entry)
  | .read _ => Except Failure.Kind Bytes
  | .write _ _ => Except Failure.Kind Unit
  | .stat _ => Except Failure.Kind Metadata
  | .mkdir _ => Except Failure.Kind Unit
  | .remove _ => Except Failure.Kind Unit
  | .contains _ => Bool
  | .isDirectory _ => Except Failure.Kind Bool

/-- The outcome that an answer stands for. -/
def outcome : (request : Request) → request.Answer → request.Outcome
  | .readdir _ => Except.mapError Failure.kind
  | .read _ => Except.mapError Failure.kind
  | .write _ _ => Except.mapError Failure.kind
  | .stat _ => Except.mapError Failure.kind
  | .mkdir _ => Except.mapError Failure.kind
  | .remove _ => Except.mapError Failure.kind
  | .contains _ => id
  | .isDirectory _ => Except.mapError Failure.kind

end Request

namespace Tree

/-- The names of a path text from the root on. -/
def pathOf (text : String) : List String :=
  (Location.ofText text).reverse

/-- The listing of a directory. -/
def readdir (tree : Tree) (path : List String) : Except Failure.Kind (List Entry) :=
  match tree.find? path with
  | some (.directory children) => .ok (listing children)
  | some (.file _) => .error .declined
  | none => .error .missing

/-- The content of a file. -/
def read (tree : Tree) (path : List String) : Except Failure.Kind Bytes :=
  match tree.find? path with
  | some (.file content) => .ok content
  | some (.directory _) => .error .declined
  | none => .error .missing

/-- What is told about a file or directory. -/
def stat (tree : Tree) (path : List String) : Except Failure.Kind Metadata :=
  match tree.find? path with
  | some found => .ok found.metadata
  | none => .error .missing

/-- Whether there is a directory at a path. -/
def isDirectory (tree : Tree) (path : List String) : Bool :=
  match tree.find? path with
  | some (.directory _) => true
  | _ => false

/-- A tree that something was put into. Where there was no way to put it, this is declined. -/
def grown : Option Tree → Except Failure.Kind Tree
  | some later => .ok later
  | none => .error .declined

/-- The tree with a file written into a directory that is there. -/
def write (tree : Tree) (path : List String) (content : Bytes) : Except Failure.Kind Tree :=
  match tree.find? path.dropLast with
  | none => .error .missing
  | some (.file _) => .error .declined
  | some (.directory _) =>
    match tree.find? path with
    | some (.directory _) => .error .declined
    | _ => grown (tree.put? path (.file content))

/-- The tree with a directory, and those missing on the way to it. -/
def mkdir (tree : Tree) (path : List String) : Except Failure.Kind Tree :=
  match tree.find? path with
  | some (.directory _) => .ok tree
  | some (.file _) => .error .declined
  | none => grown (tree.put? path empty)

/-- The tree without a file or an empty directory. -/
def remove (tree : Tree) (path : List String) : Except Failure.Kind Tree :=
  if path = [] then .error .declined
  else match tree.find? path with
    | none => .error .missing
    | some (.directory (_ :: _)) => .error .declined
    | some _ => .ok (tree.cut path)

/-- The outcome of a change that may fail, and the tree after it. -/
def settled (tree : Tree) (change : Except Failure.Kind Tree) : Except Failure.Kind Unit × Tree :=
  match change with
  | .ok later => (.ok (), later)
  | .error kind => (.error kind, tree)

/-- The outcome of a request, and the tree after it. -/
def perform (tree : Tree) : (request : Request) → request.Outcome × Tree
  | .readdir path => (tree.readdir (pathOf path), tree)
  | .read path => (tree.read (pathOf path), tree)
  | .write path content => tree.settled (tree.write (pathOf path) content)
  | .stat path => (tree.stat (pathOf path), tree)
  | .mkdir path => tree.settled (tree.mkdir (pathOf path))
  | .remove path => tree.settled (tree.remove (pathOf path))
  | .contains path => ((tree.find? (pathOf path)).isSome, tree)
  | .isDirectory path => (.ok (tree.isDirectory (pathOf path)), tree)

/-- The tree after a list of requests. -/
def after (tree : Tree) (requests : List Request) : Tree :=
  requests.foldl (fun tree request => (tree.perform request).2) tree

/-! ## Children in order -/

/-- Children are in order if their names ascend, which also keeps the names different. -/
def Ascending (children : List (String × Tree)) : Prop :=
  children.Pairwise fun one other => Text.Precedes one.1 other.1

/-- A tree whose directories all have their children in order. -/
inductive Ordered : Tree → Prop where
  | file (content : Bytes) : Ordered (.file content)
  | directory {children : List (String × Tree)} (ascending : Ascending children)
      (ordered : ∀ child ∈ children, Ordered child.2) : Ordered (.directory children)

theorem ordered_empty : empty.Ordered :=
  .directory List.Pairwise.nil (by simp)

/-- Names in order are different. -/
theorem Ascending.nodup {children : List (String × Tree)} (h : Ascending children) :
    (children.map Prod.fst).Nodup := by
  rw [List.Nodup, List.pairwise_map]
  exact h.imp fun hprecedes => hprecedes.2

/-- A store tells about a node what is told about a tree with that node at its top. -/
theorem metadata_node (tree : Tree) : tree.node.metadata = tree.metadata := by
  cases tree <;> rfl

/-- A listing names the children with what is told about them. -/
theorem mem_listing_iff {children : List (String × Tree)} (h : Ascending children) {entry : Entry} :
    entry ∈ listing children ↔ ∃ child, Entries.find? entry.name children = some child ∧
      entry.metadata = child.metadata := by
  rw [listing, List.mem_map]
  constructor
  · rintro ⟨⟨name, child⟩, hmem, rfl⟩
    exact ⟨child, (Entries.mem_iff h.nodup).1 hmem, rfl⟩
  · rintro ⟨child, hchild, hmetadata⟩
    refine ⟨(entry.name, child), (Entries.mem_iff h.nodup).2 hchild, ?_⟩
    dsimp only
    rw [← hmetadata]

/-- Listings are in the order of their names. -/
theorem pairwise_listing {children : List (String × Tree)} (h : Ascending children) :
    (listing children).Pairwise fun one other => Text.Precedes one.name other.name := by
  rw [listing, List.pairwise_map]
  exact h

@[simp]
theorem find?_place (name other : String) (tree : Tree) (children : List (String × Tree)) :
    Entries.find? other (place name tree children) =
      if name = other then some tree else Entries.find? other children := by
  induction children with
  | nil => simp [place, Entries.find?]
  | cons entry children ih =>
    obtain ⟨first, child⟩ := entry
    by_cases hfirst : name = first
    · subst hfirst
      by_cases hother : name = other <;> simp [place, Entries.find?, hother]
    · rw [place, if_neg hfirst]
      -- A place before the first child, or further on.
      by_cases hbefore : Text.bytewise name first = true
      · rw [if_pos hbefore, Entries.find?]
      · rw [if_neg hbefore, Entries.find?, Entries.find?, ih]
        by_cases hother : first = other
        · rw [if_pos hother, if_pos hother, if_neg (hother ▸ hfirst)]
        · rw [if_neg hother, if_neg hother]

/-- What is placed among children is the tree or one of them. -/
theorem mem_place {name : String} {tree : Tree} {children : List (String × Tree)}
    {entry : String × Tree} (h : entry ∈ place name tree children) :
    entry = (name, tree) ∨ entry ∈ children := by
  induction children with
  | nil => exact .inl (List.mem_singleton.1 h)
  | cons first children ih =>
    rw [place] at h
    split_ifs at h
    · rcases List.mem_cons.1 h with heq | hmem
      · exact .inl heq
      · exact .inr (List.mem_cons_of_mem _ hmem)
    · exact List.mem_cons.1 h
    · rcases List.mem_cons.1 h with rfl | hmem
      · exact .inr List.mem_cons_self
      · exact (ih hmem).imp_right (List.mem_cons_of_mem _)

/-- A tree is placed where the order wants it. -/
theorem Ascending.place {children : List (String × Tree)} (h : Ascending children) (name : String)
    (tree : Tree) : Ascending (place name tree children) := by
  induction children with
  | nil => exact List.pairwise_singleton _ _
  | cons first children ih =>
    obtain ⟨other, child⟩ := first
    obtain ⟨hfirst, hchildren⟩ := List.pairwise_cons.1 h
    rw [Tree.place]
    split_ifs with heq hbefore
    · -- The name is there, or comes first, or comes after the first child.
      subst heq
      exact List.pairwise_cons.2 ⟨hfirst, hchildren⟩
    · refine List.pairwise_cons.2 ⟨?_, h⟩
      have hprecedes : Text.Precedes name other := ⟨hbefore, heq⟩
      intro entry hentry
      rcases List.mem_cons.1 hentry with rfl | hentry
      · exact hprecedes
      · exact hprecedes.trans (hfirst entry hentry)
    · refine List.pairwise_cons.2 ⟨?_, ih hchildren⟩
      intro entry hentry
      rcases mem_place hentry with rfl | hentry
      · exact Text.precedes_of_bytewise_eq_false heq (by simpa using hbefore)
      · exact hfirst entry hentry

/-! ## Nodes after a change -/

@[simp]
theorem node?_nil (tree : Tree) : tree.node? [] = some tree.node := by
  cases tree <;> rfl

@[simp]
theorem node?_file_cons (content : Bytes) (name : String) (path : List String) :
    (file content).node? (name :: path) = none := rfl

theorem node?_directory_cons (children : List (String × Tree)) (name : String)
    (path : List String) :
    (directory children).node? (name :: path) =
      (Entries.find? name children).bind fun child => child.node? path := by
  rw [node?, find?]
  cases Entries.find? name children <;> rfl

/-- What is found down a path is found from what its beginning leads to. -/
theorem find?_append (tree : Tree) (path more : List String) :
    tree.find? (path ++ more) = (tree.find? path).bind fun found => found.find? more := by
  induction path generalizing tree with
  | nil => cases tree <;> rfl
  | cons name path ih =>
    cases tree with
    | file content => rfl
    | directory children =>
      rw [List.cons_append, find?, find?]
      cases Entries.find? name children with
      | none => rfl
      | some child => exact ih child

/-- Nothing is in an empty directory. -/
theorem node?_empty (path : List String) :
    empty.node? path = if path = [] then some .directory else none := by
  cases path with
  | nil => rfl
  | cons name path => rfl

/-- A leaf of a tree: nothing is below its top. -/
def IsLeaf (tree : Tree) : Prop :=
  tree = empty ∨ ∃ content, tree = .file content

/-- Whether a path of a tree has a file on the way to it. -/
def HasFileOnTheWay (tree : Tree) (path : List String) : Prop :=
  ∃ above content, above <+: path ∧ above ≠ path ∧ tree.node? above = some (.file content)

theorem node?_of_isLeaf {leaf : Tree} (h : leaf.IsLeaf) (path : List String) :
    leaf.node? path = if path = [] then some leaf.node else none := by
  obtain rfl | ⟨content, rfl⟩ := h
  · exact node?_empty path
  · cases path with
    | nil => rfl
    | cons name path => rfl

/-- Below a child, or below what would be made in its place, there is what is below its name. -/
theorem node?_getD_empty (children : List (String × Tree)) (name : String) {path : List String}
    (hpath : path ≠ []) :
    ((Entries.find? name children).getD empty).node? path =
      (directory children).node? (name :: path) := by
  rw [node?_directory_cons]
  cases Entries.find? name children with
  | none => exact (node?_empty path).trans (if_neg hpath)
  | some child => rfl

/-- What is a file in a child, or in what would be made in its place, is one below its name. -/
theorem node?_cons_of_getD_empty {children : List (String × Tree)} {name : String}
    {path : List String} {content : Bytes}
    (h : ((Entries.find? name children).getD empty).node? path = some (.file content)) :
    (directory children).node? (name :: path) = some (.file content) := by
  rw [node?_directory_cons]
  cases hchild : Entries.find? name children with
  | none =>
    rw [hchild, Option.getD_none, node?_empty] at h
    split_ifs at h
    simp at h
  | some child =>
    rw [hchild] at h
    exact h

/-- Where there is no file on the way and nothing below, a leaf is put at a path with directories
above it, and nothing else changes. -/
theorem exists_put?_eq_some {tree leaf : Tree} {path : List String} (hleaf : leaf.IsLeaf)
    (hway : ¬ tree.HasFileOnTheWay path)
    (hbelow : ∀ below, path <+: below → below ≠ path → tree.node? below = none) :
    ∃ later, tree.put? path leaf = some later ∧ ∀ other, later.node? other =
      if other = path then some leaf.node else if other <+: path then some .directory
      else tree.node? other := by
  induction path generalizing tree with
  | nil =>
    refine ⟨leaf, by rw [put?], fun other => ?_⟩
    rw [node?_of_isLeaf hleaf]
    split_ifs with h hfront
    · rfl
    · exact absurd (List.prefix_nil.1 hfront) h
    · exact (hbelow other List.nil_prefix h).symm
  | cons name path ih =>
    cases tree with
    | file content =>
      exact absurd ⟨[], content, List.nil_prefix, by simp, by simp [node]⟩ hway
    | directory children =>
      -- The child, or the empty directory made in its place, meets the conditions one name down.
      have hchildWay : ¬ ((Entries.find? name children).getD empty).HasFileOnTheWay path := by
        rintro ⟨above, content, habove, hne, hfile⟩
        refine hway ⟨name :: above, content, ?_, by simpa using hne, node?_cons_of_getD_empty hfile⟩
        exact List.cons_prefix_cons.2 ⟨rfl, habove⟩
      have hchildBelow : ∀ below, path <+: below → below ≠ path →
          ((Entries.find? name children).getD empty).node? below = none := by
        intro below hpath hne
        have hnil : below ≠ [] := by
          rintro rfl
          exact hne (List.prefix_nil.1 hpath).symm
        rw [node?_getD_empty children name hnil]
        exact hbelow _ (List.cons_prefix_cons.2 ⟨rfl, hpath⟩) (by simpa using hne)
      obtain ⟨later, hput, hlater⟩ := ih hchildWay hchildBelow
      refine ⟨directory (place name later children), by rw [put?, hput]; rfl, fun other => ?_⟩
      cases other with
      | nil => simp [node]
      | cons first other =>
        rw [node?_directory_cons, find?_place]
        -- Under the name there is what was put, under the others what was there.
        by_cases hfirst : name = first
        · subst hfirst
          rw [if_pos rfl, Option.bind_some, hlater]
          simp only [List.cons.injEq, List.cons_prefix_cons, true_and]
          split_ifs with heq hfront
          · rfl
          · rfl
          · refine node?_getD_empty children name ?_
            rintro rfl
            exact hfront List.nil_prefix
        · rw [if_neg hfirst, ← node?_directory_cons]
          simp [Ne.symm hfirst]

theorem IsLeaf.ordered {leaf : Tree} (h : leaf.IsLeaf) : leaf.Ordered := by
  obtain rfl | ⟨content, rfl⟩ := h
  · exact ordered_empty
  · exact .file content

/-- Every child of a tree in order is in order. -/
theorem Ordered.of_find? {children : List (String × Tree)} (h : (Tree.directory children).Ordered)
    {name : String} {child : Tree} (hchild : Entries.find? name children = some child) :
    child.Ordered := by
  cases h with
  | directory hascending hordered =>
    exact hordered _ ((Entries.mem_iff hascending.nodup).2 hchild)

/-- Everything in a tree in order is in order. -/
theorem Ordered.find? {tree found : Tree} (h : tree.Ordered) {path : List String}
    (hfound : tree.find? path = some found) : found.Ordered := by
  induction path generalizing tree with
  | nil =>
    have heq : tree = found := by
      cases tree <;> exact Option.some.inj hfound
    exact heq ▸ h
  | cons name path ih =>
    cases tree with
    | file content => simp [Tree.find?] at hfound
    | directory children =>
      rw [Tree.find?] at hfound
      cases hchild : Entries.find? name children with
      | none => simp [hchild] at hfound
      | some child =>
        rw [hchild] at hfound
        exact ih (h.of_find? hchild) hfound

/-- The children of a tree in order have different names. -/
theorem Ordered.nodup {children : List (String × Tree)} (h : (Tree.directory children).Ordered) :
    (children.map Prod.fst).Nodup := by
  cases h with
  | directory hascending _ => exact hascending.nodup

/-- A path with nothing below it is cut off, and nothing else changes. -/
theorem node?_cut {tree : Tree} (hordered : tree.Ordered) {path : List String} (hpath : path ≠ [])
    (hbelow : ∀ below, path <+: below → below ≠ path → tree.node? below = none)
    (other : List String) :
    (tree.cut path).node? other = if other = path then none else tree.node? other := by
  induction path generalizing tree other with
  | nil => exact absurd rfl hpath
  | cons name path ih =>
    cases tree with
    | file content =>
      rw [cut]
      split_ifs with heq
      · rw [heq, node?_file_cons]
      · rfl
    | directory children =>
      cases path with
      | nil =>
        -- The path ends here: the child goes, and there is nothing further down.
        rw [cut]
        cases other with
        | nil => simp [node]
        | cons first other =>
          rw [node?_directory_cons, Entries.find?_erase _ _ hordered.nodup]
          by_cases hfirst : name = first
          · subst hfirst
            rw [if_pos rfl, Option.bind_none]
            split_ifs with heq
            · rfl
            · exact (hbelow _ (List.prefix_append [name] other) heq).symm
          · rw [if_neg hfirst, ← node?_directory_cons, if_neg]
            rintro heq
            exact hfirst (List.cons.inj heq).1.symm
      | cons second path =>
        -- The path goes on: it is cut from the child, if there is one.
        rw [cut]
        cases hchild : Entries.find? name children with
        | none =>
          dsimp only
          split_ifs with heq
          · rw [heq, node?_directory_cons, hchild, Option.bind_none]
          · rfl
        | some child =>
          dsimp only
          cases other with
          | nil => simp [node]
          | cons first other =>
            rw [node?_directory_cons, find?_place]
            by_cases hfirst : name = first
            · subst hfirst
              have hchildBelow : ∀ below, second :: path <+: below → below ≠ second :: path →
                  child.node? below = none := by
                intro below hfront hne
                have hnone := hbelow (name :: below) (List.cons_prefix_cons.2 ⟨rfl, hfront⟩)
                  (by simpa using hne)
                rw [node?_directory_cons, hchild, Option.bind_some] at hnone
                exact hnone
              rw [if_pos rfl, Option.bind_some,
                ih (hordered.of_find? hchild) (by simp) hchildBelow, node?_directory_cons, hchild,
                Option.bind_some]
              simp only [List.cons.injEq, true_and]
            · rw [if_neg hfirst, ← node?_directory_cons, if_neg]
              rintro heq
              exact hfirst (List.cons.inj heq).1.symm

/-! ## What a request keeps -/

/-- A tree in order is placed among children in order. -/
theorem Ordered.place {children : List (String × Tree)} (h : (Tree.directory children).Ordered)
    {tree : Tree} (htree : tree.Ordered) (name : String) :
    (Tree.directory (place name tree children)).Ordered := by
  cases h with
  | directory hascending hordered =>
    refine .directory (hascending.place name tree) fun entry hentry => ?_
    rcases mem_place hentry with rfl | hentry
    · exact htree
    · exact hordered entry hentry

/-- A tree in order is still so with a leaf put in. -/
theorem Ordered.put? {tree leaf later : Tree} {path : List String} (h : tree.Ordered)
    (hleaf : leaf.Ordered) (hput : tree.put? path leaf = some later) : later.Ordered := by
  induction path generalizing tree later with
  | nil =>
    rw [Tree.put?, Option.some.injEq] at hput
    exact hput ▸ hleaf
  | cons name path ih =>
    cases tree with
    | file content => simp [Tree.put?] at hput
    | directory children =>
      rw [Tree.put?, Option.map_eq_some_iff] at hput
      obtain ⟨child, hchild, rfl⟩ := hput
      refine h.place (ih ?_ hchild) name
      -- What is put into is in order, be it a child or made for the purpose.
      cases hfound : Entries.find? name children with
      | none => exact ordered_empty
      | some found => exact h.of_find? hfound

/-- A tree in order is still so with something cut off. -/
theorem Ordered.cut {tree : Tree} (h : tree.Ordered) (path : List String) :
    (tree.cut path).Ordered := by
  induction path generalizing tree with
  | nil => rwa [Tree.cut]
  | cons name path ih =>
    cases tree with
    | file content => rwa [Tree.cut]
    | directory children =>
      -- The last name is erased from the children, one further up leads into a child.
      cases path with
      | nil =>
        rw [Tree.cut]
        cases h with
        | directory hascending hordered =>
          have hsublist := Entries.erase_sublist name children
          exact .directory (hascending.sublist hsublist)
            fun entry hentry => hordered entry (hsublist.subset hentry)
      | cons second path =>
        rw [Tree.cut]
        cases hchild : Entries.find? name children with
        | none => exact h
        | some child => exact h.place (ih (h.of_find? hchild)) name

end Tree

end Honeypot
