import Honeypot.Dictionary
import Honeypot.Failure
import Honeypot.Path.Location
import Honeypot.Text.Utf8

/-!
# The filesystem of a session

A store files every node under its location. It is flat: a directory does not hold its children,
they are the nodes one name below it.

* `Store.readdir`, `Store.read`, `Store.stat`: what a path shows.
* `Store.write`, `Store.mkdir`, `Store.remove`: the store with one change made. A failure gives no
  store, so it leaves nothing behind.
* `Store.makeDirectories`: a directory with those above it that are missing.

## References

- [SPEC] `SPEC_FULL.md`: §6, External Interfaces
-/

namespace Honeypot

/-- What a path leads to. -/
inductive Kind where
  | file
  | directory
deriving DecidableEq, Repr

/-- One node of a filesystem. -/
inductive Node where
  /-- A regular file with its content. -/
  | file (content : Bytes)
  | directory
deriving DecidableEq, Repr

/-- What is told about a node without reading it. -/
structure Metadata where
  kind : Kind
  /-- The size in bytes, zero for a directory. -/
  size : Nat
deriving DecidableEq, Repr

/-- One line of a directory listing. -/
structure Entry where
  name : String
  metadata : Metadata
deriving DecidableEq, Repr

/-- The metadata of a node. -/
def Node.metadata : Node → Metadata
  | .file content => ⟨.file, content.length⟩
  | .directory => ⟨.directory, 0⟩

/-- Whether a location lies below another one, at any depth. -/
def Location.isBelow (location above : Location) : Bool :=
  location ≠ above && above.isSuffixOf location

/-- A filesystem held in memory. -/
structure Store where
  /-- The nodes by location. -/
  nodes : Dictionary Location Node

namespace Store

/-- The filesystem that holds the root directory alone. -/
def empty : Store := ⟨Dictionary.empty.insert Location.root .directory⟩

instance : Inhabited Store := ⟨empty⟩

/-- The node at a location. -/
def find? (store : Store) (location : Location) : Option Node :=
  store.nodes.find? location

/-- The number of nodes, the root included. -/
def size (store : Store) : Nat :=
  store.nodes.size

/-- The store with a node put at a location. -/
def insert (store : Store) (location : Location) (node : Node) : Store :=
  ⟨store.nodes.insert location node⟩

@[simp] theorem find?_insert (store : Store) (location other : Location) (node : Node) :
    (store.insert location node).find? other =
      if location = other then some node else store.find? other :=
  Dictionary.find?_insert store.nodes location other node

/-- The nodes one name below a location, as they come. -/
def children (store : Store) (directory : Location) : List Entry :=
  store.nodes.entries.filterMap fun (location, node) =>
    match location with
    | [] => none
    | name :: above => if above = directory then some ⟨name, node.metadata⟩ else none

/-- The direct children of a directory in order of their names. -/
def readdir (store : Store) (path : String) : Except Failure (List Entry) :=
  let location := Location.ofText path
  match store.find? location with
  | some .directory =>
    .ok ((store.children location).mergeSort fun one other => Text.bytewise one.name other.name)
  | some (.file _) => .error (.filesystem (.notDirectory location.text))
  | none => .error (.notFound "readdir" location.text)

/-- The content of a file. -/
def read (store : Store) (path : String) : Except Failure Bytes :=
  let location := Location.ofText path
  match store.find? location with
  | some (.file content) => .ok content
  | some .directory => .error (.filesystem (.isDirectory location.text))
  | none => .error (.notFound "open" location.text)

/-- The metadata of a file or directory. -/
def stat (store : Store) (path : String) : Except Failure Metadata :=
  let location := Location.ofText path
  match store.find? location with
  | some node => .ok node.metadata
  | none => .error (.notFound "stat" location.text)

/-- The store with a file created or replaced. The directory above it must exist. -/
def write (store : Store) (path : String) (content : Bytes) : Except Failure Store :=
  let location := Location.ofText path
  match store.find? location.parent with
  | none => .error (.notFound "open" location.parent.text)
  | some (.file _) => .error (.filesystem (.notDirectory location.parent.text))
  | some .directory =>
    if store.find? location = some .directory then
      .error (.filesystem (.isDirectory location.text))
    else .ok (store.insert location (.file content))

/-- The store with a directory at a location, and one at every location above it up to the first
that is taken already. -/
def makeDirectories : Location → Store → Store
  | [], store => store.insert Location.root .directory
  | name :: above, store =>
    -- Whatever is above is enough, even a file: what lies below a file is not reachable.
    let grounded := if (store.find? above).isSome then store else makeDirectories above store
    grounded.insert (name :: above) .directory

/-- The store with a directory and those missing above it. A directory that is there already is
kept. -/
def mkdir (store : Store) (path : String) : Except Failure Store :=
  let location := Location.ofText path
  match store.find? location with
  | some .directory => .ok store
  | some (.file _) => .error (.filesystem (.fileExists location.text))
  | none => .ok (makeDirectories location store)

/-- Whether a node lies below a location. -/
def hasBelow (store : Store) (location : Location) : Bool :=
  store.nodes.keys.any (Location.isBelow · location)

/-- The store without a file or an empty directory. The root stays. -/
def remove (store : Store) (path : String) : Except Failure Store :=
  let location := Location.ofText path
  if location = Location.root then .error (.filesystem .rootRemoval)
  else match store.find? location with
    | none => .error (.notFound "remove" location.text)
    | some (.file _) => .ok ⟨store.nodes.erase location⟩
    | some .directory =>
      if store.hasBelow location then .error (.filesystem (.notEmpty location.text))
      else .ok ⟨store.nodes.erase location⟩

/-- Whether anything exists at a path. -/
def contains (store : Store) (path : String) : Bool :=
  (store.find? (Location.ofText path)).isSome

/-- The store with directories made for a list of paths, in order. -/
def mkdirAll (store : Store) (paths : List String) : Except Failure Store :=
  paths.foldlM mkdir store

/-- The store with a list of files written, in order. -/
def writeAll (store : Store) (files : List (String × Bytes)) : Except Failure Store :=
  files.foldlM (fun store file => store.write file.1 file.2) store

end Store

end Honeypot
