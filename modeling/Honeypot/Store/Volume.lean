import Honeypot.Store.Basic

/-!
# Volumes

A volume is a store as a session sees it: some operations on some paths may be denied. A denial
names an operation and a part of a path, and holds for every path text that contains the part,
before the text is read as a location.

* `Request`: the questions and orders that a volume takes; `Request.Answer` is what each gives.
* `Volume.perform`: the answer to a request and the volume after it.

## References

- [SPEC] `SPEC_FULL.md`: §6, External Interfaces
-/

namespace Honeypot

/-- An operation that can be denied. -/
inductive Operation where
  | readdir
  | read
  | write
  | stat
  | mkdir
  | remove
deriving DecidableEq, Repr

/-- A store with operations that are denied on some paths. -/
structure Volume where
  store : Store
  /-- The denied operations, each with the part of a path on which it is denied. -/
  denials : List (Operation × String)

namespace Volume

/-- A volume on which nothing is denied. -/
def ofStore (store : Store) : Volume := ⟨store, []⟩

/-- Whether a text contains another one. -/
def hasPart (part text : List Char) : Bool :=
  match text with
  | [] => part.isPrefixOf []
  | c :: rest => part.isPrefixOf (c :: rest) || hasPart part rest

/-- Whether an operation is denied on a path. -/
def denies (volume : Volume) (operation : Operation) (path : String) : Bool :=
  volume.denials.any fun denial =>
    denial.1 = operation && hasPart denial.2.toList path.toList

/-- The outcome of an operation on the store, unless it is denied. -/
def guarded {α : Type} (volume : Volume) (operation : Operation) (path : String)
    (outcome : Except Failure α) : Except Failure α :=
  if volume.denies operation path then .error (.filesystem .permissionDenied) else outcome

/-- The metadata of a file or directory. -/
def stat (volume : Volume) (path : String) : Except Failure Metadata :=
  volume.guarded .stat path (volume.store.stat path)

/-- The content of a file. -/
def read (volume : Volume) (path : String) : Except Failure Bytes :=
  volume.guarded .read path (volume.store.read path)

/-- The direct children of a directory in order of their names. -/
def readdir (volume : Volume) (path : String) : Except Failure (List Entry) :=
  volume.guarded .readdir path (volume.store.readdir path)

/-- Whether a path leads to a directory. Nothing and a file are no directory; a path that cannot
be inspected is a failure. -/
def isDirectory (volume : Volume) (path : String) : Except Failure Bool :=
  match volume.stat path with
  | .ok metadata => .ok (metadata.kind = .directory)
  | .error failure => if failure.isNotFound then .ok false else .error failure

/-- The answer and the volume after a change that may fail. A failed change is none. -/
def changed (volume : Volume) (outcome : Except Failure Store) : Except Failure Unit × Volume :=
  match outcome with
  | .ok store => (.ok (), { volume with store })
  | .error failure => (.error failure, volume)

/-- The volume with a file created or replaced. -/
def write (volume : Volume) (path : String) (content : Bytes) : Except Failure Unit × Volume :=
  volume.changed (volume.guarded .write path (volume.store.write path content))

/-- The volume with a directory and those missing above it. -/
def mkdir (volume : Volume) (path : String) : Except Failure Unit × Volume :=
  volume.changed (volume.guarded .mkdir path (volume.store.mkdir path))

/-- The volume without a file or an empty directory. -/
def remove (volume : Volume) (path : String) : Except Failure Unit × Volume :=
  volume.changed (volume.guarded .remove path (volume.store.remove path))

end Volume

/-- What may be asked of a volume. -/
inductive Request where
  | readdir (path : String)
  | read (path : String)
  | write (path : String) (content : Bytes)
  | stat (path : String)
  | mkdir (path : String)
  | remove (path : String)
  /-- Whether anything exists at a path. This is never denied. -/
  | contains (path : String)
  | isDirectory (path : String)
deriving DecidableEq, Repr

/-- What a request gives. -/
def Request.Answer : Request → Type
  | .readdir _ => Except Failure (List Entry)
  | .read _ => Except Failure Bytes
  | .write _ _ => Except Failure Unit
  | .stat _ => Except Failure Metadata
  | .mkdir _ => Except Failure Unit
  | .remove _ => Except Failure Unit
  | .contains _ => Bool
  | .isDirectory _ => Except Failure Bool

/-- The answer to a request, and the volume after it. -/
def Volume.perform (volume : Volume) : (request : Request) → request.Answer × Volume
  | .readdir path => (volume.readdir path, volume)
  | .read path => (volume.read path, volume)
  | .write path content => volume.write path content
  | .stat path => (volume.stat path, volume)
  | .mkdir path => volume.mkdir path
  | .remove path => volume.remove path
  -- Only the store itself is asked.
  | .contains path => (volume.store.contains path, volume)
  | .isDirectory path => (volume.isDirectory path, volume)

end Honeypot
