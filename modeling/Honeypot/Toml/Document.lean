import Honeypot.Toml.Value

/-!
# Documents

A TOML document is a list of statements: a key with its value, or a header under which the
following keys stand. `Document.read` gives the table that a document describes, or none if it is
not well-formed.

## References

- [SPEC] `SPEC_FULL.md`: §9.3, Configuration
-/

namespace Honeypot.Toml

/-- Where the following keys stand. -/
inductive Place where
  /-- Before any header. -/
  | top
  /-- Under the header of a table. -/
  | table (path : List String) (key : String)
  /-- Under one of several headers that are alike. -/
  | element (path : List String) (key : String)
deriving DecidableEq, Repr

/-- A document of which a part has been read. -/
structure Draft where
  /-- What stands under finished headers. -/
  root : Table
  place : Place
  /-- What stands under the last header. -/
  current : Table

namespace Draft

/-- A document of which nothing has been read. -/
def empty : Draft := ⟨[], .top, []⟩

/-- All that has been read. -/
def finish (draft : Draft) : Option Table :=
  match draft.place with
  | .top => some draft.current
  | .table path key => draft.root.file path key draft.current
  | .element path key => draft.root.fileAlso path key draft.current

/-- The draft after a header. -/
def under (draft : Draft) (place : Place) : Option Draft := do
  let root ← draft.finish
  -- A table that only stood above others so far keeps them; its header may come late.
  match place with
  | .table path key => do
    let current ← root.reopened path key
    some ⟨root, place, current⟩
  | _ => some ⟨root, place, []⟩

/-- The draft after a key with its value. -/
def define (draft : Draft) (path : List String) (key : String) (item : Item) : Option Draft := do
  let current ← draft.current.define path key item
  some { draft with current }

end Draft

/-- A header, after its first bracket. -/
def header (text : List Char) : Option (Place × List Char) :=
  match text with
  | '[' :: rest => do
    let ((path, key), rest) ← dottedKey rest
    let rest ← expect ']' rest
    some (.element path key, ← expect ']' rest)
  | rest => do
    let ((path, key), rest) ← dottedKey rest
    some (.table path key, ← expect ']' rest)

/-- The draft after one statement, and the text after it. -/
def statement (draft : Draft) (text : List Char) : Option (Draft × List Char) :=
  match text with
  | '[' :: rest => do
    let (place, rest) ← header rest
    let rest ← lineEnd rest
    some (← draft.under place, rest)
  | '#' :: _ | '\n' :: _ | '\r' :: _ => do
    some (draft, ← lineEnd text)
  | _ => do
    let ((path, key), rest) ← keyAndSign text
    let (item, rest) ← anyValue rest
    let rest ← lineEnd rest
    some (← draft.define path key item, rest)

/-- The draft after all statements, of which there are fewer than so many. -/
def statements : Nat → Draft → List Char → Option Draft
  | 0, _, _ => none
  | count + 1, draft, text =>
    match blank text with
    | [] => some draft
    | text => do
      let (draft, rest) ← statement draft text
      statements count draft rest

/-- The table that a document describes. A byte order mark at its beginning does not count. -/
def Document.read (document : String) : Option Table := do
  let text := match document.toList with
    | '\uFEFF' :: rest => rest
    | text => text
  (← statements (text.length + 1) .empty text).finish

end Honeypot.Toml
