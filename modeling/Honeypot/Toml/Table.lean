/-!
# Tables

The content of a TOML document. What may be added to a table depends on how it came about, so every
table keeps its origin.

* `Item`: a value or a table under a key.
* `Table.within`: the change of a table found along a path of keys, tables being made where there
  are none.
* `Table.define`: a key with a value, where a dotted key reaches into tables made by dotted keys.
* `Table.reopened`, `Table.file`, `Table.fileAlso`: the tables of headers.
-/

namespace Honeypot.Toml

/-- How a table came about. -/
inductive Origin where
  /-- It has a header of its own. -/
  | header
  /-- It stands above a table with a header. -/
  | implied
  /-- It was made by a dotted key. -/
  | dotted
deriving DecidableEq, Repr

/-- What stands under a key. -/
inductive Item where
  | string (text : String)
  | integer (value : Int)
  | float
  | boolean
  /-- A date or time in its canonical text. -/
  | moment (text : String)
  | array (elements : List Item)
  /-- A table written as a value, to which nothing can be added. -/
  | inline (entries : List (String × Item))
  | table (origin : Origin) (entries : List (String × Item))
  /-- Tables with the same header, the last one first. -/
  | tables (elements : List (List (String × Item)))

/-- The entries of a table. -/
abbrev Table := List (String × Item)

namespace Table

/-- What stands under a key. -/
def find? (table : Table) (key : String) : Option Item :=
  (List.find? (fun entry => entry.1 = key) table).map Prod.snd

/-- A table with a key set to an item. -/
def set (table : Table) (key : String) (item : Item) : Table :=
  if (table.find? key).isSome then
    table.map fun entry => if entry.1 = key then (key, item) else entry
  else table ++ [(key, item)]

/-- A table with a change made to the table at the end of a path of keys. Where there is no table
on the way, one of the given origin is made. A table on the way is entered if it is open to that
origin: dotted keys enter no table with a header of its own. Of several tables with one header the
last one is entered. -/
def within (made : Origin) : List String → (Origin → Table → Option Table) → Origin → Table →
    Option Table
  | [], change, origin, table => change origin table
  | key :: path, change, _, table =>
    match table.find? key with
    | none => do
      let inner ← within made path change made []
      some (table.set key (.table made inner))
    | some (.table origin inner) =>
      if made = .dotted ∧ origin = .header then none
      else do
        let inner ← within made path change origin inner
        some (table.set key (.table origin inner))
    | some (.tables (last :: others)) => do
      let last ← within made path change .header last
      some (table.set key (.tables (last :: others)))
    | some _ => none

/-- A table with a value put under a path of keys. The table that takes it must have been made by
dotted keys if there is a path to it, and the key must be free. -/
def define (path : List String) (key : String) (item : Item) (table : Table) : Option Table :=
  within .dotted path (fun origin inner =>
    -- With a path the table must be a dotted one, without a path it must not.
    if (origin = .dotted) = (path = []) then none
    else if (inner.find? key).isSome then none
    else some (inner.set key item)) .header table

/-- The table at the end of a path of keys, the last one of several; an empty one where nothing
stands yet. -/
def at? : List String → Table → Option Table
  | [], table => some table
  | key :: path, table =>
    match table.find? key with
    | none => some []
    | some (.table _ inner) => at? path inner
    | some (.tables (last :: _)) => at? path last
    | some _ => none

/-- What a header starts with: an empty table, or one that only stood above others so far. -/
def reopened (path : List String) (key : String) (table : Table) : Option Table := do
  let parent ← table.at? path
  match parent.find? key with
  | none => some []
  | some (.table .implied inner) => some inner
  | some _ => none

/-- A table with another one filed under the path and key of its header. -/
def file (table : Table) (path : List String) (key : String) (inner : Table) : Option Table :=
  within .implied path (fun _ parent => some (parent.set key (.table .header inner)))
    .header table

/-- A table with another one added to those that have the same header. -/
def fileAlso (table : Table) (path : List String) (key : String) (inner : Table) : Option Table :=
  within .implied path (fun _ parent =>
    match parent.find? key with
    | none => some (parent.set key (.tables [inner]))
    | some (.tables others) => some (parent.set key (.tables (inner :: others)))
    | some _ => none) .header table

end Table

end Honeypot.Toml
