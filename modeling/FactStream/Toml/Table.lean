import FactStream.Toml.Value

/-!
# Tables of TOML

The tables of a document while it is read. A table may come up before its own header, because of a
longer header or a key with dots; it then counts as implied. A key with dots must not reach into a
table that has a header, and a header must not come twice.
-/

namespace FactStream.Toml

mutual

/-- What a table has at a key. -/
inductive Item where
  | value (v : Value)
  | table (t : Table)
  /-- The tables of a list, each with a header of its own; the last one is open. -/
  | tables (earlier : List Table) (last : Table)

/-- A table. -/
inductive Table where
  /-- `implied` tells that the table had no header yet, `dotted` that it comes from a key with
  dots. -/
  | mk (implied dotted : Bool) (entries : List (String × Item))

end

namespace Table

/-- A table without entries that has a header. -/
def empty : Table := .mk false false []

def implied : Table → Bool
  | mk implied _ _ => implied

def dotted : Table → Bool
  | mk _ dotted _ => dotted

def entries : Table → List (String × Item)
  | mk _ _ entries => entries

/-- What the table has at a key. -/
def get? (t : Table) (key : String) : Option Item :=
  t.entries.lookup key

/-- The table with an item at a key, whatever stood there before. -/
def set (t : Table) (key : String) (item : Item) : Table :=
  .mk t.implied t.dotted ((key, item) :: t.entries.filter fun e => e.1 != key)

/-- Changes the table at the end of a path. Tables that are not there are made; `dotted` tells
whether the path comes from a key with dots. In a list of tables the path goes on in the last. -/
def modify (dotted : Bool) (change : Table → Option Table) : List String → Table → Option Table
  | [], t => change t
  | key :: rest, t =>
    match t.get? key with
    | none => (modify dotted change rest (.mk true dotted [])).map fun u => t.set key (.table u)
    | some (.value _) => none
    | some (.table u) =>
      if dotted && !u.implied then none
      else (modify dotted change rest u).map fun u => t.set key (.table u)
    | some (.tables earlier last) =>
      (modify dotted change rest last).map fun last => t.set key (.tables earlier last)

/-- Adds a value under a key with or without dots. -/
def addValue (path : List String) (value : Value) (t : Table) : Option Table :=
  match path.getLast? with
  | none => none
  | some key =>
    let parents := path.dropLast
    t.modify true (fun u =>
      if u.dotted == parents.isEmpty || (u.get? key).isSome then none
      else some (u.set key (.value value))) parents

/-- Opens the table of a header. -/
def addTable (path : List String) (t : Table) : Option Table :=
  match path.getLast? with
  | none => none
  | some key =>
    t.modify false (fun u =>
      match u.get? key with
      | none => some (u.set key (.table .empty))
      | some (.table (.mk true false entries)) =>
        some (u.set key (.table (.mk false false entries)))
      | some _ => none) path.dropLast

/-- Opens a table at the end of the list of a header. -/
def addElement (path : List String) (t : Table) : Option Table :=
  match path.getLast? with
  | none => none
  | some key =>
    t.modify false (fun u =>
      match u.get? key with
      | none => some (u.set key (.tables [] .empty))
      | some (.tables earlier last) => some (u.set key (.tables (earlier ++ [last]) .empty))
      | some _ => none) path.dropLast

end Table

mutual

/-- The value of what a table has at a key. -/
def Item.toValue : Item → Value
  | .value v => v
  | .table t => .table t.toEntries
  | .tables earlier last => .list (Table.toValues earlier ++ [.table last.toEntries])

/-- The entries of a table as values. -/
def Table.toEntries : Table → List (String × Value)
  | .mk _ _ entries => Item.toValues entries

/-- The values of entries. -/
def Item.toValues : List (String × Item) → List (String × Value)
  | [] => []
  | (key, item) :: rest => (key, item.toValue) :: Item.toValues rest

/-- The values of tables. -/
def Table.toValues : List Table → List Value
  | [] => []
  | t :: rest => .table t.toEntries :: Table.toValues rest

end

end FactStream.Toml
