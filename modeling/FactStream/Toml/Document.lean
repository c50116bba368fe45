import FactStream.Toml.Scalar
import FactStream.Toml.Table

/-!
# TOML documents

Reads a TOML document into its entries. A document is a list of statements: values under keys, and
headers of tables.
-/

namespace FactStream.Toml

open Text Text.Reader

/-- The table of values under keys. -/
def tableOf (pairs : List (List String × Value)) : Option Table :=
  pairs.foldlM (fun t pair => t.addValue pair.1 pair.2) .empty

/-- A value, given how many levels of lists and tables it may have. -/
def value : Nat → Reader Value
  | 0 => failure
  | depth + 1 => scalar <|> (do
      if depth = 0 then failure
      match ← char fun c => c = '[' ∨ c = '\x7b' with
      | '[' =>
        let items ← optional (separated (do gap; let v ← value depth; gap; pure v) (word [',']))
        if items.isSome then let _ ← optional (word [','])
        gap
        word [']']
        pure (.list (items.getD []))
      | _ =>
        let pair := do
          let key ← key
          word ['=']
          spaces
          let v ← value depth
          spaces
          pure (key, v)
        let pairs ← optional (separated pair (word [',']))
        spaces
        word ['\x7d']
        match tableOf (pairs.getD []) with
        | some t => pure (.table t.toEntries)
        | none => failure)

/-- A statement of a document. -/
inductive Statement where
  /-- A value under a key. -/
  | pair (key : List String) (value : Value)
  /-- The header of a table. -/
  | header (key : List String)
  /-- The header of a table in a list. -/
  | element (key : List String)

/-- A statement with the rest of its line. -/
def statement : Reader Statement := do
  let s ←
    (do
      word ['[', '[']
      let key ← key
      word [']', ']']
      pure (.element key)) <|>
    (do
      word ['[']
      let key ← key
      word [']']
      pure (.header key)) <|>
    (do
      let key ← key
      word ['=']
      spaces
      pure (.pair key (← value depthLimit)))
  lineEnd
  pure s

/-- A line: a statement, a comment, or nothing. -/
def line : Reader (Option Statement) := do
  spaces
  (do pure (some (← statement))) <|> (do lineEnd; pure none)

/-- The statements of a text. A byte order mark in front does not count. -/
def statements : Reader (List Statement) := do
  let _ ← optional (word ['\ufeff'])
  pure ((← many line).filterMap id)

/-- The table that statements build up, with the path of the header that counts. -/
def Statement.apply (state : List String × Table) : Statement → Option (List String × Table)
  | .pair key value =>
    (state.2.modify false (fun t => t.addValue key value) state.1).map fun t => (state.1, t)
  | .header key => (state.2.addTable key).map fun t => (key, t)
  | .element key => (state.2.addElement key).map fun t => (key, t)

/-- The entries of a document. -/
def parse? (text : String) : Option (List (String × Value)) := do
  let statements ← statements.run? text.toList
  let (_, table) ← statements.foldlM Statement.apply ([], .empty)
  pure table.toEntries

end FactStream.Toml
