import FactStream.Json
import FactStream.Sink

/-!
# Records

A fact is written as one JSON object in a line of its own.
-/

namespace FactStream

/-- A property as a JSON object. -/
def Property.json (p : Property) : Json :=
  .object [("type", .text p.typeName), ("value", .text p.value)]

/-- A fact as a JSON object. -/
def Fact.json (f : Fact) : Json :=
  .object
    [("commonKind", .text f.commonKind.name),
     ("kind", .object
       [("kind", .text f.kind),
        ("namespace", .text f.nameSpace),
        ("orderable", .bool f.orderable)]),
     ("key", .text f.key),
     ("parentKey", .text f.parentKey),
     ("olderSiblings", .list (f.olderSiblings.map .text)),
     ("properties", .object (f.properties.entries.map fun e => (e.1, e.2.json)))]

/-- The record of a fact, without the line feed after it. -/
def Fact.record (f : Fact) : String :=
  String.ofList f.json.render

/-- What was written to a stream of records. -/
structure Records where
  bytes : ByteArray := .empty
  /-- The number of records written with their line feeds. -/
  count : Nat := 0

namespace Records

/-- The text of what was written. A character that is cut off at the end shows as the replacement
character. -/
def text (r : Records) : String :=
  match (List.range 4).findSome? fun n =>
      (String.fromUTF8? (r.bytes.extract 0 (r.bytes.size - n))).map fun s => (n, s) with
  | some (0, s) => s
  | some (_, s) => s ++ "\ufffd"
  | none => ""

end Records

/-- Writes each fact as a record. With a limit, there is room for so many bytes only; a record
that does not fit is cut, and what comes after it is refused. -/
def Sink.records (limit : Option Nat := none) (message : String := "") : Sink Records where
  accept written fact :=
    let record := fact.record.toUTF8
    let line := record.push 10
    match limit.map (· - written.bytes.size) with
    | none => ({ bytes := written.bytes ++ line, count := written.count + 1 }, none)
    | some room =>
      if line.size ≤ room then
        ({ bytes := written.bytes ++ line, count := written.count + 1 }, none)
      else
        ({ written with bytes := written.bytes ++ line.extract 0 room },
         some (if room < record.size then .record message else .emit message))

end FactStream
