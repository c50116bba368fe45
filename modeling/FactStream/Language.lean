import FactStream.Rule

/-!
# Languages

A `Language` bundles what differs between source languages: the names it goes by, the file
extensions, the rules for its nodes, the names of the kinds and the spelling of types.
-/

namespace FactStream

/-- The table of the common kinds of a language. -/
structure KindTable where
  entries : List (String × CommonKind)
  /-- All kinds that start with this word count as the word itself. -/
  collapse : Option String := none

/-- The common kind of a kind; it is unknown if the table does not have it. -/
def KindTable.lookup (table : KindTable) (kind : String) : CommonKind :=
  let kind := match table.collapse with
    | some word => if word.toList.isPrefixOf kind.toList then word else kind
    | none => kind
  ((CommonKind.frameKinds ++ table.entries).lookup kind).getD .unknown

/-- A source language. -/
structure Language where
  /-- The short name, which is written into every fact. -/
  nameSpace : String
  /-- The name for people. -/
  title : String
  /-- Other names the language goes by. -/
  aliases : List String
  /-- The file extensions of the language. -/
  extensions : List String
  /-- The rules for its nodes, the first that applies counts. -/
  rules : List Rule
  /-- The treatment of nodes without a rule, if they have one. -/
  otherwise : Option Treatment
  /-- The kind of a fact for the kind of a node. -/
  rename : String → String
  /-- The common kinds. -/
  commonKinds : KindTable
  /-- The spelling of types and numbers. -/
  naming : Naming

namespace Language

/-- What becomes of the node at a site. -/
def outcome (language : Language) (source : String) (s : Site) : Outcome s :=
  match Rule.find? language.rules (.of source s) with
  | some rule => rule.treatment.outcome source s
  | none =>
    match language.otherwise with
    | some treatment => treatment.outcome source s
    | none => .unhandled

/-- The common kind of a kind of fact. -/
def commonKind (language : Language) (kind : String) : CommonKind :=
  language.commonKinds.lookup kind

end Language

end FactStream
