import FactStream.Dictionary
import FactStream.Value

/-!
# Facts

A fact is one record of the stream: a node of the flattened tree with its key, the key of its
parent, the keys of its older siblings and its properties. A `Frame` keeps the children a parent
already has.
-/

namespace FactStream

/-! ## Common kinds -/

/-- The coarse classification that all languages share. -/
inductive CommonKind where
  | project | dir | file | func | call | var | arg | importDecl | block | decl | stmt | classDecl
  | unknown
  deriving DecidableEq, Repr

namespace CommonKind

/-- The name of a common kind in the stream. -/
def name : CommonKind → String
  | project => "project"
  | dir => "dir"
  | file => "file"
  | func => "func"
  | call => "call"
  | var => "var"
  | arg => "arg"
  | importDecl => "import"
  | block => "block"
  | decl => "decl"
  | stmt => "stmt"
  | classDecl => "class"
  | unknown => "unknown"

/-- The kinds of the facts that frame a project. In every language they stand for themselves. -/
def frameKinds : List (String × CommonKind) :=
  [("project", project), ("dir", dir), ("file", file)]

end CommonKind

/-! ## Spans -/

/-- A stretch of source text. Lines and columns count from zero, columns and offsets in bytes. -/
structure Span where
  startLine : Nat := 0
  startColumn : Nat := 0
  startOffset : Nat := 0
  endLine : Nat := 0
  endColumn : Nat := 0
  endOffset : Nat := 0
  deriving DecidableEq, Repr, Inhabited

/-- The stretch from the start of one span to the end of another. -/
def Span.cover (first last : Span) : Span :=
  { first with
    endLine := last.endLine
    endColumn := last.endColumn
    endOffset := last.endOffset }

/-- The properties that every fact has: its file and its span. -/
def commonProperties (naming : Naming) (filename : String) (span : Span) : Dictionary Property :=
  Dictionary.ofList
    [("filename", naming.property (.text filename)),
     ("start_line", naming.property (.ofNat span.startLine)),
     ("start_column", naming.property (.ofNat span.startColumn)),
     ("start_offset", naming.property (.ofNat span.startOffset)),
     ("end_line", naming.property (.ofNat span.endLine)),
     ("end_column", naming.property (.ofNat span.endColumn)),
     ("end_offset", naming.property (.ofNat span.endOffset))]

/-! ## Records -/

/-- One record of the stream. -/
structure Fact where
  /-- The key of the fact, unique in its run. -/
  key : String
  /-- The key of the parent, empty for the project. -/
  parentKey : String
  /-- The classification that all languages share. -/
  commonKind : CommonKind
  /-- The kind in the words of the language. -/
  kind : String
  /-- The language the kind belongs to. -/
  nameSpace : String
  /-- Whether the position among the siblings means something. -/
  orderable : Bool
  /-- The keys of the facts given earlier under the same parent, in order. -/
  olderSiblings : List String
  /-- The properties by name. -/
  properties : Dictionary Property
  deriving DecidableEq

/-- A parent key with the children it has so far. -/
structure Frame where
  key : String
  children : List String := []
  deriving DecidableEq, Repr

/-- Takes in a child. Answers the older siblings of the child, and the frame that has it. -/
def Frame.addChild (frame : Frame) (child : String) : List String × Frame :=
  (frame.children, { frame with children := frame.children ++ [child] })

end FactStream
