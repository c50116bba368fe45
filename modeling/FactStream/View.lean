import FactStream.Text.Slice
import FactStream.Tree.Site

/-!
# What a rule sees of a node

A `View` shows a node with the heads of its children, and nothing below them. Rules read kinds and
properties off a view. Extra children show up only if they are tokens or carry a label.
-/

namespace FactStream

/-- What a rule sees of a node. -/
structure View where
  /-- The text of the whole file. -/
  source : String
  head : Head
  /-- The kind of the node around it. -/
  around : Option String
  /-- Whether no earlier sibling has the same label. -/
  leads : Bool
  /-- Whether the first child is a token. -/
  opensWithToken : Bool
  /-- The children that are tokens. -/
  tokens : List Head
  /-- The children with a label. -/
  labelled : List Head
  /-- The children that are not extra. -/
  solid : List Head

namespace View

/-- The view of the node at a site. -/
def of (source : String) (s : Site) : View :=
  let heads := s.node.children.map (·.head)
  { source
    head := s.head
    around := s.around
    leads := s.leads
    opensWithToken := heads.head?.any fun h => !h.named
    tokens := heads.filter fun h => !h.named
    labelled := heads.filter fun h => h.label.isSome
    solid := heads.filter fun h => !h.extra }

variable (v : View)

/-- The kind of the node. -/
def kind : String := v.head.kind

/-- The source text of a child, or of the node itself. -/
def textOf (h : Head) : String :=
  Text.slice v.source h.span.startOffset h.span.endOffset

/-- The source text of the node. -/
def text : String := v.textOf v.head

/-- Whether the node around it has the given kind. -/
def isIn (kind : String) : Bool := v.around == some kind

/-- Whether the node is the child its parent has under a label. -/
def isField (label : String) : Bool := v.leads && v.head.label == some label

/-- The first child with a label. -/
def field? (label : String) : Option Head :=
  v.labelled.find? fun h => h.label == some label

/-- The text of the first child with a label. -/
def fieldText? (label : String) : Option String := (v.field? label).map v.textOf

/-- Whether the first child with a label is there and has the given kind. -/
def fieldIs (label kind : String) : Bool := (v.field? label).any fun h => h.kind == kind

/-- Whether there is such a token among the children. -/
def containsToken (token : String) : Bool := v.tokens.any fun h => h.kind == token

/-- The text of the first token. -/
def openingToken? : Option String := v.tokens.head?.map v.textOf

/-- The named children that are not extra. -/
def named : List Head := v.solid.filter fun h => h.named

/-- The first named child of a kind. -/
def childOfKind? (kind : String) : Option Head := v.named.find? fun h => h.kind == kind

/-- Whether there is a named child of a kind. -/
def hasKind (kind : String) : Bool := v.named.any fun h => h.kind == kind

/-- The text of the `operator` child. -/
def operator? : Option String := v.fieldText? "operator"

end View

end FactStream
