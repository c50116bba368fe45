import FactStream.Fact

/-!
# Syntax trees

A node of a parsed source text has a `Head`, which is what it says about itself, and its children
in order. A tree can be given as the rows of its nodes in document order.
-/

namespace FactStream

/-- What a node says about itself. -/
structure Head where
  /-- The kind of the node; for a token, the token itself. -/
  kind : String
  /-- Whether the node is more than a token. -/
  named : Bool := true
  /-- Whether the node may stand anywhere, such as a comment. -/
  extra : Bool := false
  /-- Whether the parser put the node in for a token that is not there. -/
  missing : Bool := false
  /-- Whether the node holds source text that the parser could not make out. -/
  error : Bool := false
  /-- Whether the node or one below it is missing or an error. -/
  hasError : Bool := false
  /-- The source text the node stands for. -/
  span : Span := {}
  /-- The label the node has in its parent. -/
  label : Option String := none
  deriving DecidableEq, Repr, Inhabited

/-- A node may give facts: it is neither missing nor extra nor an error. -/
def Head.live (head : Head) : Bool :=
  !head.missing && !head.extra && !head.error

/-- A syntax tree. -/
structure Node where
  head : Head
  children : List Node

namespace Node

instance : Inhabited Node := ⟨⟨default, []⟩⟩

/-- The nodes of a tree in document order, a node before its children. -/
def preorder : Node → List Node
  | ⟨head, children⟩ => ⟨head, children⟩ :: all children
where
  /-- The nodes of several trees, one tree after the other. -/
  all : List Node → List Node
    | [] => []
    | n :: rest => n.preorder ++ all rest

/-- One node of a flattened tree: its head and the number of its children. -/
structure Row where
  head : Head
  childCount : Nat

/-- Puts a row before trees that follow it in document order: the first of them are its children. -/
def Row.graft (row : Row) (following : List Node) : List Node :=
  ⟨row.head, following.take row.childCount⟩ :: following.drop row.childCount

/-- The tree whose nodes are the given rows, in document order. -/
def ofRows? (rows : List Row) : Option Node :=
  match rows.foldr Row.graft [] with
  | [root] => some root
  | _ => none

end Node

end FactStream
