import FactStream.Tree.Node

/-!
# Syntax problems of a tree

A `Diagnosis` counts the error nodes and the missing nodes of a tree. Only nodes that are marked to
have an error below them are looked into.
-/

namespace FactStream

/-- The syntax problems of a tree. -/
structure Diagnosis where
  /-- The number of error nodes. -/
  errors : Nat := 0
  /-- The number of missing nodes. -/
  missing : Nat := 0
  /-- The row and the column where the first error starts. -/
  firstError : Option (Nat × Nat) := none
  deriving DecidableEq, Repr

namespace Diagnosis

/-- Whether a tree has no syntax problem. -/
def clean (d : Diagnosis) : Bool :=
  d.errors == 0 && d.missing == 0

/-- Takes in one node. -/
def note (d : Diagnosis) (head : Head) : Diagnosis :=
  if head.error then
    { d with
      errors := d.errors + 1
      firstError := d.firstError.or (some (head.span.startLine, head.span.startColumn)) }
  else if head.missing then { d with missing := d.missing + 1 }
  else d

/-- Takes in a node and, if it is marked to have errors, what is below it. -/
def visit (d : Diagnosis) : Node → Diagnosis
  | ⟨head, children⟩ => if head.hasError then visitAll (d.note head) children else d.note head
where
  /-- Takes in several nodes in order. -/
  visitAll (d : Diagnosis) : List Node → Diagnosis
    | [] => d
    | n :: rest => visitAll (d.visit n) rest

end Diagnosis

/-- The syntax problems of a tree. -/
def Node.diagnosis (root : Node) : Diagnosis :=
  if root.head.hasError then ({} : Diagnosis).visit root else {}

end FactStream
