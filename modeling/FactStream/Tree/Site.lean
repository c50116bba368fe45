import FactStream.Tree.Node

/-!
# Places in a tree

A `Site` is a node together with what its surroundings say about it: the kind of the node around
it, whether it is the first child there with its label, and its address, the child positions that
lead from the root to it. `Inner s` are the sites strictly below `s`.
-/

namespace FactStream

/-- A node in its place. -/
structure Site where
  node : Node
  /-- The kind of the node around it; the root has none. -/
  around : Option String := none
  /-- Whether no earlier sibling has the same label. -/
  leads : Bool := false
  /-- The child positions from the node up to the root. -/
  address : List Nat := []

namespace Site

/-- What the node at a site says about itself. -/
def head (s : Site) : Head := s.node.head

/-- The place of child number `i`. -/
def child (s : Site) (i : Nat) (n : Node) : Site where
  node := n
  around := s.head.kind
  leads := (s.node.children.take i).all fun older => older.head.label != n.head.label
  address := i :: s.address

/-- The children of a site in order. -/
def children (s : Site) : List Site :=
  s.node.children.zipIdx.map fun (n, i) => s.child i n

/-- Whether the node at `s` is the child its parent has under a label. -/
def isField (s : Site) (label : String) : Bool :=
  s.leads && s.head.label == some label

/-! ## Below a site -/

/-- `d.Below s` holds if `d` is a child of `s`, or a child of a site below `s`. -/
inductive Below : Site → Site → Prop where
  | child {d s : Site} : d ∈ s.children → Below d s
  | step {e d s : Site} : e ∈ d.children → Below d s → Below e s

theorem Below.trans {e d s : Site} (h : Below e d) (h' : Below d s) : Below e s := by
  induction h with
  | child hm => exact .step hm h'
  | step hm _ ih => exact .step hm (ih h')

theorem node_mem_of_mem_children {d s : Site} (h : d ∈ s.children) : d.node ∈ s.node.children := by
  obtain ⟨⟨n, i⟩, hn, rfl⟩ := List.mem_map.1 h
  exact (List.mem_zipIdx hn).2.2 ▸ List.getElem_mem _

theorem sizeOf_node_lt {d s : Site} (h : d ∈ s.children) : sizeOf d.node < sizeOf s.node := by
  have hm := List.sizeOf_lt_of_mem (node_mem_of_mem_children h)
  cases hs : s.node with
  | mk head children => simp_all; omega

/-- Below a site the nodes get smaller. -/
theorem Below.sizeOf_lt {d s : Site} (h : Below d s) : sizeOf d.node < sizeOf s.node := by
  induction h with
  | child hm => exact sizeOf_node_lt hm
  | step hm _ ih => exact Nat.lt_trans (sizeOf_node_lt hm) ih

end Site

/-- A site strictly below `s`. -/
def Inner (s : Site) : Type := { d : Site // d.Below s }

namespace Inner

variable {s : Site}

/-- What the node says about itself. -/
def head (d : Inner s) : Head := d.val.head

/-- A site below a site below `s`. -/
def lift (d : Inner s) (e : Inner d.val) : Inner s := ⟨e.val, e.property.trans d.property⟩

end Inner

/-- The children of a site, as sites below it. -/
def Site.inner (s : Site) : List (Inner s) :=
  s.children.attach.map fun d => ⟨d.val, .child d.property⟩

end FactStream
