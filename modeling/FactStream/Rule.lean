import FactStream.View
import FactStream.Tree.Query

/-!
# Rules for nodes

A `Rule` says for nodes of some kinds what becomes of them: nothing, their children only, or a fact.
Which nodes are looked at next, and under which names properties are written, is fixed in the rule;
only the values are read off the node. The `Outcome` of a site is its rule put to use: the nodes
named by the rule are then sites strictly below it.
-/

namespace FactStream

/-! ## Rules -/

/-- Nodes to be looked at next. -/
inductive Part where
  /-- Each of them right below the current fact. -/
  | nodes (q : Query)
  /-- All of them below a container fact. It is left out if there are none, unless it is kept. -/
  | group (name : String) (q : Query) (kept : Bool)

namespace Part

/-- The first child with a label. -/
def field (label : String) : Part := .nodes (.field label)

end Part

/-- How a node becomes a fact. -/
structure Emission where
  /-- The kind of the fact, if it is not the renamed kind of the node. -/
  kind : View → Option String := fun _ => none
  /-- Properties whose names come from the source text. -/
  tokens : View → List (String × Value) := fun _ => []
  /-- Properties with fixed names. They win over `tokens`. -/
  properties : List (String × (View → Value)) := []
  /-- What is looked at next, in order. -/
  parts : List Part := []
  /-- Whether the position of the fact among its siblings means something. -/
  positional : Bool := false

/-- What becomes of a node. -/
inductive Treatment where
  /-- Neither the node nor anything below it gives a fact. -/
  | elide
  /-- The node gives no fact; the parts belong to the parent. -/
  | pass (parts : List Part)
  /-- The node gives a fact. -/
  | emit (e : Emission)

/-- The treatment of nodes of some kinds that meet a condition. -/
structure Rule where
  kinds : List String
  applies : View → Bool := fun _ => true
  treatment : Treatment

/-! ## Outcomes -/

/-- Sites to be looked at next, strictly below `s`. -/
inductive Branch (s : Site) where
  | node (d : Inner s)
  | group (name : String) (members : List (Inner s)) (kept : Bool)

/-- What becomes of the node at `s`. -/
inductive Outcome (s : Site) where
  | elided
  /-- No rule is known for the kind. -/
  | unhandled
  | passing (branches : List (Branch s))
  | fact (kind : Option String) (properties : List (String × Value)) (positional : Bool)
      (branches : List (Branch s))

/-- The sites that a part names. -/
def Part.branches (s : Site) : Part → List (Branch s)
  | .nodes q => (q.pick s).map .node
  | .group name q kept => [.group name (q.pick s) kept]

/-- A treatment put to use at a site. -/
def Treatment.outcome (source : String) (s : Site) : Treatment → Outcome s
  | .elide => .elided
  | .pass parts => .passing (parts.flatMap (Part.branches s))
  | .emit e =>
    let v := View.of source s
    .fact (e.kind v) (e.tokens v ++ e.properties.map fun p => (p.1, p.2 v)) e.positional
      (e.parts.flatMap (Part.branches s))

/-- The first of the rules that is for this node. -/
def Rule.find? (rules : List Rule) (v : View) : Option Rule :=
  rules.find? fun rule => rule.kinds.contains v.kind && rule.applies v

end FactStream
