import FactStream.Tree.Site

/-!
# Queries for inner nodes

A `Query` names nodes below a node: the child under a label, the named children, those of some
kinds, children of children. The answer to a query is a list of sites strictly below the one asked.
-/

namespace FactStream

/-- A condition on a node that a query may ask for. -/
inductive Test where
  /-- The kind is one of these. -/
  | kindIn (kinds : List String)
  /-- The node carries the label. -/
  | labelled (label : String)
  /-- The node is the child its parent has under the label. -/
  | isField (label : String)
  | not (t : Test)
  | and (t u : Test)

/-- Whether a site meets a condition. -/
def Test.holds : Test → Site → Bool
  | kindIn kinds, s => kinds.contains s.head.kind
  | labelled label, s => s.head.label == some label
  | isField label, s => s.isField label
  | not t, s => !t.holds s
  | and t u, s => t.holds s && u.holds s

/-- A way to name nodes below a node. -/
inductive Query where
  /-- The first child with the label. -/
  | field (label : String)
  /-- The named children that are not extra. -/
  | named
  /-- Those of `q` that meet a condition. -/
  | filter (t : Test) (q : Query)
  /-- The first of `q`. -/
  | first (q : Query)
  /-- For each of `q`, what `r` names below it. -/
  | within (q r : Query)
  /-- Those of `q`, or those of `r` if there are none. -/
  | orElse (q r : Query)
  /-- Those of `q`, each node of the given kinds replaced by its named children. -/
  | unwrap (kinds : List String) (q : Query)
  /-- Those of `q`, each node of the given kind replaced by its first named child, if it has one. -/
  | strip (kind : String) (q : Query)

namespace Query

/-- The named children of some kinds. -/
def ofKind (kinds : List String) : Query := filter (.kindIn kinds) named

/-- The named children of other kinds. -/
def notOfKind (kinds : List String) : Query := filter (.not (.kindIn kinds)) named

/-- The first named child of a kind. -/
def childOfKind (kind : String) : Query := first (ofKind [kind])

/-- The named children with a label. -/
def fields (label : String) : Query := filter (.labelled label) named

/-- The named children of the child with a label. -/
def inField (label : String) : Query := within (field label) named

/-- The named children that are not extra. -/
def namedInner (s : Site) : List (Inner s) :=
  s.inner.filter fun d => d.head.named && !d.head.extra

/-- The sites below `s` that a query names, in order. -/
def pick : Query → (s : Site) → List (Inner s)
  | field label, s => (s.inner.find? fun d => d.head.label == some label).toList
  | named, s => namedInner s
  | filter t q, s => (q.pick s).filter fun d => t.holds d.val
  | first q, s => (q.pick s).take 1
  | within q r, s => (q.pick s).flatMap fun d => (r.pick d.val).map d.lift
  | orElse q r, s => if (q.pick s).isEmpty then r.pick s else q.pick s
  | unwrap kinds q, s => (q.pick s).flatMap fun d =>
      if kinds.contains d.head.kind then (namedInner d.val).map d.lift else [d]
  | strip kind q, s => (q.pick s).map fun d =>
      if d.head.kind == kind then
        match namedInner d.val with
        | [] => d
        | e :: _ => d.lift e
      else d

end Query

end FactStream
