import FactStream.Key
import FactStream.Language
import FactStream.Notice
import FactStream.Sink

/-!
# Walking a syntax tree

The walk goes down a tree by the rules for its nodes and hands each fact to a sink as soon as it
has a key. Facts are numbered in the order in which they are emitted. The walk stops early if the
tree nests deeper than a limit, or if the sink refuses a fact; what was emitted before stays.

A branch that names a node leads one level deeper, and a group leads its members two levels deeper,
one for the container and one for the member.
-/

namespace FactStream

/-- What a walk needs to know about the file. -/
structure WalkContext where
  language : Language
  source : String
  filename : String
  /-- The greatest depth of a node, if there is a limit. -/
  maxDepth : Option Nat := none

/-- What a walk has done so far. -/
structure WalkState (σ : Type) where
  keys : KeyCounter
  /-- The sink after the facts emitted so far. -/
  sink : σ
  /-- The number of facts of this walk. -/
  facts : Nat := 0
  /-- The kinds without a rule, with the number of nodes met. -/
  unhandled : Dictionary Nat := .empty
  notices : Array Notice := #[]

/-- Why a walk stopped before its end. -/
inductive Stop where
  /-- A node lies deeper than the limit. -/
  | tooDeep (limit : Nat)
  /-- The sink refused a fact. -/
  | refused (r : Refusal)
  deriving DecidableEq, Repr

/-- Walks change a state and may stop early. -/
abbrev WalkM (σ : Type) := EStateM Stop (WalkState σ)

namespace WalkContext

variable {σ : Type}

/-- The fact for a stretch of source text. -/
def fact (c : WalkContext) (key kind : String) (parent : Frame) (span : Span)
    (properties : List (String × Value)) (orderable : Bool) : Fact where
  key
  parentKey := parent.key
  commonKind := c.language.commonKind kind
  kind
  nameSpace := c.language.nameSpace
  orderable
  olderSiblings := parent.children
  properties := properties.foldl (fun d p => d.insert p.1 (c.language.naming.property p.2))
    (commonProperties c.language.naming c.filename span)

/-- Emits a fact under a parent. Answers its key and the parent that has it. -/
def emit (c : WalkContext) (out : Sink σ) (kind : String) (parent : Frame) (span : Span)
    (properties : List (String × Value)) (orderable : Bool) :
    WalkM σ (String × Frame) := fun state =>
  let (key, keys) := state.keys.next
  match out.accept state.sink (c.fact key kind parent span properties orderable) with
  | (sink, none) =>
    .ok (key, (parent.addChild key).2) { state with keys, sink, facts := state.facts + 1 }
  | (sink, some r) => .error (.refused r) { state with keys, sink }

/-- Counts a node without a rule. -/
def countUnhandled (kind : String) : WalkM σ Unit := fun state =>
  let count := (state.unhandled.get? kind).getD 0 + 1
  .ok () { state with unhandled := state.unhandled.insert kind count }

/-- Puts down a notice. -/
def tell (notice : Notice) : WalkM σ Unit := fun state =>
  .ok () { state with notices := state.notices.push notice }

/-- The span of a group: from its first to its last member, or that of its owner. -/
def groupSpan {s : Site} (members : List (Inner s)) : Span :=
  match members.head?, members.getLast? with
  | some first, some last => first.head.span.cover last.head.span
  | _, _ => s.head.span

mutual

/-- Walks the node at a site. Answers the parent with the facts it got. -/
def node (c : WalkContext) (out : Sink σ) (s : Site) (parent : Frame) (grouped : Bool)
    (depth : Nat) : WalkM σ Frame :=
  match c.maxDepth.filter (· < depth) with
  | some limit => throw (.tooDeep limit)
  | none =>
    if s.head.missing || s.head.extra then pure parent
    else if s.head.error then do
      tell (.errorNode c.filename s.head.span.startLine s.head.span.startColumn)
      pure parent
    else
      match c.language.outcome c.source s with
      | .elided => pure parent
      | .unhandled => do
        countUnhandled s.head.kind
        pure parent
      | .passing branches => c.branches out s branches parent depth
      | .fact kind properties positional branches => do
        let kind := kind.getD (c.language.rename s.head.kind)
        let (key, parent) ←
          c.emit out kind parent s.head.span properties (positional || grouped)
        let _ ← c.branches out s branches { key } depth
        pure parent
termination_by (sizeOf s.node, 2, 0)

/-- Walks the branches of a site one after the other. -/
def branches (c : WalkContext) (out : Sink σ) (s : Site) (todo : List (Branch s)) (parent : Frame)
    (depth : Nat) : WalkM σ Frame :=
  match todo with
  | [] => pure parent
  | .node d :: rest => do
    let parent ← c.node out d.val parent false (depth + 1)
    c.branches out s rest parent depth
  | .group name members kept :: rest => do
    let live := members.filter (·.head.live)
    if live.isEmpty && !kept then c.branches out s rest parent depth
    else
      let (key, parent) ← c.emit out name parent (groupSpan live) [] true
      let _ ← c.members out s live { key } depth
      c.branches out s rest parent depth
termination_by (sizeOf s.node, 1, todo.length)
decreasing_by
  · exact .left _ _ d.property.sizeOf_lt
  · exact .right _ (.right _ (Nat.lt_succ_self _))
  · exact .right _ (.right _ (Nat.lt_succ_self _))
  · exact .right _ (.left _ _ Nat.zero_lt_one)
  · exact .right _ (.right _ (Nat.lt_succ_self _))

/-- Walks the members of a group. -/
def members (c : WalkContext) (out : Sink σ) (s : Site) (todo : List (Inner s)) (parent : Frame)
    (depth : Nat) : WalkM σ Frame :=
  match todo with
  | [] => pure parent
  | d :: rest => do
    let parent ← c.node out d.val parent true (depth + 2)
    c.members out s rest parent depth
termination_by (sizeOf s.node, 0, todo.length)
decreasing_by
  · exact .left _ _ d.property.sizeOf_lt
  · exact .right _ (.right _ (Nat.lt_succ_self _))

end

end WalkContext

/-- The end of a walk. -/
structure WalkEnd (σ : Type) where
  /-- Why the walk stopped, if it did not come to its end. -/
  stop : Option Stop
  keys : KeyCounter
  sink : σ
  /-- The number of facts emitted. -/
  facts : Nat
  /-- The number of nodes met without a rule. -/
  unhandled : Nat
  notices : Array Notice

namespace WalkContext

/-- Walks a tree. The facts at its top are children of `parentKey`. The kinds without a rule are
told at the end, in order, also if the walk stopped. -/
def walk {σ : Type} (c : WalkContext) (out : Sink σ) (root : Node) (parentKey : String)
    (keys : KeyCounter) (sink : σ) : WalkEnd σ :=
  let (stop, state) :=
    match c.node out { node := root } { key := parentKey } false 0 { keys, sink } with
    | .ok _ state => (none, state)
    | .error stop state => (some stop, state)
  { stop
    keys := state.keys
    sink := state.sink
    facts := state.facts
    unhandled := state.unhandled.values.foldr (· + ·) 0
    notices :=
      state.notices ++ state.unhandled.entries.map fun e => Notice.noRule c.filename e.1 e.2 }

end WalkContext

end FactStream
