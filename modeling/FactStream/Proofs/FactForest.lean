import FactStream.Proofs.Cut
import FactStream.Proofs.Renaming
import FactStream.Proofs.Totals

/-!
# The facts of a tree without a walk

`WalkContext.forest` reads the facts of a node off the outcomes of the rules: a node gives one tree
of facts, or those of its branches, or none, and a group gives a container over its live members.
There are no counters, no frames and no sinks in it, and no depth. A walk without a limit numbers
this forest in document order and hands it to its sink.

Main statement: `WalkContext.walk_forest`, for any rules.
-/

namespace FactStream

namespace Forest

def concat (forests : List Forest) : Forest :=
  forests.foldr (· ++ ·) .nil

@[simp] theorem concat_nil : concat [] = .nil := rfl

@[simp] theorem concat_cons (f : Forest) (rest : List Forest) :
    concat (f :: rest) = f ++ concat rest := rfl

theorem numbers_of_all {P : Content → Prop} {f : Forest} (h : f.All P) (n : Nat) :
    f.numbers n = List.range' (n + 1) f.size := by
  induction f generalizing n with
  | nil => rfl
  | fact content below after ihb iha =>
    have hsize : below.size + 1 + after.size = below.size + after.size + 1 := by omega
    have hstart : n + (below.size + 1) + 1 = n + 1 + 1 + below.size := by omega
    rw [numbers, ihb h.2.1, iha h.2.2, size, hsize, List.range'_succ, ← List.range'_append_1,
      hstart]
  | gap after _ => exact h.elim

theorem count_of_all {P : Content → Prop} {f : Forest} (h : f.All P) : f.count = f.size := by
  rw [← f.length_numbers 0, numbers_of_all h, List.length_range']

end Forest

namespace WalkContext

/-- The forest of a branch, by the forests of the sites it leads to. A group without live members
gives none, unless it is kept. -/
def branchForest (c : WalkContext) {s : Site} (below : Inner s → Bool → Forest) :
    Branch s → Forest
  | .node d => below d false
  | .group name members kept =>
    let live := members.filter (·.head.live)
    if live.isEmpty && !kept then .nil
    else .fact (c.content name (groupSpan live) [] true) (.concat (live.map (below · true))) .nil

/-- The forest of the node at a site. -/
def forest (c : WalkContext) (s : Site) (grouped : Bool) : Forest :=
  if s.head.live then
    match c.language.outcome c.source s with
    | .elided | .unhandled => .nil
    | .passing todo => .concat (todo.map (c.branchForest fun d => c.forest d.val))
    | .fact kind properties positional todo =>
      .fact
        (c.content (kind.getD (c.language.rename s.head.kind)) s.head.span properties
          (positional || grouped))
        (.concat (todo.map (c.branchForest fun d => c.forest d.val))) .nil
  else .nil
termination_by sizeOf s.node
decreasing_by all_goals exact d.property.sizeOf_lt

theorem forest_of_fact (c : WalkContext) {s : Site} {kind : Option String}
    {given : List (String × Value)} {positional : Bool} {todo : List (Branch s)}
    (hlive : s.head.live = true)
    (ho : c.language.outcome c.source s = .fact kind given positional todo) (grouped : Bool) :
    c.forest s grouped =
      .fact (c.content (kind.getD (c.language.rename s.head.kind)) s.head.span given
          (positional || grouped))
        (.concat (todo.map (c.branchForest fun d => c.forest d.val))) .nil := by
  rw [forest, if_pos hlive, ho]

section Unlimited

variable {c : WalkContext}

mutual

/-- A walk without a limit finds the forest of its node and does not stop. -/
theorem reading_unlimited (h : c.maxDepth = none) (s : Site) (grouped : Bool) (depth : Nat) :
    (c.reading s grouped depth).stop = none ∧
      (c.reading s grouped depth).forest = c.forest s grouped := by
  unfold reading forest
  rw [h, Option.filter_none]
  dsimp only
  split
  · cases c.language.outcome c.source s with
    | elided => exact ⟨rfl, rfl⟩
    | unhandled => exact ⟨rfl, rfl⟩
    | passing todo => exact readBranches_unlimited h s todo depth
    | fact kind properties positional todo =>
      obtain ⟨hstop, hforest⟩ := readBranches_unlimited h s todo depth
      exact ⟨hstop, by simp only [Reading.under, hforest]⟩
  · exact ⟨rfl, rfl⟩
termination_by (sizeOf s.node, 2, 0)

theorem readBranches_unlimited (h : c.maxDepth = none) (s : Site) (todo : List (Branch s))
    (depth : Nat) :
    (c.readBranches s todo depth).stop = none ∧
      (c.readBranches s todo depth).forest =
        .concat (todo.map (c.branchForest fun d => c.forest d.val)) := by
  match todo with
  | [] =>
    unfold readBranches
    exact ⟨rfl, rfl⟩
  | .node d :: rest =>
    obtain ⟨hstop, hforest⟩ := reading_unlimited h d.val false (depth + 1)
    obtain ⟨hstop', hforest'⟩ := readBranches_unlimited h s rest depth
    unfold readBranches
    simp only [Reading.followedBy, hstop, hstop', hforest, hforest', List.map_cons,
      Forest.concat_cons, branchForest, and_self]
  | .group name found kept :: rest =>
    obtain ⟨hstop', hforest'⟩ := readBranches_unlimited h s rest depth
    unfold readBranches
    rw [List.map_cons, Forest.concat_cons, branchForest]
    dsimp only
    split
    · exact ⟨hstop', hforest'⟩
    · obtain ⟨hstop, hforest⟩ := readMembers_unlimited h s (found.filter (·.head.live)) depth
      simp only [Reading.followedBy, Reading.under, hstop, hstop', hforest, hforest', and_self]
termination_by (sizeOf s.node, 1, todo.length)
decreasing_by
  · exact .left _ _ d.property.sizeOf_lt
  · exact .right _ (.right _ (Nat.lt_succ_self _))
  · exact .right _ (.right _ (Nat.lt_succ_self _))
  · exact .right _ (.left _ _ Nat.zero_lt_one)

theorem readMembers_unlimited (h : c.maxDepth = none) (s : Site) (todo : List (Inner s))
    (depth : Nat) :
    (c.readMembers s todo depth).stop = none ∧
      (c.readMembers s todo depth).forest = .concat (todo.map fun d => c.forest d.val true) := by
  match todo with
  | [] =>
    unfold readMembers
    exact ⟨rfl, rfl⟩
  | d :: rest =>
    obtain ⟨hstop, hforest⟩ := reading_unlimited h d.val true (depth + 2)
    obtain ⟨hstop', hforest'⟩ := readMembers_unlimited h s rest depth
    unfold readMembers
    simp only [Reading.followedBy, hstop, hstop', hforest, hforest', List.map_cons,
      Forest.concat_cons, and_self]
termination_by (sizeOf s.node, 0, todo.length)
decreasing_by
  · exact .left _ _ d.property.sizeOf_lt
  · exact .right _ (.right _ (Nat.lt_succ_self _))

end

theorem all_forest (h : c.maxDepth = none) (s : Site) (grouped : Bool) :
    (c.forest s grouped).All fun _ => True := by
  rw [← (reading_unlimited h s grouped 0).2]
  exact all_reading c.language.kinds_true (fun _ _ _ _ _ => trivial) s grouped 0

/-- A walk without a limit hands the facts of the forest of its root to its sink, in their order and
up to the first one that the sink refuses. If it refuses none, the counter ends after the last. -/
theorem walk_deliver (h : c.maxDepth = none) {σ : Type} (out : Sink σ) (root : Node)
    (parentKey : String) (keys : KeyCounter) (start : σ) :
    let forest := c.forest { node := root } false
    let sent := out.deliver (forest.facts keys { key := parentKey }) start
    let ended := c.walk out root parentKey keys start
    ended.sink = sent.1 ∧ ended.stop = sent.2.map .refused ∧
      (sent.2 = none → ended.keys = keys.advance forest.size ∧ ended.facts = forest.count) := by
  obtain ⟨hstop, hforest⟩ := reading_unlimited h { node := root } false 0
  rw [← hforest]
  intro forest sent ended
  rcases hsent : out.deliver (forest.facts keys { key := parentKey }) start with ⟨s, _ | r⟩
  · obtain ⟨hsink, hend, hkeys, hcount, -⟩ := walk_of_deliver rfl hsent
    rw [show sent = _ from hsent]
    exact ⟨hsink, by rw [hend, hstop]; rfl, fun _ => ⟨hkeys, hcount⟩⟩
  · obtain ⟨hsink, hend⟩ := walk_of_refused rfl hsent
    rw [show sent = _ from hsent]
    exact ⟨hsink, hend, nofun⟩

end Unlimited

/-- A walk without a limit gives the facts of the forest of its root, whatever the rules are. It
comes to its end, each fact has the number after the one before it, and the counter ends with as
many keys more as there are facts. Any other sink gets the same facts in the same order, up to the
first one that it refuses. Of the properties of a fact, those that its rule gives win over the
common ones, and the later over the earlier. -/
theorem walk_forest (language : Language) (source filename : String) (root : Node)
    (parentKey : String) (keys : KeyCounter) :
    let c : WalkContext := { language, source, filename }
    let facts := (c.forest { node := root } false).facts keys { key := parentKey }
    let all := c.walk .collect root parentKey keys #[]
    (all.stop = none ∧ all.sink.toList = facts ∧ all.facts = facts.length ∧
      all.keys = keys.advance facts.length) ∧
    facts.map (·.key) = (List.range' (keys.last + 1) facts.length).map keys.key ∧
    (∀ (σ : Type) (out : Sink σ) (start : σ),
      (c.walk out root parentKey keys start).sink = (out.deliver facts start).1 ∧
        (c.walk out root parentKey keys start).stop = (out.deliver facts start).2.map .refused) ∧
    ∀ kind span given orderable name,
      (c.content kind span given orderable).properties.get? name =
        ((given.reverse.lookup name).map language.naming.property).or
          ((commonProperties language.naming filename span).get? name) := by
  intro c facts all
  have hall := all_forest (c := c) rfl { node := root } false
  have hlength : facts.length = (c.forest { node := root } false).size :=
    (Forest.length_facts _ _ _).trans (Forest.count_of_all hall)
  refine ⟨?_, ?_, fun σ out start => ?_, get?_content c⟩
  · obtain ⟨hlist, hnone⟩ := Sink.deliver_collect facts #[]
    obtain ⟨hsink, hend, hcounts⟩ :=
      walk_deliver (c := c) rfl .collect root parentKey keys #[]
    obtain ⟨hkeys, hcount⟩ := hcounts hnone
    refine ⟨?_, ?_, ?_, ?_⟩
    · rw [hend, hnone]
      rfl
    · rw [hsink, hlist, List.nil_append]
    · rw [hcount, Forest.count_of_all hall, hlength]
    · rw [hkeys, hlength]
  · rw [Forest.map_key_facts, Forest.numbers_of_all hall, hlength]
  · obtain ⟨hsink, hend, -⟩ := walk_deliver (c := c) rfl out root parentKey keys start
    exact ⟨hsink, hend⟩

end WalkContext

end FactStream
