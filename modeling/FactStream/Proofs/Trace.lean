import FactStream.Proofs.Picking
import FactStream.Proofs.Reach
import FactStream.Proofs.Stream

/-!
# What happens during a walk

The traced walk (`WalkContext.tracedWalk`) is the walk with a log beside its sink. It puts down each
site that it comes to, with the one whose rule named it, and each fact that the sink takes in, with
the site it stands for. Without the log it is the walk itself (`WalkContext.forget_tracedWalk`), and
the facts in the log are those that the walk emits (`WalkContext.facts_tracedWalk`).

`WalkContext.events` reads off the tree what there is to happen. A walk that comes to its end has
just this in its log, and one that stops early a first part of it (`WalkContext.log_tracedWalk`).
-/

namespace FactStream

/-! ## Events -/

/-- Something that happens during a walk. -/
inductive Event (α : Type) where
  /-- The walk comes to a site. The rule for the node at another site named it, unless the walk
  starts there. -/
  | visit (namer : Option Site) (site : Site)
  /-- A fact is emitted. It stands for the node at a site, unless it is a container. -/
  | fact (origin : Option Site) (value : α)

namespace Event

variable {α β : Type}

def map (f : α → β) : Event α → Event β
  | visit namer site => visit namer site
  | fact origin value => fact origin (f value)

def site? : Event α → Option Site
  | visit _ site => some site
  | fact .. => none

def origin? : Event α → Option Site
  | visit .. => none
  | fact origin _ => origin

def value? : Event α → Option α
  | visit .. => none
  | fact _ value => some value

@[simp] theorem site?_map (f : α → β) (e : Event α) : (e.map f).site? = e.site? := by
  cases e <;> rfl

@[simp] theorem origin?_map (f : α → β) (e : Event α) : (e.map f).origin? = e.origin? := by
  cases e <;> rfl

theorem eq_visit_of_map {f : α → β} {e : Event α} {namer : Option Site} {site : Site}
    (h : e.map f = visit namer site) : e = visit namer site := by
  cases e with
  | visit namer' site' =>
    obtain ⟨rfl, rfl⟩ := Event.visit.inj h
    rfl
  | fact origin value => simp [map] at h

end Event

/-- A log beside the state of a sink. -/
abbrev Traced (σ : Type) := σ × List (Event Fact)

/-- The sink that also puts down the facts it takes in, all with the same origin. -/
def Sink.traced {σ : Type} (out : Sink σ) (origin : Option Site) : Sink (Traced σ) where
  accept s f :=
    match out.accept s.1 f with
    | (next, none) => ((next, s.2 ++ [.fact origin f]), none)
    | (next, some r) => ((next, s.2), some r)

/-! ## The traced walk -/

namespace WalkContext

variable {σ : Type}

/-- Puts down that the walk comes to a site. -/
def note (namer : Option Site) (s : Site) : WalkM (Traced σ) Unit := fun state =>
  .ok () { state with sink := (state.sink.1, state.sink.2 ++ [.visit namer s]) }

mutual

/-- Walks the node at a site and keeps a log. -/
def tracedNode (c : WalkContext) (out : Sink σ) (namer : Option Site) (s : Site) (parent : Frame)
    (grouped : Bool) (depth : Nat) : WalkM (Traced σ) Frame := do
  note namer s
  match c.maxDepth.filter (· < depth) with
  | some limit => throw (.tooDeep limit)
  | none =>
    if s.head.missing || s.head.extra then pure parent
    else if s.head.error then do
      tell (.errorNode c.filename s.head.span.startLine s.head.span.startColumn)
      pure parent
    else
      match c.language.outcome c.source s with
      | .elided => pure parent
      | .unhandled => do
        countUnhandled s.head.kind
        pure parent
      | .passing branches => c.tracedBranches out s branches parent depth
      | .fact kind properties positional branches => do
        let kind := kind.getD (c.language.rename s.head.kind)
        let (key, parent) ←
          c.emit (out.traced (some s)) kind parent s.head.span properties (positional || grouped)
        let _ ← c.tracedBranches out s branches { key } depth
        pure parent
termination_by (sizeOf s.node, 2, 0)

def tracedBranches (c : WalkContext) (out : Sink σ) (s : Site) (todo : List (Branch s))
    (parent : Frame) (depth : Nat) : WalkM (Traced σ) Frame :=
  match todo with
  | [] => pure parent
  | .node d :: rest => do
    let parent ← c.tracedNode out (some s) d.val parent false (depth + 1)
    c.tracedBranches out s rest parent depth
  | .group name members kept :: rest => do
    let live := members.filter (·.head.live)
    if live.isEmpty && !kept then c.tracedBranches out s rest parent depth
    else
      let (key, parent) ← c.emit (out.traced none) name parent (groupSpan live) [] true
      let _ ← c.tracedMembers out s live { key } depth
      c.tracedBranches out s rest parent depth
termination_by (sizeOf s.node, 1, todo.length)
decreasing_by
  · exact .left _ _ d.property.sizeOf_lt
  · exact .right _ (.right _ (Nat.lt_succ_self _))
  · exact .right _ (.right _ (Nat.lt_succ_self _))
  · exact .right _ (.left _ _ Nat.zero_lt_one)
  · exact .right _ (.right _ (Nat.lt_succ_self _))

def tracedMembers (c : WalkContext) (out : Sink σ) (s : Site) (todo : List (Inner s))
    (parent : Frame) (depth : Nat) : WalkM (Traced σ) Frame :=
  match todo with
  | [] => pure parent
  | d :: rest => do
    let parent ← c.tracedNode out (some s) d.val parent true (depth + 2)
    c.tracedMembers out s rest parent depth
termination_by (sizeOf s.node, 0, todo.length)
decreasing_by
  · exact .left _ _ d.property.sizeOf_lt
  · exact .right _ (.right _ (Nat.lt_succ_self _))

end

/-! ## What there is to happen -/

/-- What happens along a branch, by what happens at the sites it leads to. -/
def branchEvents (c : WalkContext) {s : Site} (below : Inner s → Bool → List (Event Content)) :
    Branch s → List (Event Content)
  | .node d => below d false
  | .group name members kept =>
    let live := members.filter (·.head.live)
    if live.isEmpty && !kept then []
    else .fact none (c.content name (groupSpan live) [] true) :: live.flatMap (below · true)

/-- The branches along which a walk goes on from a site. -/
def onward (c : WalkContext) (s : Site) : List (Branch s) :=
  if s.head.live then (c.language.outcome c.source s).branches else []

/-- The content of the fact that the node at a site gives, if it gives one. -/
def own? (c : WalkContext) (s : Site) (grouped : Bool) : Option Content :=
  if s.head.live then
    match c.language.outcome c.source s with
    | .fact kind properties positional _ =>
      some (c.content (kind.getD (c.language.rename s.head.kind)) s.head.span properties
        (positional || grouped))
    | _ => none
  else none

/-- What happens from a site on, if nothing ends the walk early. -/
def events (c : WalkContext) (namer : Option Site) (s : Site) (grouped : Bool) :
    List (Event Content) :=
  .visit namer s :: ((c.own? s grouped).toList.map (.fact (some s)) ++
    (c.onward s).flatMap (c.branchEvents fun d grouped => c.events (some s) d.val grouped))
termination_by sizeOf s.node
decreasing_by exact d.property.sizeOf_lt

end WalkContext

/-! ## Rules for traced computations -/

section Rules

variable {σ τ α β : Type}

def WalkState.mapSink (π : σ → τ) (st : WalkState σ) : WalkState τ where
  keys := st.keys
  sink := π st.sink
  facts := st.facts
  unhandled := st.unhandled
  notices := st.notices

def mapResult (π : σ → τ) :
    EStateM.Result Stop (WalkState σ) α → EStateM.Result Stop (WalkState τ) α
  | .ok a st => .ok a (st.mapSink π)
  | .error e st => .error e (st.mapSink π)

/-- Seen through `π`, the traced sink does what another sink does, whatever the origin of a fact,
and where a walk goes makes no difference. -/
structure Forgets (out : Sink σ) (π : Traced σ → τ) (sink : Sink τ) : Prop where
  visit : ∀ s log namer d, π (s, log ++ [.visit namer d]) = π (s, log)
  accept : ∀ origin s f, sink.accept (π s) f =
    (π ((out.traced origin).accept s f).1, ((out.traced origin).accept s f).2)

/-- `traced` does the same as `plain`, for any sink that forgets the log, and in the meantime
`events` happen. If it stops early, only the first of them do. -/
structure Traces (out : Sink σ) (traced : WalkM (Traced σ) α)
    (plain : (τ : Type) → Sink τ → WalkM τ α) (events : List (Event Content)) : Prop where
  forget : ∀ (τ : Type) (π : Traced σ → τ) (sink : Sink τ), Forgets out π sink →
    ∀ st, plain τ sink (st.mapSink π) = mapResult π (traced st)
  log : ∀ st, ∃ happened : List (Event Fact),
    (Outlet.stateOf (traced st)).sink.2 = st.sink.2 ++ happened ∧
      happened.map (.map Fact.content) <+: events ∧
      ∀ a st', traced st = .ok a st' → happened.map (.map Fact.content) = events

variable {out : Sink σ}

theorem traces_silent (m : (τ : Type) → WalkM τ α)
    (hmap : ∀ (τ : Type) (π : Traced σ → τ) st, m τ (st.mapSink π) = mapResult π (m _ st))
    (hsink : ∀ st, (Outlet.stateOf (m (Traced σ) st)).sink = st.sink) :
    Traces out (m (Traced σ)) (fun τ _ => m τ) [] := by
  refine ⟨fun τ π _ _ => hmap τ π, fun st => ⟨[], ?_, List.nil_prefix, fun _ _ _ => rfl⟩⟩
  rw [hsink, List.append_nil]

theorem traces_pure (a : α) : Traces out (pure a) (fun _ _ => pure a) [] :=
  traces_silent (fun _ => pure a) (fun _ _ _ => rfl) fun _ => rfl

theorem traces_throw (stop : Stop) (events : List (Event Content)) :
    Traces out (throw stop : WalkM (Traced σ) α) (fun _ _ => throw stop) events :=
  ⟨fun _ _ _ _ _ => rfl, fun _ => ⟨[], (List.append_nil _).symm, List.nil_prefix, nofun⟩⟩

theorem traces_tell (notice : Notice) :
    Traces out (WalkContext.tell notice) (fun _ _ => WalkContext.tell notice) [] :=
  traces_silent (fun _ => WalkContext.tell notice) (fun _ _ _ => rfl) fun _ => rfl

theorem traces_countUnhandled (kind : String) :
    Traces out (WalkContext.countUnhandled kind) (fun _ _ => WalkContext.countUnhandled kind) [] :=
  traces_silent (fun _ => WalkContext.countUnhandled kind) (fun _ _ _ => rfl) fun _ => rfl

theorem Traces.bind {traced : WalkM (Traced σ) α} {plain : (τ : Type) → Sink τ → WalkM τ α}
    {events events' : List (Event Content)} {next : α → WalkM (Traced σ) β}
    {plainNext : (τ : Type) → Sink τ → α → WalkM τ β} (h : Traces out traced plain events)
    (h' : ∀ a, Traces out (next a) (fun τ sink => plainNext τ sink a) events') :
    Traces out (traced >>= next) (fun τ sink => plain τ sink >>= plainNext τ sink)
      (events ++ events') := by
  constructor
  · intro τ π sink hπ st
    show EStateM.bind _ _ _ = mapResult π (EStateM.bind _ _ _)
    rw [EStateM.bind, EStateM.bind, h.forget τ π sink hπ st]
    cases traced st with
    | ok a st₁ => exact (h' a).forget τ π sink hπ st₁
    | error stop st₁ => rfl
  · intro st
    obtain ⟨happened, hlog, hpre, hok⟩ := h.log st
    show ∃ happened', (Outlet.stateOf (EStateM.bind traced next st)).sink.2 = _ ∧ _ ∧
      ∀ b st₂, EStateM.bind traced next st = _ → _
    cases hr : traced st with
    | error stop st₁ =>
      simp only [EStateM.bind, hr]
      rw [hr] at hlog
      exact ⟨happened, hlog, hpre.trans (List.prefix_append _ _), nofun⟩
    | ok a st₁ =>
      simp only [EStateM.bind, hr]
      rw [hr] at hlog
      replace hok := hok a st₁ hr
      obtain ⟨happened', hlog', hpre', hok'⟩ := (h' a).log st₁
      refine ⟨happened ++ happened', ?_, ?_, fun b st₂ hr' => ?_⟩
      · rw [hlog', show st₁.sink.2 = _ from hlog, List.append_assoc]
      · rw [List.map_append, hok]
        exact (List.prefix_append_right_inj _).2 hpre'
      · rw [List.map_append, hok, hok' b st₂ hr']

theorem traces_emit (c : WalkContext) (origin : Option Site) (kind : String) (parent : Frame)
    (span : Span) (given : List (String × Value)) (orderable : Bool) :
    Traces out (c.emit (out.traced origin) kind parent span given orderable)
      (fun _ sink => c.emit sink kind parent span given orderable)
      [.fact origin (c.content kind span given orderable)] := by
  constructor
  · intro τ π sink hπ st
    simp only [WalkContext.emit, KeyCounter.next_eq, WalkState.mapSink, hπ.accept origin]
    rcases (out.traced origin).accept st.sink _ with ⟨s, _ | r⟩
    · rfl
    · rfl
  · intro st
    simp only [WalkContext.emit, KeyCounter.next_eq, Sink.traced]
    rcases out.accept st.sink.1 _ with ⟨s, _ | r⟩
    · exact ⟨_, rfl, List.prefix_rfl, fun _ _ _ => rfl⟩
    · exact ⟨[], (List.append_nil _).symm, List.nil_prefix, nofun⟩

theorem Traces.noted {traced : WalkM (Traced σ) α} {plain : (τ : Type) → Sink τ → WalkM τ α}
    {events : List (Event Content)} (h : Traces out traced plain events) (namer : Option Site)
    (s : Site) :
    Traces out (do WalkContext.note namer s; traced) plain (.visit namer s :: events) := by
  constructor
  · intro τ π sink hπ st
    have hst : st.mapSink π =
        { st with sink := (st.sink.1, st.sink.2 ++ [.visit namer s]) : WalkState _ }.mapSink π := by
      simp only [WalkState.mapSink, hπ.visit]
    rw [hst]
    exact h.forget τ π sink hπ _
  · intro st
    obtain ⟨happened, hlog, hpre, hok⟩ :=
      h.log { st with sink := (st.sink.1, st.sink.2 ++ [.visit namer s]) }
    refine ⟨.visit namer s :: happened, ?_, List.cons_prefix_cons.2 ⟨rfl, hpre⟩, fun a st' hr => ?_⟩
    · exact hlog.trans (List.append_assoc ..)
    · exact congrArg (.visit namer s :: ·) (hok a st' hr)

end Rules

/-! ## Walks -/

namespace WalkContext

variable {σ τ : Type}

mutual

/-- The traced walk is the walk with a log of what happens. -/
theorem tracedNode_traces (c : WalkContext) (out : Sink σ) (namer : Option Site) (s : Site)
    (parent : Frame) (grouped : Bool) (depth : Nat) :
    Traces out (c.tracedNode out namer s parent grouped depth)
      (fun _ sink => c.node sink s parent grouped depth) (c.events namer s grouped) := by
  unfold tracedNode node events own? onward
  refine Traces.noted ?_ namer s
  cases c.maxDepth.filter (· < depth) with
  | some limit => exact traces_throw _ _
  | none =>
    dsimp only
    cases hmissing : s.head.missing || s.head.extra with
    | true =>
      have hlive : s.head.live = false := by
        rcases Bool.or_eq_true_iff.1 hmissing with h | h <;> simp [Head.live, h]
      simp only [hlive, if_true, Bool.false_eq_true, if_false]
      exact traces_pure parent
    | false =>
      cases herror : s.head.error with
      | true =>
        have hlive : s.head.live = false := by simp_all [Head.live]
        simp only [hlive, if_true, Bool.false_eq_true, if_false]
        exact (traces_tell _).bind fun _ => traces_pure parent
      | false =>
        have hlive : s.head.live = true := by simp_all [Head.live]
        simp only [hlive, if_true, Bool.false_eq_true, if_false]
        cases c.language.outcome c.source s with
        | elided => exact traces_pure parent
        | unhandled => exact (traces_countUnhandled _).bind fun _ => traces_pure parent
        | passing todo => exact tracedBranches_traces c out s todo parent depth
        | fact kind given positional todo =>
          refine (traces_emit c (some s) _ parent s.head.span given (positional || grouped)).bind
            fun p => ?_
          have h := (tracedBranches_traces c out s todo { key := p.1 } depth).bind
            fun _ => traces_pure p.2
          rwa [List.append_nil] at h
termination_by (sizeOf s.node, 2, 0)

theorem tracedBranches_traces (c : WalkContext) (out : Sink σ) (s : Site) (todo : List (Branch s))
    (parent : Frame) (depth : Nat) :
    Traces out (c.tracedBranches out s todo parent depth)
      (fun _ sink => c.branches sink s todo parent depth)
      (todo.flatMap (c.branchEvents fun d grouped => c.events (some s) d.val grouped)) := by
  match todo with
  | [] =>
    unfold tracedBranches branches
    exact traces_pure parent
  | .node d :: rest =>
    unfold tracedBranches branches
    exact (tracedNode_traces c out (some s) d.val parent false (depth + 1)).bind
      fun parent => tracedBranches_traces c out s rest parent depth
  | .group name found kept :: rest =>
    unfold tracedBranches branches
    rw [List.flatMap_cons, branchEvents]
    dsimp only
    split
    · exact tracedBranches_traces c out s rest parent depth
    · rw [List.cons_append]
      exact (traces_emit c none name parent _ [] true).bind fun p =>
        (tracedMembers_traces c out s (found.filter (·.head.live)) { key := p.1 } depth).bind
          fun _ => tracedBranches_traces c out s rest p.2 depth
termination_by (sizeOf s.node, 1, todo.length)
decreasing_by
  · exact .left _ _ d.property.sizeOf_lt
  · exact .right _ (.right _ (Nat.lt_succ_self _))
  · exact .right _ (.left _ _ Nat.zero_lt_one)
  · exact .right _ (.right _ (Nat.lt_succ_self _))
  · exact .right _ (.right _ (Nat.lt_succ_self _))

theorem tracedMembers_traces (c : WalkContext) (out : Sink σ) (s : Site) (todo : List (Inner s))
    (parent : Frame) (depth : Nat) :
    Traces out (c.tracedMembers out s todo parent depth)
      (fun _ sink => c.members sink s todo parent depth)
      (todo.flatMap fun d => c.events (some s) d.val true) := by
  match todo with
  | [] =>
    unfold tracedMembers members
    exact traces_pure parent
  | d :: rest =>
    unfold tracedMembers members
    exact (tracedNode_traces c out (some s) d.val parent true (depth + 2)).bind
      fun parent => tracedMembers_traces c out s rest parent depth
termination_by (sizeOf s.node, 0, todo.length)
decreasing_by
  · exact .left _ _ d.property.sizeOf_lt
  · exact .right _ (.right _ (Nat.lt_succ_self _))

end

/-- Walks a tree and keeps a log. -/
def tracedWalk (c : WalkContext) (out : Sink σ) (root : Node) (parentKey : String)
    (keys : KeyCounter) (start : σ) : WalkEnd (Traced σ) :=
  let (stop, state) :=
    match c.tracedNode out none { node := root } { key := parentKey } false 0
      { keys, sink := (start, []) } with
    | .ok _ state => (none, state)
    | .error stop state => (some stop, state)
  { stop
    keys := state.keys
    sink := state.sink
    facts := state.facts
    unhandled := state.unhandled.values.foldr (· + ·) 0
    notices :=
      state.notices ++ state.unhandled.entries.map fun e => Notice.noRule c.filename e.1 e.2 }

end WalkContext

def WalkEnd.mapSink {σ τ : Type} (π : σ → τ) (ended : WalkEnd σ) : WalkEnd τ where
  stop := ended.stop
  keys := ended.keys
  sink := π ended.sink
  facts := ended.facts
  unhandled := ended.unhandled
  notices := ended.notices

namespace WalkContext

variable {σ τ : Type} (c : WalkContext) (out : Sink σ) (root : Node) (parentKey : String)
  (keys : KeyCounter) (start : σ)

theorem mapSink_tracedWalk {π : Traced σ → τ} {sink : Sink τ} (hπ : Forgets out π sink) :
    (c.tracedWalk out root parentKey keys start).mapSink π =
      c.walk sink root parentKey keys (π (start, [])) := by
  have h := (c.tracedNode_traces out none { node := root } { key := parentKey } false 0).forget
    τ π sink hπ { keys, sink := (start, []) }
  have hst : ({ keys, sink := (start, []) } : WalkState (Traced σ)).mapSink π =
      { keys, sink := π (start, []) } := rfl
  rw [hst] at h
  rw [walk, h, tracedWalk]
  cases c.tracedNode out none { node := root } { key := parentKey } false 0
      { keys, sink := (start, []) } with
  | ok frame st => rfl
  | error stop st => rfl

/-- Without its log, the traced walk is the walk. -/
theorem forget_tracedWalk :
    (c.tracedWalk out root parentKey keys start).mapSink (·.1) =
      c.walk out root parentKey keys start := by
  refine c.mapSink_tracedWalk out root parentKey keys start ⟨fun _ _ _ _ => rfl, ?_⟩
  intro origin s f
  simp only [Sink.traced]
  rcases out.accept s.1 f with ⟨next, _ | r⟩
  · rfl
  · rfl

theorem forgets_logged {σ : Type} (out : Sink σ) :
    Forgets out (fun s => (s.1, s.2.filterMap Event.value?)) out.logged := by
  refine ⟨fun s log namer d => ?_, fun origin s f => ?_⟩
  · simp [Event.value?]
  · simp only [Sink.traced, Sink.logged]
    rcases out.accept s.1 f with ⟨next, _ | r⟩
    · simp [Event.value?]
    · rfl

theorem facts_tracedWalk :
    (c.tracedWalk out root parentKey keys start).sink.2.filterMap Event.value? =
      c.emitted out root parentKey keys start := by
  rw [emitted, ← show _ = c.walk out.logged root parentKey keys (start, []) from
    c.mapSink_tracedWalk out root parentKey keys start (forgets_logged out)]
  rfl

/-- What is in the log has happened in this order, and is all if the walk came to its end. -/
theorem log_tracedWalk :
    let ended := c.tracedWalk out root parentKey keys start
    ended.sink.2.map (.map Fact.content) <+: c.events none { node := root } false ∧
      (ended.stop = none →
        ended.sink.2.map (.map Fact.content) = c.events none { node := root } false) := by
  obtain ⟨happened, hlog, hpre, hok⟩ :=
    (c.tracedNode_traces out none { node := root } { key := parentKey } false 0).log
      { keys, sink := (start, []) }
  intro ended
  have hsink : ended.sink = (Outlet.stateOf (c.tracedNode out none { node := root }
      { key := parentKey } false 0 { keys, sink := (start, []) })).sink ∧
      (ended.stop = none → ∃ frame st, c.tracedNode out none { node := root }
        { key := parentKey } false 0 { keys, sink := (start, []) } = .ok frame st) := by
    simp only [ended, tracedWalk]
    cases c.tracedNode out none { node := root } { key := parentKey } false 0
      { keys, sink := (start, []) } with
    | ok frame st => exact ⟨rfl, fun _ => ⟨frame, st, rfl⟩⟩
    | error stop st => exact ⟨rfl, nofun⟩
  rw [hsink.1, hlog]
  refine ⟨hpre, fun hstop => ?_⟩
  obtain ⟨frame, st, hr⟩ := hsink.2 hstop
  exact hok frame st hr

end WalkContext

end FactStream
