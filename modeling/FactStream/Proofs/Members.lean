import FactStream.Proofs.Nesting
import FactStream.Proofs.Visits

/-!
# The members of a container

A group gives a container fact, and its members stand below that fact. A member that gives a fact of
its own is told that it is in a group, so its fact is orderable. A member that only hands its
children on (`WalkContext.HandsOn`) does not tell them, and their facts need not be.

The walk puts a container down right before it goes into the members of its group, so the log of a
traced walk shows which group a container is for (`WalkContext.GroupOf`).

Main statement: `WalkContext.member_orderable`. The exception does come up, as
`WalkContext.member_not_orderable` shows.
-/

namespace FactStream

/-! ## Events that a computation puts down -/

section Rules

open Outlet

variable {σ α β : Type}

/-- The value of a computation that came to its end. -/
def valueOf? : EStateM.Result Stop (WalkState (Traced σ)) α → Option α
  | .ok a _ => some a
  | .error _ _ => none

/-- From every state, `m` puts down events that satisfy `Q`, together with its value if it has
one. -/
def PutsDown (m : WalkM (Traced σ) α) (Q : Option α → List (Event Fact) → Prop) : Prop :=
  ∀ st, ∃ events, (stateOf (m st)).sink.2 = st.sink.2 ++ events ∧ Q (valueOf? (m st)) events

variable {m : WalkM (Traced σ) α} {k : α → WalkM (Traced σ) β}
  {Q Q' : Option α → List (Event Fact) → Prop} {R : Option β → List (Event Fact) → Prop}

theorem PutsDown.mono (h : PutsDown m Q) (hQ : ∀ a events, Q a events → Q' a events) :
    PutsDown m Q' := by
  intro st
  obtain ⟨events, hlog, hevents⟩ := h st
  exact ⟨events, hlog, hQ _ _ hevents⟩

theorem putsDown_pure {a : α} (h : Q (some a) []) : PutsDown (σ := σ) (pure a) Q :=
  fun st => ⟨[], (List.append_nil st.sink.2).symm, h⟩

theorem putsDown_throw {stop : Stop} (h : Q none []) : PutsDown (σ := σ) (throw stop) Q :=
  fun st => ⟨[], (List.append_nil st.sink.2).symm, h⟩

theorem PutsDown.bind (h : PutsDown m Q)
    (hk : ∀ a events, Q (some a) events →
      PutsDown (k a) fun b more => R b (events ++ more))
    (hstop : ∀ events, Q none events → R none events) : PutsDown (m >>= k) R := by
  intro st
  obtain ⟨events, hlog, hevents⟩ := h st
  show ∃ events, (stateOf (EStateM.bind m k st)).sink.2 = _ ∧
    R (valueOf? (EStateM.bind m k st)) events
  rw [EStateM.bind]
  cases hr : m st with
  | ok a st₁ =>
    rw [hr] at hlog hevents
    obtain ⟨more, hlog', hmore⟩ := hk a events hevents st₁
    refine ⟨events ++ more, ?_, hmore⟩
    rw [hlog', show st₁.sink.2 = _ from hlog, List.append_assoc]
  | error stop st₁ =>
    rw [hr] at hlog hevents
    exact ⟨events, hlog, hstop events hevents⟩

theorem putsDown_emit (c : WalkContext) (out : Sink σ) (origin : Option Site) (kind : String)
    (parent : Frame) (span : Span) (given : List (String × Value)) (orderable : Bool) :
    PutsDown (c.emit (out.traced origin) kind parent span given orderable) fun result events =>
      (result = none ∧ events = []) ∨
      ∃ f : Fact, events = [.fact origin f] ∧ f.parentKey = parent.key ∧
        f.content = c.content kind span given orderable ∧
        ∃ frame : Frame, result = some (f.key, frame) ∧ frame.key = parent.key := by
  intro st
  simp only [WalkContext.emit, KeyCounter.next_eq, Sink.traced]
  rcases out.accept st.sink.1 _ with ⟨s, _ | r⟩
  · exact ⟨_, rfl, .inr ⟨_, rfl, rfl, rfl, _, rfl, rfl⟩⟩
  · exact ⟨[], (List.append_nil _).symm, .inl ⟨rfl, rfl⟩⟩

theorem PutsDown.traced {out : Sink σ} {plain : (τ : Type) → Sink τ → WalkM τ α}
    {expected : List (Event Content)} (h : PutsDown m Q) (ht : Traces out m plain expected) :
    PutsDown m fun a events => Q a events ∧ events.map (.map Fact.content) <+: expected := by
  intro st
  obtain ⟨events, hlog, hevents⟩ := h st
  obtain ⟨happened, hhappened, hpre, -⟩ := ht.log st
  obtain rfl := List.append_cancel_left (hlog.symm.trans hhappened)
  exact ⟨events, hlog, hevents, hpre⟩

end Rules

/-! ## Facts and their parents -/

namespace WalkContext

variable {c : WalkContext} {r : Site}

/-- The node at the first site gives no fact and hands the node at the other one on, maybe through
more such nodes. -/
inductive HandsOn (c : WalkContext) : Site → Site → Prop
  | node {s : Site} {d : Inner s} {todo : List (Branch s)} :
      c.language.outcome c.source s = .passing todo → .node d ∈ todo → HandsOn c s d.val
  | through {s t : Site} {d : Inner s} {todo : List (Branch s)} :
      c.language.outcome c.source s = .passing todo → .node d ∈ todo → HandsOn c d.val t →
      HandsOn c s t

theorem HandsOn.exists_passing {s t : Site} (h : c.HandsOn s t) :
    ∃ todo, c.language.outcome c.source s = .passing todo := by
  cases h with
  | node hpass _ => exact ⟨_, hpass⟩
  | through hpass _ _ => exact ⟨_, hpass⟩

/-- In a log, a container is for a group of a site within `r`: `live` are the live members of the
group, and right after the container comes `during`, which is put down by the walks of these
members. -/
structure GroupOf (c : WalkContext) (r : Site) (log : List (Event Fact)) (container : Fact)
    {s : Site} (live : List (Inner s)) (during : List (Event Fact)) : Prop where
  within : s.Within r
  named : ∃ members kept, .group container.kind members kept ∈ c.onward s ∧
    live = members.filter (·.head.live)
  content : container.content = c.content container.kind (groupSpan live) [] true
  placed : .fact none container :: during <:+: log
  walked : during.map (.map Fact.content) <+: live.flatMap fun d => c.events (some s) d.val true

/-- A fact is orderable, or it stands for a node that a member hands on. -/
def Ranked (c : WalkContext) {s : Site} (live : List (Inner s)) (origin : Option Site)
    (f : Fact) : Prop :=
  f.orderable = true ∨ ∃ d ∈ live, ∃ t, origin = some t ∧ c.HandsOn d.val t

/-- A fact is put down with the members of the group of a container, and is ranked among them. -/
def MemberOf (c : WalkContext) (r : Site) (log : List (Event Fact)) (container : Fact)
    (origin : Option Site) (f : Fact) : Prop :=
  ∃ (s : Site) (live : List (Inner s)) (during : List (Event Fact)),
    c.GroupOf r log container live during ∧ .fact origin f ∈ during ∧ c.Ranked live origin f

theorem MemberOf.mono {events log : List (Event Fact)} {container : Fact} {origin : Option Site}
    {f : Fact} (h : c.MemberOf r events container origin f) (hpart : events <:+: log) :
    c.MemberOf r log container origin f := by
  obtain ⟨s, live, during, hgroup, hf, hranked⟩ := h
  exact ⟨s, live, during, { hgroup with placed := hgroup.placed.trans hpart }, hf, hranked⟩

/-- In some events, a fact stands below `p` and satisfies `top`, or it stands below another fact of
the events, and below a container as a member. -/
def Hangs (c : WalkContext) (r : Site) (p : String) (top : Option Site → Fact → Prop)
    (events : List (Event Fact)) : Prop :=
  ∀ origin f, .fact origin f ∈ events → (f.parentKey = p ∧ top origin f) ∨
    ∃ above g, .fact above g ∈ events ∧ f.parentKey = g.key ∧
      (above = none → c.MemberOf r events g origin f)

/-- The events hang below `p`, and the frame that is handed on is still that of `p`. -/
def Rears (c : WalkContext) (r : Site) (p : String) (top : Option Site → Fact → Prop)
    (frame : Option Frame) (events : List (Event Fact)) : Prop :=
  c.Hangs r p top events ∧ ∀ fr ∈ frame, fr.key = p

section Hangs

variable {p : String} {top top' : Option Site → Fact → Prop} {events more : List (Event Fact)}

theorem hangs_nil : c.Hangs r p top [] := by
  intro origin f hf
  simp at hf

theorem Hangs.mono (h : c.Hangs r p top events) (htop : ∀ origin f, top origin f → top' origin f) :
    c.Hangs r p top' events :=
  fun origin f hf => (h origin f hf).imp_left fun ⟨hp, ht⟩ => ⟨hp, htop origin f ht⟩

theorem Hangs.among {log : List (Event Fact)} (h : c.Hangs r p top events)
    (hpart : events <:+: log) {origin : Option Site} {f : Fact} (hf : .fact origin f ∈ events) :
    (f.parentKey = p ∧ top origin f) ∨ ∃ above g, .fact above g ∈ log ∧ f.parentKey = g.key ∧
      (above = none → c.MemberOf r log g origin f) := by
  refine (h origin f hf).imp_right ?_
  rintro ⟨above, g, hg, hkey, hmember⟩
  exact ⟨above, g, hpart.subset hg, hkey, fun hnone => (hmember hnone).mono hpart⟩

theorem Hangs.append (h : c.Hangs r p top events) (h' : c.Hangs r p top more) :
    c.Hangs r p top (events ++ more) := by
  intro origin f hf
  rcases List.mem_append.1 hf with hf | hf
  · exact h.among (List.prefix_append events more).isInfix hf
  · exact h'.among (List.suffix_append events more).isInfix hf

theorem Hangs.noted (h : c.Hangs r p top events) (namer : Option Site) (s : Site) :
    c.Hangs r p top (.visit namer s :: events) := by
  intro origin f hf
  have hf : .fact origin f ∈ events := by simpa using hf
  exact h.among (List.suffix_cons _ events).isInfix hf

theorem Hangs.under {above : Option Site} {g : Fact} (h : c.Hangs r g.key top' events)
    (hp : g.parentKey = p) (hg : top above g)
    (hmembers : above = none → ∀ origin f, .fact origin f ∈ events → top' origin f →
      c.MemberOf r (.fact none g :: events) g origin f) :
    c.Hangs r p top (.fact above g :: events) := by
  intro origin f hf
  rcases List.mem_cons.1 hf with heq | hf
  · obtain ⟨rfl, rfl⟩ := Event.fact.inj heq
    exact .inl ⟨hp, hg⟩
  · refine .inr ?_
    rcases h.among (List.suffix_cons (.fact above g) events).isInfix hf with ⟨hkey, htop⟩ | hbelow
    · refine ⟨above, g, List.mem_cons_self, hkey, fun hnone => ?_⟩
      rw [hnone]
      exact hmembers hnone origin f hf htop
    · exact hbelow

end Hangs

/-- The facts that a node gives at the top are orderable, or stand for nodes that it hands on. If
the node is no member of a group, its own fact need not be orderable. -/
def NodeTop (c : WalkContext) (s : Site) (grouped : Bool) (origin : Option Site) (f : Fact) :
    Prop :=
  f.orderable = true ∨ ∃ t, origin = some t ∧ ((t = s ∧ grouped = false) ∨ c.HandsOn s t)

/-- The facts that the branches of a site give at the top are containers, or come from a single
node. -/
def BranchTop (c : WalkContext) (s : Site) (origin : Option Site) (f : Fact) : Prop :=
  f.orderable = true ∨ ∃ d : Inner s, .node d ∈ c.onward s ∧ ∃ t, origin = some t ∧
    (t = d.val ∨ c.HandsOn d.val t)

theorem NodeTop.branch {s : Site} {d : Inner s} (hd : .node d ∈ c.onward s) {origin : Option Site}
    {f : Fact} (h : c.NodeTop d.val false origin f) : c.BranchTop s origin f := by
  refine h.imp_right ?_
  rintro ⟨t, horigin, ⟨htop, -⟩ | hhanded⟩
  · exact ⟨d, hd, t, horigin, .inl htop⟩
  · exact ⟨d, hd, t, horigin, .inr hhanded⟩

theorem NodeTop.ranked {s : Site} {live : List (Inner s)} {d : Inner s} (hd : d ∈ live)
    {origin : Option Site} {f : Fact} (h : c.NodeTop d.val true origin f) :
    c.Ranked live origin f := by
  refine h.imp_right ?_
  rintro ⟨t, horigin, ⟨-, hgrouped⟩ | hhanded⟩
  · simp at hgrouped
  · exact ⟨d, hd, t, horigin, hhanded⟩

section Rears

variable {σ : Type} {p : String} {top : Option Site → Fact → Prop}

theorem rears_pure {parent : Frame} :
    PutsDown (σ := σ) (pure parent) (c.Rears r parent.key top) :=
  putsDown_pure ⟨hangs_nil, fun fr hfr => by rw [Option.mem_some.1 hfr]⟩

theorem rears_mono {top' : Option Site → Fact → Prop} {m : WalkM (Traced σ) Frame}
    (h : PutsDown m (c.Rears r p top)) (htop : ∀ origin f, top origin f → top' origin f) :
    PutsDown m (c.Rears r p top') :=
  h.mono fun _ _ hevents => ⟨hevents.1.mono htop, hevents.2⟩

theorem rears_then {m : WalkM (Traced σ) Frame} {k : Frame → WalkM (Traced σ) Frame}
    (h : PutsDown m (c.Rears r p top))
    (hk : ∀ parent : Frame, parent.key = p → PutsDown (k parent) (c.Rears r p top)) :
    PutsDown (m >>= k) (c.Rears r p top) := by
  refine h.bind (fun parent events hevents => ?_) fun _ hevents => hevents
  refine (hk parent (hevents.2 parent rfl)).mono fun _ _ hmore => ?_
  exact ⟨hevents.1.append hmore.1, hmore.2⟩

/-- A fact is put down, then what hangs below it, and then the rest. -/
theorem rears_emit {top' : Option Site → Fact → Prop} {Q : List (Event Fact) → Prop}
    (out : Sink σ) (origin : Option Site) (kind : String) (parent : Frame) (span : Span)
    (given : List (String × Value)) (orderable : Bool) (below : String → WalkM (Traced σ) Frame)
    (rest : Frame → WalkM (Traced σ) Frame)
    (htop : ∀ f : Fact, f.orderable = orderable → top origin f)
    (hbelow : ∀ key, PutsDown (below key) fun frame events =>
      c.Rears r key top' frame events ∧ Q events)
    (hmembers : origin = none → ∀ (g : Fact) events,
      g.content = c.content kind span given orderable → Q events →
      ∀ o f, .fact o f ∈ events → top' o f → c.MemberOf r (.fact none g :: events) g o f)
    (hrest : ∀ frame : Frame, frame.key = parent.key →
      PutsDown (rest frame) (c.Rears r parent.key top)) :
    PutsDown
      (c.emit (out.traced origin) kind parent span given orderable >>= fun result =>
        below result.1 >>= fun _ => rest result.2)
      (c.Rears r parent.key top) := by
  refine (putsDown_emit c out origin kind parent span given orderable).bind ?_ ?_
  · rintro ⟨key, frame⟩ events (⟨hnone, -⟩ | ⟨g, rfl, hparent, hcontent, frame', hsome, hframe⟩)
    · simp at hnone
    · obtain ⟨rfl, rfl⟩ := Prod.mk.inj (Option.some.inj hsome)
      have hord : g.orderable = orderable := congrArg Content.orderable hcontent
      have hunder {events : List (Event Fact)} (h : c.Hangs r g.key top' events) (hQ : Q events) :
          c.Hangs r parent.key top (.fact origin g :: events) :=
        h.under hparent (htop g hord) fun hnone => hmembers hnone g events hcontent hQ
      refine (hbelow g.key).bind (fun _ events hevents => ?_) fun events hevents => ?_
      · refine (hrest frame hframe).mono fun _ more hmore => ⟨?_, hmore.2⟩
        exact (hunder hevents.1.1 hevents.2).append hmore.1
      · exact ⟨hunder hevents.1.1 hevents.2, by simp⟩
  · rintro events (⟨-, rfl⟩ | ⟨g, -, -, -, frame, hsome, -⟩)
    · exact ⟨hangs_nil, by simp⟩
    · simp at hsome

theorem putsDown_note (namer : Option Site) (s : Site) :
    PutsDown (σ := σ) (note namer s) fun result events =>
      result = some () ∧ events = [.visit namer s] :=
  fun _ => ⟨_, rfl, rfl, rfl⟩

theorem rears_silent {m : WalkM (Traced σ) Unit} {parent : Frame}
    (h : PutsDown m fun _ events => events = []) :
    PutsDown (do m; pure parent) (c.Rears r parent.key top) := by
  refine h.bind ?_ ?_
  · rintro _ _ rfl
    exact rears_pure
  · rintro _ rfl
    exact ⟨hangs_nil, by simp⟩

end Rears

section Walks

variable {σ : Type}

mutual

/-- What a walk puts down from a site on hangs below the parent it is given. -/
theorem tracedNode_rears (c : WalkContext) (out : Sink σ) (r : Site) (namer : Option Site)
    (s : Site) (parent : Frame) (grouped : Bool) (depth : Nat) (hs : s.Within r) :
    PutsDown (c.tracedNode out namer s parent grouped depth)
      (c.Rears r parent.key (c.NodeTop s grouped)) := by
  unfold tracedNode
  refine (putsDown_note namer s).bind ?_ fun _ h => by simp at h
  rintro _ _ ⟨-, rfl⟩
  suffices h : PutsDown _ (c.Rears r parent.key (c.NodeTop s grouped)) from
    h.mono fun _ _ hmore => ⟨hmore.1.noted namer s, hmore.2⟩
  cases c.maxDepth.filter (· < depth) with
  | some limit => exact putsDown_throw ⟨hangs_nil, by simp⟩
  | none =>
    dsimp only
    split
    case isTrue => exact rears_pure
    case isFalse hpresent =>
      split
      case isTrue => exact rears_silent fun st => ⟨[], (List.append_nil _).symm, rfl⟩
      case isFalse herror =>
        have honward : c.onward s = (c.language.outcome c.source s).branches :=
          if_pos (by simp_all [Head.live])
        cases ho : c.language.outcome c.source s with
        | elided => exact rears_pure
        | unhandled => exact rears_silent fun st => ⟨[], (List.append_nil _).symm, rfl⟩
        | passing todo =>
          have honward : c.onward s = todo := by rw [honward, ho, Outcome.branches]
          refine rears_mono (tracedBranches_rears c out r s todo parent depth hs
            fun _ hb => honward ▸ hb) ?_
          rintro origin f (hord | ⟨d, hd, t, horigin, htop⟩)
          · exact .inl hord
          · refine .inr ⟨t, horigin, .inr ?_⟩
            rcases htop with rfl | hhanded
            · exact .node ho (honward ▸ hd)
            · exact .through ho (honward ▸ hd) hhanded
        | fact kind given positional todo =>
          have honward : c.onward s = todo := by rw [honward, ho, Outcome.branches]
          refine rears_emit (Q := fun _ => True) out (some s) _ parent s.head.span given
            (positional || grouped) (fun key => c.tracedBranches out s todo { key } depth) pure
            (fun f hord => ?_)
            (fun key => (tracedBranches_rears c out r s todo { key } depth hs
              fun _ hb => honward ▸ hb).mono fun _ _ h => ⟨h, trivial⟩) (by simp)
            fun frame hframe => hframe ▸ rears_pure
          cases grouped with
          | false => exact .inr ⟨s, rfl, .inl ⟨rfl, rfl⟩⟩
          | true => exact .inl (hord.trans (Bool.or_true positional))
termination_by (sizeOf s.node, 2, 0)

theorem tracedBranches_rears (c : WalkContext) (out : Sink σ) (r s : Site) (todo : List (Branch s))
    (parent : Frame) (depth : Nat) (hs : s.Within r) (htodo : ∀ b ∈ todo, b ∈ c.onward s) :
    PutsDown (c.tracedBranches out s todo parent depth)
      (c.Rears r parent.key (c.BranchTop s)) := by
  match todo with
  | [] =>
    unfold tracedBranches
    exact rears_pure
  | .node d :: rest =>
    obtain ⟨hd, hrest⟩ := List.forall_mem_cons.1 htodo
    unfold tracedBranches
    have hnode := rears_mono (tracedNode_rears c out r (some s) d.val parent false (depth + 1)
      (d.property.within.trans hs)) fun _ _ htop => htop.branch hd
    refine rears_then hnode fun frame hframe => ?_
    exact hframe ▸ tracedBranches_rears c out r s rest frame depth hs hrest
  | .group name found kept :: rest =>
    obtain ⟨hgroup, hrest⟩ := List.forall_mem_cons.1 htodo
    unfold tracedBranches
    dsimp only
    split
    · exact tracedBranches_rears c out r s rest parent depth hs hrest
    · refine rears_emit out none name parent _ [] true
        (fun key => c.tracedMembers out s (found.filter (·.head.live)) { key } depth)
        (fun frame => c.tracedBranches out s rest frame depth) ?_
        (fun key => (tracedMembers_rears c out r s (found.filter (·.head.live)) _ { key } depth hs
          fun d hd => hd).traced (c.tracedMembers_traces out s _ { key } depth)) ?_ ?_
      · exact fun f hord => .inl hord
      · intro _ g events hcontent hwalked origin f hf htop
        obtain rfl : g.kind = name := congrArg Content.kind hcontent
        have hof := GroupOf.mk hs ⟨found, kept, hgroup, rfl⟩ hcontent List.infix_rfl hwalked
        exact ⟨s, _, events, hof, hf, htop⟩
      · exact fun frame hframe => hframe ▸ tracedBranches_rears c out r s rest frame depth hs hrest
termination_by (sizeOf s.node, 1, todo.length)
decreasing_by
  · exact .left _ _ d.property.sizeOf_lt
  · exact .right _ (.right _ (Nat.lt_succ_self _))
  · exact .right _ (.left _ _ Nat.zero_lt_one)
  · exact .right _ (.right _ (Nat.lt_succ_self _))
  · exact .right _ (.right _ (Nat.lt_succ_self _))

theorem tracedMembers_rears (c : WalkContext) (out : Sink σ) (r s : Site)
    (live todo : List (Inner s)) (parent : Frame) (depth : Nat) (hs : s.Within r)
    (htodo : ∀ d ∈ todo, d ∈ live) :
    PutsDown (c.tracedMembers out s todo parent depth)
      (c.Rears r parent.key (c.Ranked live)) := by
  match todo with
  | [] =>
    unfold tracedMembers
    exact rears_pure
  | d :: rest =>
    obtain ⟨hd, hrest⟩ := List.forall_mem_cons.1 htodo
    unfold tracedMembers
    have hnode := rears_mono (tracedNode_rears c out r (some s) d.val parent true (depth + 2)
      (d.property.within.trans hs)) fun _ _ htop => htop.ranked hd
    refine rears_then hnode fun frame hframe => ?_
    exact hframe ▸ tracedMembers_rears c out r s live rest frame depth hs hrest
termination_by (sizeOf s.node, 0, todo.length)
decreasing_by
  · exact .left _ _ d.property.sizeOf_lt
  · exact .right _ (.right _ (Nat.lt_succ_self _))

end

/-- Every fact of a walk stands below the given parent or below another fact of the walk, and below
a container as a member. -/
theorem hangs_tracedWalk (c : WalkContext) (out : Sink σ) (root : Node) (parentKey : String)
    (keys : KeyCounter) (start : σ) :
    c.Hangs { node := root } parentKey (c.NodeTop { node := root } false)
      (c.tracedWalk out root parentKey keys start).sink.2 := by
  obtain ⟨events, hlog, hhangs, -⟩ := c.tracedNode_rears out { node := root } none { node := root }
    { key := parentKey } false 0 (.refl _) { keys, sink := (start, []) }
  have hsink : (c.tracedWalk out root parentKey keys start).sink.2 = events := by
    rw [tracedWalk]
    cases hr : c.tracedNode out none { node := root } { key := parentKey } false 0
      { keys, sink := (start, []) } with
    | ok frame st =>
      rw [hr] at hlog
      exact hlog
    | error stop st =>
      rw [hr] at hlog
      exact hlog
  rw [hsink]
  exact hhangs

theorem eq_of_key_eq (c : WalkContext) (out : Sink σ) (root : Node) (parentKey : String)
    (keys : KeyCounter) (start : σ) {o o' : Option Site} {f g : Fact}
    (hf : .fact o f ∈ (c.tracedWalk out root parentKey keys start).sink.2)
    (hg : .fact o' g ∈ (c.tracedWalk out root parentKey keys start).sink.2)
    (hkey : f.key = g.key) : o = o' ∧ f = g := by
  have hnodup := (c.reading { node := root } false 0).forest.nodup_keys keys { key := parentKey }
  have hpre := out.taken_prefix
    ((c.reading { node := root } false 0).forest.facts keys { key := parentKey }) start
  rw [← c.emitted_eq, ← c.facts_tracedWalk] at hpre
  have hkeys := hnodup.sublist (hpre.sublist.map Fact.key)
  rw [List.Nodup, List.pairwise_map, List.pairwise_filterMap] at hkeys
  have : Std.Symm fun d e : Event Fact =>
      ∀ f, d.value? = some f → ∀ g, e.value? = some g → f.key ≠ g.key :=
    ⟨fun _ _ h g hg f hf => (h f hf g hg).symm⟩
  by_contra hne
  exact hkeys.forall hf hg (fun heq => hne (Event.fact.inj heq)) f rfl g rfl hkey

end Walks

end WalkContext

/-! ## The rules of the languages -/

/-- The kinds of the nodes that only group their children. -/
def TypeScript.groupingKinds : List String :=
  ["program", "computed_property_name", "class_heritage", "else_clause", "finally_clause",
   "import_clause", "named_imports", "export_clause", "ambient_declaration",
   "template_substitution", "switch_body", "constraint", "default_type", "template_type"]

namespace Treatment

/-- The node gives no fact and its children do. -/
def passes : Treatment → Bool
  | .pass _ => true
  | .elide | .emit _ => false

/-- The containers of a treatment, with what they gather. -/
def containers (treatment : Treatment) : List (String × Query) :=
  treatment.parts.filterMap fun
    | .nodes _ => none
    | .group name q _ => some (name, q)

theorem passes_of_outcome {treatment : Treatment} {source : String} {s : Site}
    {todo : List (Branch s)} (h : treatment.outcome source s = .passing todo) :
    treatment.passes = true := by
  cases treatment with
  | pass parts => rfl
  | elide => simp [outcome] at h
  | emit e => simp [outcome] at h

theorem mem_containers_of_group {treatment : Treatment} {source : String} {s : Site}
    {name : String} {members : List (Inner s)} {kept : Bool}
    (h : .group name members kept ∈ (treatment.outcome source s).branches) :
    ∃ q, (name, q) ∈ treatment.containers ∧ members = q.pick s := by
  rw [treatment.branches_outcome] at h
  obtain ⟨part, hpart, hmem⟩ := List.mem_flatMap.1 h
  cases part with
  | nodes q => simp [Part.branches] at hmem
  | group name' q kept' =>
    rw [Part.branches, List.mem_singleton, Branch.group.injEq] at hmem
    obtain ⟨rfl, rfl, -⟩ := hmem
    exact ⟨q, List.mem_filterMap.2 ⟨_, hpart, rfl⟩, rfl⟩

end Treatment

theorem TypeScript.kinds_of_passes : ∀ rule ∈ TypeScript.rules, rule.treatment.passes = true →
    ∀ kind ∈ rule.kinds, kind ∈ groupingKinds := by decide

theorem TypeScript.query_of_decls : ∀ rule ∈ TypeScript.rules,
    ∀ group ∈ rule.treatment.containers, group.1 = "decls" →
      group.2 = .ofKind ["variable_declarator"] := by decide

namespace Language

/-- Of the languages, TypeScript alone has groups. -/
theorem rule_of_group {language : Language} (h : language ∈ Registry.standard.languages)
    {source : String} {s : Site} {name : String} {members : List (Inner s)} {kept : Bool}
    (hgroup : .group name members kept ∈ (language.outcome source s).branches) :
    language = .typeScript ∧ ∃ rule ∈ TypeScript.rules, ∃ q,
      (name, q) ∈ rule.treatment.containers ∧ members = q.pick s := by
  have hother : ∀ treatment ∈ language.otherwise, treatment.containers = [] := by
    rcases Registry.mem_languages.1 h with rfl | rfl | rfl <;> decide
  have hcSharp : ∀ rule ∈ cSharp.rules, rule.treatment.containers = [] := by decide
  have hphp : ∀ rule ∈ php.rules, rule.treatment.containers = [] := by decide
  rcases language.outcome_cases source s with ⟨rule, hrule, -, hr⟩ | ⟨treatment, ht, hr⟩ | hr
  · obtain ⟨q, hq, hmembers⟩ := Treatment.mem_containers_of_group (hr ▸ hgroup)
    rcases Registry.mem_languages.1 h with rfl | rfl | rfl
    · simp [hcSharp rule hrule] at hq
    · simp [hphp rule hrule] at hq
    · exact ⟨rfl, rule, hrule, q, hq, hmembers⟩
  · obtain ⟨q, hq, -⟩ := Treatment.mem_containers_of_group (hr ▸ hgroup)
    simp [hother treatment ht] at hq
  · rw [hr] at hgroup
    simp [Outcome.branches] at hgroup

theorem kind_of_passing {source : String} {s : Site} {todo : List (Branch s)}
    (h : typeScript.outcome source s = .passing todo) :
    s.head.kind ∈ TypeScript.groupingKinds := by
  rcases typeScript.outcome_cases source s with ⟨rule, hrule, hkind, hr⟩ | ⟨treatment, ht, -⟩ | hr
  · exact TypeScript.kinds_of_passes rule hrule (Treatment.passes_of_outcome (hr ▸ h)) _ hkind
  · simp [typeScript] at ht
  · simp [hr] at h

end Language

namespace Event

variable {α β : Type}

/-- What a fact stands for. -/
def place? : Event α → Option (Option Site)
  | visit .. => none
  | fact origin _ => some origin

@[simp] theorem place?_map (f : α → β) (e : Event α) : (e.map f).place? = e.place? := by
  cases e <;> rfl

theorem mem_of_zip {l : List (Event α)} {origin : Option Site} {value : α}
    (h : (origin, value) ∈ (l.filterMap place?).zip (l.filterMap value?)) :
    .fact origin value ∈ l := by
  induction l with
  | nil => simp at h
  | cons e rest ih =>
    cases e with
    | visit namer site => exact List.mem_cons_of_mem _ (ih h)
    | fact origin' value' =>
      rcases List.mem_cons.1 h with heq | h
      · obtain ⟨rfl, rfl⟩ := Prod.mk.inj heq
        exact List.mem_cons_self
      · exact List.mem_cons_of_mem _ (ih h)

end Event

namespace WalkContext

theorem mem_branches_of_onward {c : WalkContext} {s : Site} {b : Branch s} (h : b ∈ c.onward s) :
    b ∈ (c.language.outcome c.source s).branches := by
  unfold onward at h
  split at h
  · exact h
  · simp at h

/-- A member that hands its children on is one of a TypeScript group, and no declarator. -/
theorem MemberOf.cases {c : WalkContext} (hc : c.language ∈ Registry.standard.languages)
    {r : Site} {log : List (Event Fact)} {container f : Fact} {origin : Option Site}
    (h : c.MemberOf r log container origin f) :
    f.orderable = true ∨ c.language = .typeScript ∧ container.kind ≠ "decls" ∧
      ∃ (s : Site) (live : List (Inner s)) (during : List (Event Fact)),
        c.GroupOf r log container live during ∧ .fact origin f ∈ during ∧
        ∃ m ∈ live, m.head.kind ∈ TypeScript.groupingKinds ∧
          ∃ t, origin = some t ∧ c.HandsOn m.val t := by
  obtain ⟨s, live, during, hgroup, hf, hord | ⟨m, hm, t, horigin, hhanded⟩⟩ := h
  · exact .inl hord
  · obtain ⟨members, kept, hnamed, rfl⟩ := hgroup.named
    obtain ⟨hts, rule, hrule, q, hq, rfl⟩ :=
      Language.rule_of_group hc (mem_branches_of_onward hnamed)
    obtain ⟨todo, hpass⟩ := hhanded.exists_passing
    rw [hts] at hpass
    have hkind := Language.kind_of_passing hpass
    refine .inr ⟨hts, ?_, s, _, during, hgroup, hf, m, hm, hkind, t, horigin, hhanded⟩
    intro hdecls
    obtain rfl : q = _ := TypeScript.query_of_decls rule hrule _ hq hdecls
    have hdecl : m.val.head.kind = "variable_declarator" := by
      simpa [Test.holds, Query.pick] using (List.mem_filter.1 (List.mem_filter.1 hm).1).2
    rw [hdecl] at hkind
    exact absurd hkind (by decide)

/-- The members of a container are orderable, unless they come from a member that hands its children
on.

The log has the facts of the walk. If a fact stands below a container of the walk, it is orderable,
or it is put down with the members of the group that the container is for, and stands for a node
that a member of this group hands on, so this member only groups its children. That happens in
TypeScript alone, and not among declarators. -/
theorem member_orderable {c : WalkContext} (hc : c.language ∈ Registry.standard.languages)
    {σ : Type} (out : Sink σ) (root : Node) (parentKey : String) (keys : KeyCounter) (start : σ) :
    let log := (c.tracedWalk out root parentKey keys start).sink.2
    log.filterMap Event.value? = c.emitted out root parentKey keys start ∧
    ∀ container origin f, .fact none container ∈ log → .fact origin f ∈ log →
      f.parentKey = container.key → container.key ≠ parentKey →
      f.orderable = true ∨ c.language = .typeScript ∧ container.kind ≠ "decls" ∧
        ∃ (s : Site) (live : List (Inner s)) (during : List (Event Fact)),
          c.GroupOf { node := root } log container live during ∧ .fact origin f ∈ during ∧
          ∃ m ∈ live, m.head.kind ∈ TypeScript.groupingKinds ∧
            ∃ t, origin = some t ∧ c.HandsOn m.val t := by
  intro log
  refine ⟨c.facts_tracedWalk out root parentKey keys start, ?_⟩
  intro container origin f hcontainer hf hparent hne
  rcases c.hangs_tracedWalk out root parentKey keys start origin f hf with
    ⟨htop, -⟩ | ⟨above, g, hg, hkey, hmember⟩
  · exact absurd (hparent.symm.trans htop) hne
  · obtain ⟨rfl, rfl⟩ := c.eq_of_key_eq out root parentKey keys start hg hcontainer
      (hkey.symm.trans hparent)
    exact (hmember rfl).cases hc

/-! ## Two declarations -/

/-- The forest of a node is its own fact over those of the branches, or those of the branches
alone. -/
theorem forest_eq (c : WalkContext) (s : Site) (grouped : Bool) :
    let below := Forest.concat ((c.onward s).map (c.branchForest fun d => c.forest d.val))
    c.forest s grouped = (c.own? s grouped).elim below fun content => .fact content below .nil := by
  rw [forest, own?, onward]
  cases s.head.live with
  | false => rfl
  | true =>
    dsimp only [if_true]
    cases c.language.outcome c.source s <;> rfl

section Single

variable (c : WalkContext) {s : Site} {d : Inner s} (h : d.head.live = true) (name : String)
  (kept : Bool)

include h

theorem branchForest_single (below : Inner s → Bool → Forest) :
    c.branchForest below (.group name [d] kept) =
      .fact (c.content name d.head.span [] true) (below d true ++ .nil) .nil := by
  simp only [branchForest, List.filter_cons, List.filter_nil, h, if_true, List.isEmpty_cons,
    Bool.false_and, Bool.false_eq_true, if_false]
  rfl

theorem branchEvents_single (below : Inner s → Bool → List (Event Content)) :
    c.branchEvents below (.group name [d] kept) =
      .fact none (c.content name d.head.span [] true) :: below d true := by
  simp only [branchEvents, List.filter_cons, List.filter_nil, h, if_true, List.isEmpty_cons,
    Bool.false_and, Bool.false_eq_true, if_false, List.flatMap_singleton]
  rfl

end Single

theorem mem_log_collect {c : WalkContext} (h : c.maxDepth = none) {root : Node}
    {parentKey : String} {keys : KeyCounter} {start : Array Fact} {origin : Option Site} {f : Fact}
    (hf : (origin, f) ∈ ((c.events none { node := root } false).filterMap Event.place?).zip
      ((c.forest { node := root } false).facts keys { key := parentKey })) :
    .fact origin f ∈ (c.tracedWalk .collect root parentKey keys start).sink.2 := by
  have hstop := (walk_deliver h .collect root parentKey keys start).2.1
  rw [(Sink.deliver_collect _ _).2, ← c.forget_tracedWalk .collect root parentKey keys start]
    at hstop
  have hplaces := congrArg (List.filterMap Event.place?)
    ((c.log_tracedWalk .collect root parentKey keys start).2 hstop)
  have hfacts := c.facts_tracedWalk .collect root parentKey keys start
  rw [c.emitted_eq, (reading_unlimited h { node := root } false 0).2,
    Sink.collect.taken_of_deliver (Prod.ext rfl (Sink.deliver_collect _ _).2)] at hfacts
  rw [List.filterMap_map] at hplaces
  have hplaces' : (c.tracedWalk .collect root parentKey keys start).sink.2.filterMap
      Event.place? = (c.events none { node := root } false).filterMap Event.place? := by
    simpa only [Function.comp_def, Event.place?_map] using hplaces
  rw [← hplaces', ← hfacts] at hf
  exact Event.mem_of_zip hf

/-- The declaration `var x`. -/
def bareVariable : Node :=
  ⟨{ kind := "variable_declaration", span := { endOffset := 5 } },
   [⟨{ kind := "var", named := false, span := { endOffset := 3 } }, []⟩,
    ⟨{ kind := "variable_declarator", span := { startOffset := 4, endOffset := 5 } },
     [⟨{ kind := "identifier", span := { startOffset := 4, endOffset := 5 },
         label := some "name" }, []⟩]⟩]⟩

def bareVariableWalk : WalkContext where
  language := .typeScript
  source := "var x"
  filename := "a.ts"

/-- The container stands over the declarator, and the declarator over its name. -/
theorem forest_bareVariable : ∃ declarator name whole decls one ident,
    (bareVariableWalk.events none { node := bareVariable } false).filterMap Event.place? =
      [some { node := bareVariable }, none, some declarator, some name] ∧
    bareVariableWalk.forest { node := bareVariable } false =
      .fact whole (.fact decls (.fact one (.fact ident .nil .nil) .nil) .nil) .nil ∧
    declarator.head.kind = "variable_declarator" ∧ decls.kind = "decls" := by
  obtain ⟨declarator, name, whole, one, ident, hwhole, hroot, hone, hdeclarator, hident, hname,
      hlive, hkind⟩ :
      ∃ (declarator : Inner { node := bareVariable }) (name : Inner declarator.val)
        (whole one ident : Content),
        bareVariableWalk.own? { node := bareVariable } false = some whole ∧
        bareVariableWalk.onward { node := bareVariable } = [.group "decls" [declarator] false] ∧
        bareVariableWalk.own? declarator.val true = some one ∧
        bareVariableWalk.onward declarator.val = [.node name] ∧
        bareVariableWalk.own? name.val false = some ident ∧
        bareVariableWalk.onward name.val = [] ∧
        declarator.head.live = true ∧ declarator.val.head.kind = "variable_declarator" :=
    ⟨_, _, _, _, _, rfl, rfl, rfl, rfl, rfl, rfl, rfl, rfl⟩
  refine ⟨declarator.val, name.val, whole,
    bareVariableWalk.content "decls" declarator.head.span [] true, one, ident, ?_, ?_, hkind, rfl⟩
  · rw [events, hwhole, hroot, List.flatMap_singleton, branchEvents_single _ hlive, events, hone,
      hdeclarator, List.flatMap_singleton, branchEvents, events, hident, hname]
    rfl
  · rw [forest_eq, hwhole, hroot, List.map_singleton, branchForest_single _ hlive, forest_eq, hone,
      hdeclarator, List.map_singleton, branchForest, forest_eq, hident, hname]
    rfl

/-- The declarator is in the container and orderable. -/
theorem member_orderable_bareVariable :
    let log := (bareVariableWalk.tracedWalk .collect bareVariable "1_0" ⟨1, 0⟩ #[]).sink.2
    bareVariableWalk.language ∈ Registry.standard.languages ∧
      ∃ container origin f, .fact none container ∈ log ∧ .fact (some origin) f ∈ log ∧
        f.parentKey = container.key ∧ container.key ≠ "1_0" ∧
        origin.head.kind = "variable_declarator" ∧ f.orderable = true := by
  intro log
  have hlanguage : bareVariableWalk.language ∈ Registry.standard.languages :=
    Registry.mem_languages.2 (.inr (.inr rfl))
  obtain ⟨declarator, name, whole, decls, one, ident, hplaces, hforest, hkind, hdecls⟩ :=
    forest_bareVariable
  have hlog : .fact none (decls.toFact "1_2" { key := "1_1" }) ∈ log ∧
      .fact (some declarator) (one.toFact "1_3" { key := "1_2" }) ∈ log := by
    refine ⟨mem_log_collect rfl ?_, mem_log_collect rfl ?_⟩
    · rw [hplaces, hforest]
      exact .tail _ (.head _)
    · rw [hplaces, hforest]
      exact .tail _ (.tail _ (.head _))
  have hne : "1_2" ≠ "1_0" := by decide
  have hmember := (member_orderable hlanguage .collect bareVariable "1_0" ⟨1, 0⟩ #[]).2 _ _ _
    hlog.1 hlog.2 rfl hne
  refine ⟨hlanguage, _, _, _, hlog.1, hlog.2, rfl, hne, hkind, ?_⟩
  exact hmember.resolve_right fun h => h.2.1 hdecls

/-- The program `enum E { ['G'] }`, with a computed name for its member. -/
def computedEnum : Node :=
  ⟨{ kind := "program", span := { endOffset := 16 } },
   [⟨{ kind := "enum_declaration", span := { endOffset := 16 } },
     [⟨{ kind := "enum", named := false, span := { endOffset := 4 } }, []⟩,
      ⟨{ kind := "identifier", span := { startOffset := 5, endOffset := 6 },
         label := some "name" }, []⟩,
      ⟨{ kind := "enum_body", span := { startOffset := 7, endOffset := 16 },
         label := some "body" },
       [⟨{ kind := "\x7b", named := false, span := { startOffset := 7, endOffset := 8 } }, []⟩,
        ⟨{ kind := "computed_property_name", span := { startOffset := 9, endOffset := 14 },
           label := some "name" },
         [⟨{ kind := "[", named := false, span := { startOffset := 9, endOffset := 10 } }, []⟩,
          ⟨{ kind := "string", span := { startOffset := 10, endOffset := 13 } },
           [⟨{ kind := "'", named := false, span := { startOffset := 10, endOffset := 11 } }, []⟩,
            ⟨{ kind := "string_fragment", span := { startOffset := 11, endOffset := 12 } }, []⟩,
            ⟨{ kind := "'", named := false, span := { startOffset := 12, endOffset := 13 } }, []⟩]⟩,
          ⟨{ kind := "]", named := false, span := { startOffset := 13, endOffset := 14 } }, []⟩]⟩,
        ⟨{ kind := "\x7d", named := false, span := { startOffset := 15, endOffset := 16 } },
         []⟩]⟩]⟩]⟩

def computedEnumWalk : WalkContext where
  language := .typeScript
  source := "enum E \x7b ['G'] \x7d"
  filename := "a.ts"

/-- The text in the brackets stands right below the container. -/
theorem forest_computedEnum : ∃ declaration name text whole ident members quoted,
    (computedEnumWalk.events none { node := computedEnum } false).filterMap Event.place? =
      [some declaration, some name, none, some text] ∧
    computedEnumWalk.forest { node := computedEnum } false =
      .fact whole (.fact ident .nil (.fact members (.fact quoted .nil .nil) .nil)) .nil ∧
    members.kind = "members" ∧ quoted.orderable = false := by
  obtain ⟨declaration, name, member, text, whole, ident, quoted, hnone, hroot, hwhole,
      hdeclaration, hident, hname, hpass, hmember, hquoted, htext, hlive, horderable⟩ :
      ∃ (declaration : Inner { node := computedEnum }) (name member : Inner declaration.val)
        (text : Inner member.val) (whole ident quoted : Content),
        computedEnumWalk.own? { node := computedEnum } false = none ∧
        computedEnumWalk.onward { node := computedEnum } = [.node declaration] ∧
        computedEnumWalk.own? declaration.val false = some whole ∧
        computedEnumWalk.onward declaration.val = [.node name, .group "members" [member] true] ∧
        computedEnumWalk.own? name.val false = some ident ∧
        computedEnumWalk.onward name.val = [] ∧
        computedEnumWalk.own? member.val true = none ∧
        computedEnumWalk.onward member.val = [.node text] ∧
        computedEnumWalk.own? text.val false = some quoted ∧
        computedEnumWalk.onward text.val = [] ∧
        member.head.live = true ∧ quoted.orderable = false :=
    ⟨_, _, _, _, _, _, _, rfl, rfl, rfl, rfl, rfl, rfl, rfl, rfl, rfl, rfl, rfl, rfl⟩
  refine ⟨declaration.val, name.val, text.val, whole, ident,
    computedEnumWalk.content "members" member.head.span [] true, quoted, ?_, ?_, rfl, horderable⟩
  · rw [events, hnone, hroot, List.flatMap_singleton, branchEvents, events, hwhole, hdeclaration,
      List.flatMap_cons, List.flatMap_singleton, branchEvents_single _ hlive, branchEvents, events,
      hident, hname, events, hpass, hmember, List.flatMap_singleton, branchEvents, events, hquoted,
      htext]
    rfl
  · rw [forest_eq, hnone, hroot, List.map_singleton, branchForest, forest_eq, hwhole, hdeclaration,
      List.map_cons, List.map_singleton, branchForest_single _ hlive, branchForest, forest_eq,
      hident, hname, forest_eq, hpass, hmember, List.map_singleton, branchForest, forest_eq,
      hquoted, htext]
    rfl

/-- The text of a computed name is in the container of the members, and not orderable. -/
theorem member_not_orderable :
    let log := (computedEnumWalk.tracedWalk .collect computedEnum "1_0" ⟨1, 0⟩ #[]).sink.2
    computedEnumWalk.language ∈ Registry.standard.languages ∧
      ∃ container origin f, .fact none container ∈ log ∧ .fact (some origin) f ∈ log ∧
        f.parentKey = container.key ∧ container.key ≠ "1_0" ∧ container.kind = "members" ∧
        f.orderable = false := by
  intro log
  obtain ⟨declaration, name, text, whole, ident, members, quoted, hplaces, hforest, hkind,
    horderable⟩ := forest_computedEnum
  have hne : "1_3" ≠ "1_0" := by decide
  refine ⟨Registry.mem_languages.2 (.inr (.inr rfl)),
    members.toFact "1_3" { key := "1_1", children := ["1_2"] }, text,
    quoted.toFact "1_4" { key := "1_3" }, mem_log_collect rfl ?_, mem_log_collect rfl ?_, rfl,
    hne, hkind, horderable⟩
  · rw [hplaces, hforest]
    exact .tail _ (.tail _ (.head _))
  · rw [hplaces, hforest]
    exact .tail _ (.tail _ (.tail _ (.head _)))

end WalkContext

end FactStream
