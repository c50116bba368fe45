import FactStream.Proofs.Delivery
import FactStream.Proofs.Dictionary
import FactStream.Proofs.Forest
import FactStream.Walk

/-!
# What a walk finds in a tree

A `Reading` is what a walk finds: the forest of its facts, the kinds it met without a rule, and the
limit it stopped at, if it went too deep. `WalkContext.reading` reads it off a tree without
counters, frames or sinks. A walk then does nothing but number the forest and deliver its facts
(`WalkContext.node_performs`), whatever the sink does.
-/

namespace FactStream

/-- What a walk finds. -/
structure Reading where
  forest : Forest := .nil
  /-- The kinds of the nodes without a rule, in the order in which they are met. -/
  unhandled : List String := []
  /-- The limit on the depth, if a node beyond it ended the walk. -/
  stop : Option Nat := none

namespace Reading

/-- One reading after the other. Nothing is read after a stop. -/
def followedBy (r t : Reading) : Reading :=
  match r.stop with
  | some _ => r
  | none =>
    { forest := r.forest ++ t.forest
      unhandled := r.unhandled ++ t.unhandled
      stop := t.stop }

/-- A reading below a fact. -/
def under (r : Reading) (content : Content) : Reading :=
  { r with forest := .fact content r.forest .nil }

end Reading

namespace WalkContext

/-- The content of a fact for a stretch of source text. -/
def content (c : WalkContext) (kind : String) (span : Span) (properties : List (String × Value))
    (orderable : Bool) : Content where
  commonKind := c.language.commonKind kind
  kind
  nameSpace := c.language.nameSpace
  orderable
  properties := properties.foldl (fun d p => d.insert p.1 (c.language.naming.property p.2))
    (commonProperties c.language.naming c.filename span)

theorem get?_content (c : WalkContext) (kind : String) (span : Span)
    (given : List (String × Value)) (orderable : Bool) (name : String) :
    (c.content kind span given orderable).properties.get? name =
      ((given.reverse.lookup name).map c.language.naming.property).or
        ((commonProperties c.language.naming c.filename span).get? name) :=
  Dictionary.get?_foldl_insert _ given _ name

mutual

/-- What a walk finds at a site. -/
def reading (c : WalkContext) (s : Site) (grouped : Bool) (depth : Nat) : Reading :=
  match c.maxDepth.filter (· < depth) with
  | some limit => { stop := some limit }
  | none =>
    if s.head.live then
      match c.language.outcome c.source s with
      | .elided => {}
      | .unhandled => { unhandled := [s.head.kind] }
      | .passing branches => c.readBranches s branches depth
      | .fact kind properties positional branches =>
        (c.readBranches s branches depth).under
          (c.content (kind.getD (c.language.rename s.head.kind)) s.head.span properties
            (positional || grouped))
    else {}
termination_by (sizeOf s.node, 2, 0)

def readBranches (c : WalkContext) (s : Site) (todo : List (Branch s)) (depth : Nat) : Reading :=
  match todo with
  | [] => {}
  | .node d :: rest =>
    (c.reading d.val false (depth + 1)).followedBy (c.readBranches s rest depth)
  | .group name members kept :: rest =>
    let live := members.filter (·.head.live)
    if live.isEmpty && !kept then c.readBranches s rest depth
    else
      ((c.readMembers s live depth).under (c.content name (groupSpan live) [] true)).followedBy
        (c.readBranches s rest depth)
termination_by (sizeOf s.node, 1, todo.length)
decreasing_by
  · exact .left _ _ d.property.sizeOf_lt
  · exact .right _ (.right _ (Nat.lt_succ_self _))
  · exact .right _ (.right _ (Nat.lt_succ_self _))
  · exact .right _ (.left _ _ Nat.zero_lt_one)
  · exact .right _ (.right _ (Nat.lt_succ_self _))

def readMembers (c : WalkContext) (s : Site) (todo : List (Inner s)) (depth : Nat) : Reading :=
  match todo with
  | [] => {}
  | d :: rest => (c.reading d.val true (depth + 2)).followedBy (c.readMembers s rest depth)
termination_by (sizeOf s.node, 0, todo.length)
decreasing_by
  · exact .left _ _ d.property.sizeOf_lt
  · exact .right _ (.right _ (Nat.lt_succ_self _))

end

theorem reading_of_fact {c : WalkContext} (hdepth : c.maxDepth = none) {s : Site}
    (hlive : s.head.live = true) {kind : Option String} {given : List (String × Value)}
    {positional : Bool} {todo : List (Branch s)}
    (houtcome : c.language.outcome c.source s = .fact kind given positional todo)
    (grouped : Bool) (depth : Nat) :
    c.reading s grouped depth =
      (c.readBranches s todo depth).under
        (c.content (kind.getD (c.language.rename s.head.kind)) s.head.span given
          (positional || grouped)) := by
  rw [reading, hdepth, Option.filter_none, houtcome]
  exact if_pos hlive

end WalkContext

/-! ## Kinds of facts -/

/-- The names of the containers satisfy `K`. -/
def GroupNames (K : String → Prop) {s : Site} (todo : List (Branch s)) : Prop :=
  ∀ name found kept, .group name found kept ∈ todo → K name

theorem GroupNames.of_cons {K : String → Prop} {s : Site} {b : Branch s} {rest : List (Branch s)}
    (h : GroupNames K (b :: rest)) : GroupNames K rest :=
  fun name found kept hmem => h name found kept (List.mem_cons_of_mem _ hmem)

/-- The kinds of the facts at a site and of its containers satisfy `K`. -/
def Outcome.Kinds (K : String → Prop) (rename : String → String) {s : Site} : Outcome s → Prop
  | .elided => True
  | .unhandled => True
  | .passing todo => GroupNames K todo
  | .fact kind _ _ todo => K (kind.getD (rename s.head.kind)) ∧ GroupNames K todo

/-- All facts of a language have kinds that satisfy `K`. -/
def Language.Kinds (language : Language) (K : String → Prop) : Prop :=
  ∀ source s, (language.outcome source s).Kinds K language.rename

theorem Language.kinds_true (language : Language) : language.Kinds fun _ => True := by
  intro source s
  cases h : language.outcome source s <;> simp [Outcome.Kinds, GroupNames]

theorem Reading.all_followedBy {P : Content → Prop} {r t : Reading} (hr : r.forest.All P)
    (ht : t.forest.All P) : (r.followedBy t).forest.All P := by
  unfold followedBy
  cases r.stop with
  | none => exact Forest.all_append hr ht
  | some limit => exact hr

theorem Reading.all_under {P : Content → Prop} {r : Reading} {content : Content}
    (hr : r.forest.All P) (hc : P content) : (r.under content).forest.All P :=
  ⟨hc, hr, trivial⟩

namespace WalkContext

variable {c : WalkContext} {K : String → Prop} {P : Content → Prop}

mutual

/-- What holds of the kinds of a language holds of all that a walk finds, and a walk leaves no key
out. -/
theorem all_reading (hK : c.language.Kinds K)
    (hP : ∀ kind span properties orderable, K kind → P (c.content kind span properties orderable))
    (s : Site) (grouped : Bool) (depth : Nat) :
    (c.reading s grouped depth).forest.All P := by
  have hs := hK c.source s
  unfold reading
  cases c.maxDepth.filter (· < depth) with
  | some limit => trivial
  | none =>
    dsimp only
    split
    · cases ho : c.language.outcome c.source s with
      | elided => trivial
      | unhandled => trivial
      | passing todo =>
        rw [ho] at hs
        exact all_readBranches hK hP s todo depth hs
      | fact kind properties positional todo =>
        rw [ho] at hs
        exact Reading.all_under (all_readBranches hK hP s todo depth hs.2) (hP _ _ _ _ hs.1)
    · trivial
termination_by (sizeOf s.node, 2, 0)

theorem all_readBranches (hK : c.language.Kinds K)
    (hP : ∀ kind span properties orderable, K kind → P (c.content kind span properties orderable))
    (s : Site) (todo : List (Branch s)) (depth : Nat) (hnames : GroupNames K todo) :
    (c.readBranches s todo depth).forest.All P := by
  match todo, hnames with
  | [], _ =>
    unfold readBranches
    trivial
  | .node d :: rest, hnames =>
    unfold readBranches
    exact Reading.all_followedBy (all_reading hK hP d.val false (depth + 1))
      (all_readBranches hK hP s rest depth hnames.of_cons)
  | .group name found kept :: rest, hnames =>
    unfold readBranches
    dsimp only
    split
    · exact all_readBranches hK hP s rest depth hnames.of_cons
    · exact Reading.all_followedBy
        (Reading.all_under (all_readMembers hK hP s (found.filter (·.head.live)) depth)
          (hP _ _ _ _ (hnames name found kept List.mem_cons_self)))
        (all_readBranches hK hP s rest depth hnames.of_cons)
termination_by (sizeOf s.node, 1, todo.length)
decreasing_by
  · exact .left _ _ d.property.sizeOf_lt
  · exact .right _ (.right _ (Nat.lt_succ_self _))
  · exact .right _ (.left _ _ Nat.zero_lt_one)
  · exact .right _ (.right _ (Nat.lt_succ_self _))
  · exact .right _ (.right _ (Nat.lt_succ_self _))

theorem all_readMembers (hK : c.language.Kinds K)
    (hP : ∀ kind span properties orderable, K kind → P (c.content kind span properties orderable))
    (s : Site) (todo : List (Inner s)) (depth : Nat) :
    (c.readMembers s todo depth).forest.All P := by
  match todo with
  | [] =>
    unfold readMembers
    trivial
  | d :: rest =>
    unfold readMembers
    exact Reading.all_followedBy (all_reading hK hP d.val true (depth + 2))
      (all_readMembers hK hP s rest depth)
termination_by (sizeOf s.node, 0, todo.length)
decreasing_by
  · exact .left _ _ d.property.sizeOf_lt
  · exact .right _ (.right _ (Nat.lt_succ_self _))

end

end WalkContext

/-! ## Rules for walks -/

def tallyKind (tally : Dictionary Nat) (kind : String) : Dictionary Nat :=
  tally.insert kind ((tally.get? kind).getD 0 + 1)

section Rules

open Outlet

variable {σ : Type} {out : Sink σ}

/-- Walks fail with the refusal of their sink. -/
def walkOutlet : Outlet σ Stop (WalkState σ) where
  sink := (·.sink)
  refuse := .refused

/-- How the state of a walk changes with a reading. -/
structure Reading.Moves (r : Reading) (st st' : WalkState σ) : Prop where
  keys : st'.keys = st.keys.advance r.forest.size
  facts : st'.facts = st.facts + r.forest.count
  unhandled : st'.unhandled = r.unhandled.foldl tallyKind st.unhandled

/-- The end of a walk with a reading, if nothing is refused. -/
def Reading.Reaches (r : Reading) (parent : Frame) (st : WalkState σ) :
    EStateM.Result Stop (WalkState σ) Frame → Prop :=
  match r.stop with
  | none => Ends fun frame st' => frame = r.forest.grow st.keys parent ∧ r.Moves st st'
  | some limit => Stops fun stop st' => stop = .tooDeep limit ∧ r.Moves st st'

/-- From every state and for every parent, `m` delivers the facts of a reading. -/
def Performs (out : Sink σ) (m : Frame → WalkM σ Frame) (r : Reading) : Prop :=
  ∀ parent st,
    walkOutlet.Gives out (m parent) st (r.forest.facts st.keys parent) (r.Reaches parent st)

theorem Reading.Moves.trans {r t : Reading} {st st₁ st₂ : WalkState σ} (h : r.Moves st st₁)
    (h' : t.Moves st₁ st₂) (hr : r.stop = none) : (r.followedBy t).Moves st st₂ := by
  simp only [followedBy, hr]
  refine ⟨?_, ?_, ?_⟩
  · rw [h'.keys, h.keys, KeyCounter.advance_advance, Forest.size_append]
  · rw [h'.facts, h.facts, Forest.count_append, Nat.add_assoc]
  · rw [h'.unhandled, h.unhandled, List.foldl_append]

theorem performs_pure : Performs out pure {} :=
  fun _ _ => gives_nil rfl ⟨rfl, rfl, rfl, rfl⟩

theorem performs_tooDeep (limit : Nat) :
    Performs out (fun _ => throw (.tooDeep limit)) { stop := some limit } :=
  fun _ _ => gives_nil rfl ⟨rfl, rfl, rfl, rfl⟩

theorem performs_tell (notice : Notice) :
    Performs out (fun parent => do WalkContext.tell notice; pure parent) {} :=
  fun _ _ => gives_nil rfl ⟨rfl, rfl, rfl, rfl⟩

theorem performs_countUnhandled (kind : String) :
    Performs out (fun parent => do WalkContext.countUnhandled kind; pure parent)
      { unhandled := [kind] } :=
  fun _ _ => gives_nil rfl ⟨rfl, rfl, rfl, rfl⟩

theorem Performs.bind {m k : Frame → WalkM σ Frame} {r t : Reading} (hm : Performs out m r)
    (hk : Performs out k t) : Performs out (fun parent => m parent >>= k) (r.followedBy t) := by
  intro parent st
  have h := hm parent st
  rw [Reading.Reaches] at h
  cases hr : r.stop with
  | some limit =>
    rw [hr] at h
    have hf : r.followedBy t = r := by simp only [Reading.followedBy, hr]
    rw [hf, Reading.Reaches, hr]
    exact h.bind_error
  | none =>
    rw [hr] at h
    have hf : (r.followedBy t).forest = r.forest ++ t.forest := by
      simp only [Reading.followedBy, hr]
    have hs : (r.followedBy t).stop = t.stop := by simp only [Reading.followedBy, hr]
    rw [hf, Forest.facts_append]
    refine h.bind ?_
    rintro _ st₁ ⟨rfl, hmoves⟩
    rw [← hmoves.keys]
    refine (hk _ st₁).mono fun result hresult => ?_
    rw [Reading.Reaches, hs]
    rw [Reading.Reaches] at hresult
    cases ht : t.stop with
    | none =>
      rw [ht] at hresult
      cases result with
      | error e st₂ => exact hresult.elim
      | ok frame st₂ =>
        refine ⟨?_, hmoves.trans hresult.2 hr⟩
        rw [hresult.1, hf, Forest.grow_append, hmoves.keys]
    | some limit =>
      rw [ht] at hresult
      cases result with
      | ok frame st₂ => exact hresult.elim
      | error e st₂ => exact ⟨hresult.1, hmoves.trans hresult.2 hr⟩

theorem emit_gives (c : WalkContext) (kind : String) (parent : Frame) (span : Span)
    (properties : List (String × Value)) (orderable : Bool) (st : WalkState σ) :
    walkOutlet.Gives out (c.emit out kind parent span properties orderable) st
      [(c.content kind span properties orderable).toFact (st.keys.key (st.keys.last + 1)) parent]
      (Ends fun given st' =>
        given = (st.keys.key (st.keys.last + 1),
          (parent.addChild (st.keys.key (st.keys.last + 1))).2) ∧
        st'.keys = st.keys.advance 1 ∧ st'.facts = st.facts + 1 ∧
        st'.unhandled = st.unhandled) := by
  have hfact : c.fact (st.keys.key (st.keys.last + 1)) kind parent span properties orderable =
      (c.content kind span properties orderable).toFact (st.keys.key (st.keys.last + 1)) parent :=
    rfl
  simp only [Gives, Sink.deliver, walkOutlet, WalkContext.emit, KeyCounter.next_eq, hfact]
  rcases out.accept st.sink _ with ⟨s, _ | r⟩
  · exact ⟨⟨rfl, rfl, rfl, rfl⟩, rfl⟩
  · exact ⟨_, rfl, rfl⟩

theorem Performs.under {m : Frame → WalkM σ Frame} {r : Reading} (hm : Performs out m r)
    (c : WalkContext) (kind : String) (span : Span) (properties : List (String × Value))
    (orderable : Bool) :
    Performs out
      (fun parent => do
        let (key, parent) ← c.emit out kind parent span properties orderable
        let _ ← m { key }
        pure parent)
      (r.under (c.content kind span properties orderable)) := by
  intro parent st
  have hfacts : (r.under (c.content kind span properties orderable)).forest.facts st.keys parent =
      [(c.content kind span properties orderable).toFact (st.keys.key (st.keys.last + 1)) parent] ++
        r.forest.facts (st.keys.advance 1) { key := st.keys.key (st.keys.last + 1) } := by
    simp [Reading.under, Forest.facts]
  rw [hfacts]
  refine (emit_gives c kind parent span properties orderable st).bind ?_
  rintro _ st₁ ⟨rfl, hkeys, hcount, hunhandled⟩
  rw [← hkeys]
  -- What is below moves the state as it would alone, after one more key and one more fact.
  have hmoves : ∀ {st₂ : WalkState σ}, r.Moves st₁ st₂ →
      (r.under (c.content kind span properties orderable)).Moves st st₂ := by
    intro st₂ h
    refine ⟨?_, ?_, ?_⟩
    · rw [h.keys, hkeys, KeyCounter.advance_advance]
      simp only [Reading.under, Forest.size]
      congr 1
      omega
    · rw [h.facts, hcount]
      simp only [Reading.under, Forest.count]
      omega
    · rw [h.unhandled, hunhandled]
      rfl
  have h := hm { key := st.keys.key (st.keys.last + 1) } st₁
  rw [Reading.Reaches] at h ⊢
  have hs : (r.under (c.content kind span properties orderable)).stop = r.stop := rfl
  rw [hs]
  cases hr : r.stop with
  | none =>
    rw [hr] at h
    refine h.bind_nil ?_
    rintro _ st₂ ⟨-, h₂⟩
    exact gives_nil rfl ⟨rfl, hmoves h₂⟩
  | some limit =>
    rw [hr] at h
    refine (h.mono fun result hresult => ?_).bind_error
    cases result with
    | ok frame st₂ => exact hresult.elim
    | error e st₂ => exact ⟨hresult.1, hmoves hresult.2⟩

end Rules

/-! ## Walks -/

namespace WalkContext

variable {σ : Type} (c : WalkContext) (out : Sink σ)

mutual

/-- A walk delivers the facts of its reading. -/
theorem node_performs (s : Site) (grouped : Bool) (depth : Nat) :
    Performs out (fun parent => c.node out s parent grouped depth) (c.reading s grouped depth) := by
  unfold node reading
  cases c.maxDepth.filter (· < depth) with
  | some limit => exact performs_tooDeep limit
  | none =>
    dsimp only
    cases hmissing : s.head.missing || s.head.extra with
    | true =>
      have hlive : s.head.live = false := by
        rcases Bool.or_eq_true_iff.1 hmissing with h | h <;> simp [Head.live, h]
      simp only [hlive, if_true, Bool.false_eq_true, if_false]
      exact performs_pure
    | false =>
      cases herror : s.head.error with
      | true =>
        have hlive : s.head.live = false := by simp_all [Head.live]
        simp only [hlive, if_true, Bool.false_eq_true, if_false]
        exact performs_tell _
      | false =>
        have hlive : s.head.live = true := by simp_all [Head.live]
        simp only [hlive, if_true, Bool.false_eq_true, if_false]
        cases c.language.outcome c.source s with
        | elided => exact performs_pure
        | unhandled => exact performs_countUnhandled _
        | passing todo => exact branches_performs s todo depth
        | fact kind properties positional todo =>
          exact (branches_performs s todo depth).under c _ _ _ _
termination_by (sizeOf s.node, 2, 0)

theorem branches_performs (s : Site) (todo : List (Branch s)) (depth : Nat) :
    Performs out (fun parent => c.branches out s todo parent depth)
      (c.readBranches s todo depth) := by
  match todo with
  | [] =>
    unfold branches readBranches
    exact performs_pure
  | .node d :: rest =>
    unfold branches readBranches
    exact (node_performs d.val false (depth + 1)).bind (branches_performs s rest depth)
  | .group name found kept :: rest =>
    unfold branches readBranches
    dsimp only
    split
    · exact branches_performs s rest depth
    · have h := ((members_performs s (found.filter (·.head.live)) depth).under c name
        (groupSpan (found.filter (·.head.live))) [] true).bind (branches_performs s rest depth)
      simpa only [bind_assoc, pure_bind] using h
termination_by (sizeOf s.node, 1, todo.length)
decreasing_by
  · exact .left _ _ d.property.sizeOf_lt
  · exact .right _ (.right _ (Nat.lt_succ_self _))
  · exact .right _ (.left _ _ Nat.zero_lt_one)
  · exact .right _ (.right _ (Nat.lt_succ_self _))
  · exact .right _ (.right _ (Nat.lt_succ_self _))

theorem members_performs (s : Site) (todo : List (Inner s)) (depth : Nat) :
    Performs out (fun parent => c.members out s todo parent depth)
      (c.readMembers s todo depth) := by
  match todo with
  | [] =>
    unfold members readMembers
    exact performs_pure
  | d :: rest =>
    unfold members readMembers
    exact (node_performs d.val true (depth + 2)).bind (members_performs s rest depth)
termination_by (sizeOf s.node, 0, todo.length)
decreasing_by
  · exact .left _ _ d.property.sizeOf_lt
  · exact .right _ (.right _ (Nat.lt_succ_self _))

end

/-! ## The end of a walk -/

theorem sum_foldl_tallyKind (kinds : List String) (tally : Dictionary Nat) :
    (kinds.foldl tallyKind tally).sum = tally.sum + kinds.length := by
  induction kinds generalizing tally with
  | nil => rfl
  | cons kind rest ih =>
    rw [List.foldl_cons, ih, tallyKind, Dictionary.sum_insert_succ, List.length_cons]
    omega

theorem sum_unhandled {r : Reading} {keys : KeyCounter} {sink : σ} {st : WalkState σ}
    (h : r.Moves { keys, sink } st) : st.unhandled.sum = r.unhandled.length := by
  rw [h.unhandled, sum_foldl_tallyKind]
  exact Nat.zero_add _

variable {c out} {root : Node} {parentKey : String} {keys : KeyCounter} {sink s : σ} {r : Reading}

theorem walk_of_deliver (hread : c.reading { node := root } false 0 = r)
    (h : out.deliver (r.forest.facts keys { key := parentKey }) sink = (s, none)) :
    let done := c.walk out root parentKey keys sink
    done.sink = s ∧ done.stop = r.stop.map .tooDeep ∧ done.keys = keys.advance r.forest.size ∧
      done.facts = r.forest.count ∧ done.unhandled = r.unhandled.length := by
  have hg := c.node_performs out { node := root } false 0 { key := parentKey } { keys, sink }
  simp only [Outlet.Gives, walkOutlet, hread, h, Reading.Reaches] at hg
  obtain ⟨hr, hs⟩ := hg
  simp only [walk]
  cases hstop : r.stop with
  | none =>
    rw [hstop] at hr
    cases hn : c.node out { node := root } { key := parentKey } false 0 { keys, sink } with
    | error e st =>
      rw [hn] at hr
      exact hr.elim
    | ok frame st =>
      rw [hn] at hr hs
      obtain ⟨-, hm⟩ := hr
      exact ⟨hs, rfl, hm.keys, by simpa using hm.facts, sum_unhandled hm⟩
  | some limit =>
    rw [hstop] at hr
    cases hn : c.node out { node := root } { key := parentKey } false 0 { keys, sink } with
    | ok frame st =>
      rw [hn] at hr
      exact hr.elim
    | error e st =>
      rw [hn] at hr hs
      obtain ⟨rfl, hm⟩ := hr
      exact ⟨hs, rfl, hm.keys, by simpa using hm.facts, sum_unhandled hm⟩

theorem walk_of_refused {refusal : Refusal} (hread : c.reading { node := root } false 0 = r)
    (h : out.deliver (r.forest.facts keys { key := parentKey }) sink = (s, some refusal)) :
    (c.walk out root parentKey keys sink).sink = s ∧
      (c.walk out root parentKey keys sink).stop = some (.refused refusal) := by
  have hg := c.node_performs out { node := root } false 0 { key := parentKey } { keys, sink }
  simp only [Outlet.Gives, walkOutlet, hread, h] at hg
  obtain ⟨st, hn, hs⟩ := hg
  simp only [walk, hn]
  exact ⟨hs, trivial⟩

end WalkContext

end FactStream
