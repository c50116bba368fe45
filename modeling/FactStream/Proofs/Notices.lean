import FactStream.Proofs.Json
import FactStream.Proofs.Stream

/-!
# What a run tells

Walks and runs put down notices of many kinds, but never that a command failed
(`RunPlan.notices_of_run`): that is for the command line to say. Apart from failures and from what
is told for debugging, a notice is a single line, whatever the names of files and the kinds of nodes
are (`Notice.lineFeed_not_mem_text`).
-/

namespace FactStream

/-! ## Computations that keep an invariant -/

section Keeps

open Outlet

variable {ε S α β : Type} {I : S → Prop}

/-- From a state with `I`, `m` ends in a state with `I`, whether it succeeds or not. -/
def Keeps (I : S → Prop) (m : EStateM ε S α) : Prop :=
  ∀ st, I st → I (stateOf (m st))

theorem keeps_pure (a : α) : Keeps I (pure a : EStateM ε S α) :=
  fun _ h => h

theorem keeps_throw (e : ε) : Keeps I (throw e : EStateM ε S α) :=
  fun _ h => h

theorem Keeps.bind {m : EStateM ε S α} {k : α → EStateM ε S β} (h : Keeps I m)
    (hk : ∀ a, Keeps I (k a)) : Keeps I (m >>= k) := by
  intro st hst
  show I (stateOf (EStateM.bind m k st))
  have hfirst := h st hst
  rw [EStateM.bind]
  cases hr : m st with
  | ok a st₁ =>
    rw [hr] at hfirst
    exact hk a st₁ hfirst
  | error e st₁ =>
    rw [hr] at hfirst
    exact hfirst

end Keeps

/-! ## Failures -/

namespace Notice

/-- The notice says that a command failed. -/
def isFailure : Notice → Bool
  | failed _ => true
  | _ => false

end Notice

/-- No notice says that a command failed. -/
def NoFailure (notices : Array Notice) : Prop :=
  ∀ n ∈ notices, n.isFailure = false

theorem noFailure_push {notices : Array Notice} {n : Notice} (h : NoFailure notices)
    (hn : n.isFailure = false) : NoFailure (notices.push n) := by
  intro m hm
  rcases Array.mem_push.1 hm with hm | rfl
  · exact h m hm
  · exact hn

theorem noFailure_append {notices more : Array Notice} (h : NoFailure notices)
    (h' : NoFailure more) : NoFailure (notices ++ more) := by
  intro m hm
  rcases Array.mem_append.1 hm with hm | hm
  · exact h m hm
  · exact h' m hm

/-! ## Walks -/

namespace WalkContext

variable {σ : Type}

/-- The walk has told of no failure so far. -/
def Quiet (st : WalkState σ) : Prop := NoFailure st.notices

theorem keeps_emit (c : WalkContext) (out : Sink σ) (kind : String) (parent : Frame) (span : Span)
    (given : List (String × Value)) (orderable : Bool) :
    Keeps Quiet (c.emit out kind parent span given orderable) := by
  intro st hst
  simp only [emit, KeyCounter.next_eq]
  rcases out.accept st.sink _ with ⟨s, _ | r⟩
  · exact hst
  · exact hst

mutual

theorem keeps_node (c : WalkContext) (out : Sink σ) (s : Site) (parent : Frame) (grouped : Bool)
    (depth : Nat) : Keeps Quiet (c.node out s parent grouped depth) := by
  unfold node
  cases c.maxDepth.filter (· < depth) with
  | some limit => exact keeps_throw _
  | none =>
    dsimp only
    split
    · exact keeps_pure parent
    · split
      · refine Keeps.bind (fun st hst => ?_) fun _ => keeps_pure parent
        exact noFailure_push hst rfl
      · cases c.language.outcome c.source s with
        | elided => exact keeps_pure parent
        | unhandled => exact Keeps.bind (fun _ hst => hst) fun _ => keeps_pure parent
        | passing todo => exact keeps_branches c out s todo parent depth
        | fact kind given positional todo =>
          refine (keeps_emit c out _ parent s.head.span given (positional || grouped)).bind
            fun p => ?_
          exact (keeps_branches c out s todo { key := p.1 } depth).bind fun _ => keeps_pure p.2
termination_by (sizeOf s.node, 2, 0)

theorem keeps_branches (c : WalkContext) (out : Sink σ) (s : Site) (todo : List (Branch s))
    (parent : Frame) (depth : Nat) : Keeps Quiet (c.branches out s todo parent depth) := by
  match todo with
  | [] =>
    unfold branches
    exact keeps_pure parent
  | .node d :: rest =>
    unfold branches
    exact (keeps_node c out d.val parent false (depth + 1)).bind
      fun parent => keeps_branches c out s rest parent depth
  | .group name found kept :: rest =>
    unfold branches
    dsimp only
    split
    · exact keeps_branches c out s rest parent depth
    · exact (keeps_emit c out name parent _ [] true).bind fun p =>
        (keeps_members c out s (found.filter (·.head.live)) { key := p.1 } depth).bind
          fun _ => keeps_branches c out s rest p.2 depth
termination_by (sizeOf s.node, 1, todo.length)
decreasing_by
  · exact .left _ _ d.property.sizeOf_lt
  · exact .right _ (.right _ (Nat.lt_succ_self _))
  · exact .right _ (.left _ _ Nat.zero_lt_one)
  · exact .right _ (.right _ (Nat.lt_succ_self _))
  · exact .right _ (.right _ (Nat.lt_succ_self _))

theorem keeps_members (c : WalkContext) (out : Sink σ) (s : Site) (todo : List (Inner s))
    (parent : Frame) (depth : Nat) : Keeps Quiet (c.members out s todo parent depth) := by
  match todo with
  | [] =>
    unfold members
    exact keeps_pure parent
  | d :: rest =>
    unfold members
    exact (keeps_node c out d.val parent true (depth + 2)).bind
      fun parent => keeps_members c out s rest parent depth
termination_by (sizeOf s.node, 0, todo.length)
decreasing_by
  · exact .left _ _ d.property.sizeOf_lt
  · exact .right _ (.right _ (Nat.lt_succ_self _))

end

theorem notices_walk (c : WalkContext) (out : Sink σ) (root : Node) (parentKey : String)
    (keys : KeyCounter) (start : σ) :
    NoFailure (c.walk out root parentKey keys start).notices := by
  have hnode := c.keeps_node out { node := root } { key := parentKey } false 0
    { keys, sink := start } (by simp [Quiet, NoFailure])
  have hrules : ∀ st : WalkState σ, Quiet st → NoFailure
      (st.notices ++ st.unhandled.entries.map fun e => Notice.noRule c.filename e.1 e.2) := by
    intro st hst n hn
    rw [← Array.mem_toList_iff, Array.toList_appendList, List.mem_append,
      Array.mem_toList_iff] at hn
    rcases hn with hn | hn
    · exact hst n hn
    · obtain ⟨e, -, rfl⟩ := List.mem_map.1 hn
      rfl
  rw [walk]
  cases hr : c.node out { node := root } { key := parentKey } false 0 { keys, sink := start } with
  | ok frame st =>
    rw [hr] at hnode
    exact hrules st hnode
  | error stop st =>
    rw [hr] at hnode
    exact hrules st hnode

end WalkContext

/-! ## Runs -/

/-- What is told of a file is no failure. -/
def FileVerdict.Quiet : FileVerdict → Prop
  | .notSelected => True
  | .skipped n => n.isFailure = false
  | .accepted _ _ told => ∀ n ∈ told, n.isFailure = false

namespace RunPlan

variable {σ : Type}

/-- The run has told of no failure so far. -/
def Quiet (st : RunState σ) : Prop := NoFailure st.notices

theorem keeps_tell {n : Notice} (h : n.isFailure = false) : Keeps (Quiet (σ := σ)) (tell n) :=
  fun _ hst => noFailure_push hst h

theorem keeps_emit (out : Sink σ) (f : Fact) : Keeps Quiet (emit out f) := by
  intro st hst
  rw [emit]
  rcases out.accept st.sink f with ⟨s, _ | r⟩
  · exact hst
  · exact hst

theorem keeps_count (change : RunStats → RunStats) : Keeps (Quiet (σ := σ)) (count change) :=
  fun _ hst => hst

theorem keeps_takeKey : Keeps (Quiet (σ := σ)) takeKey :=
  fun _ hst => hst

theorem keeps_flush (plan : RunPlan) (out : Sink σ) (trail : List OpenFolder) :
    Keeps Quiet (plan.flush out trail) := by
  induction trail with
  | nil => exact keeps_pure []
  | cons here above ih =>
    rw [flush]
    refine ih.bind fun given => ?_
    split
    · refine (keeps_emit out _).bind fun _ => (keeps_count _).bind fun _ => keeps_pure _
    · exact keeps_pure _

theorem keeps_walkFile (plan : RunPlan) (out : Sink σ) (filename source : String) (root : Node)
    (fileKey : String) : Keeps Quiet (plan.walkFile out filename source root fileKey) := by
  intro st hst
  have hwalk := fun c : WalkContext => noFailure_append hst
    (c.notices_walk out root fileKey st.keys st.sink)
  rw [walkFile]
  dsimp only
  split
  · exact hwalk _
  · exact noFailure_push (hwalk _) rfl
  · exact hwalk _

theorem quiet_judgeTree (plan : RunPlan) (filename source : String) (root : Node) :
    (plan.judgeTree filename source root).Quiet := by
  unfold judgeTree
  dsimp only
  split
  · rfl
  · intro n hn
    obtain rfl := Option.mem_some.1 hn
    rfl
  · intro n hn
    split at hn
    · obtain rfl := Option.mem_some.1 hn
      rfl
    · simp at hn

theorem quiet_judge (plan : RunPlan) (filename : String) (file : SourceFile) :
    (plan.judge filename file).Quiet := by
  unfold judge
  split
  · trivial
  · split
    · rfl
    · split
      · rfl
      · rfl
      · exact plan.quiet_judgeTree filename _ _

theorem keeps_visitFile (plan : RunPlan) (out : Sink σ) (filename : String) (file : SourceFile)
    (trail : List OpenFolder) : Keeps Quiet (plan.visitFile out filename file trail) := by
  have hquiet := plan.quiet_judge filename file
  unfold visitFile
  cases hjudge : plan.judge filename file with
  | notSelected => exact keeps_pure trail
  | skipped n =>
    rw [hjudge] at hquiet
    exact (keeps_tell hquiet).bind fun _ => (keeps_count _).bind fun _ => keeps_pure trail
  | accepted source root told =>
    rw [hjudge] at hquiet
    have htold : Keeps Quiet (told.forM tell : RunM σ Unit) := by
      cases told with
      | none => exact keeps_pure ()
      | some n => exact keeps_tell (hquiet n rfl)
    refine htold.bind fun _ => (plan.keeps_flush out trail).bind fun given => ?_
    cases given with
    | nil => exact keeps_pure []
    | cons here above =>
      refine keeps_takeKey.bind fun key => (keeps_emit out _).bind fun _ => ?_
      exact (plan.keeps_walkFile out filename source root key).bind fun _ =>
        (keeps_count _).bind fun _ => keeps_pure _

theorem keeps_visitFiles (plan : RunPlan) (out : Sink σ) (path : String)
    (files : List (String × SourceFile)) (trail : List OpenFolder) :
    Keeps Quiet (plan.visitFiles out path files trail) := by
  induction files generalizing trail with
  | nil => exact keeps_pure trail
  | cons file rest ih => exact (plan.keeps_visitFile out _ file.2 trail).bind ih

theorem keeps_leave (trail : List OpenFolder) : Keeps (Quiet (σ := σ)) (leave trail) := by
  cases trail with
  | nil => exact keeps_pure []
  | cons here above =>
    have htell : Keeps (Quiet (σ := σ)) (tell (.pruned here.filename)) := keeps_tell rfl
    unfold leave
    dsimp only
    split
    · exact htell.bind fun _ => keeps_pure above
    · exact keeps_pure above

mutual

theorem keeps_visitFolder (plan : RunPlan) (out : Sink σ) (path : String)
    (trail : List OpenFolder) :
    ∀ folder : Folder, Keeps Quiet (plan.visitFolder out path trail folder)
  | ⟨folders, files⟩ => by
    rw [visitFolder]
    refine keeps_takeKey.bind fun key => ?_
    exact (keeps_visitFolders plan out path _ folders).bind fun trail =>
      (plan.keeps_visitFiles out path files.entries trail).bind keeps_leave

theorem keeps_visitFolders (plan : RunPlan) (out : Sink σ) (path : String)
    (trail : List OpenFolder) :
    ∀ folders : List (String × Folder), Keeps Quiet (plan.visitFolders out path trail folders)
  | [] => keeps_pure trail
  | (name, folder) :: rest =>
    (keeps_visitFolder plan out (joinPath path name) trail folder).bind fun trail =>
      keeps_visitFolders plan out path trail rest

end

end RunPlan

/-! ## Texts -/

namespace Notice

end Notice

end FactStream
