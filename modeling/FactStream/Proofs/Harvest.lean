import FactStream.Proofs.Reading
import FactStream.Proofs.Trail

/-!
# What a run finds in a project

A `Harvest` is what a run finds in a scanned project: the forest of its facts, in which a directory
that gives no fact is a gap, and the totals. `RunPlan.harvest` reads it off the scanned tree,
without counters, frames or sinks. A run then does nothing but number the forest and deliver its
facts (`RunPlan.visitFolder_yields`, `RunPlan.visitProject_gives`), whatever the sink does. The
facts held back in the trail come out as the trail says.
-/

namespace FactStream

/-! ## Totals -/

namespace RunStats

instance : Add RunStats where
  add a b :=
    { filesParsed := a.filesParsed + b.filesParsed
      filesSkipped := a.filesSkipped + b.filesSkipped
      filesIncomplete := a.filesIncomplete + b.filesIncomplete
      foldersEmitted := a.foldersEmitted + b.foldersEmitted
      facts := a.facts + b.facts
      unhandled := a.unhandled + b.unhandled }

theorem add_eq (a b : RunStats) :
    a + b =
      { filesParsed := a.filesParsed + b.filesParsed
        filesSkipped := a.filesSkipped + b.filesSkipped
        filesIncomplete := a.filesIncomplete + b.filesIncomplete
        foldersEmitted := a.foldersEmitted + b.foldersEmitted
        facts := a.facts + b.facts
        unhandled := a.unhandled + b.unhandled } := rfl

instance : @Std.Associative RunStats (· + ·) where
  assoc a b c := by simp only [add_eq, Nat.add_assoc]

instance : @Std.Commutative RunStats (· + ·) where
  comm a b := by simp only [add_eq, Nat.add_comm]

@[simp] theorem add_zero (a : RunStats) : a + {} = a := rfl

/-- The totals of directories that give their facts. -/
def folders (n : Nat) : RunStats :=
  { foldersEmitted := n, facts := n }

theorem folders_add (m n : Nat) : folders (m + n) = folders m + folders n := rfl

end RunStats

/-! ## Harvests -/

/-- What a run finds. -/
structure Harvest where
  forest : Forest := .nil
  stats : RunStats := {}

namespace Harvest

def followedBy (h k : Harvest) : Harvest where
  forest := h.forest ++ k.forest
  stats := h.stats + k.stats

@[simp] theorem followedBy_forest (h k : Harvest) :
    (h.followedBy k).forest = h.forest ++ k.forest := rfl

@[simp] theorem followedBy_stats (h k : Harvest) :
    (h.followedBy k).stats = h.stats + k.stats := rfl

/-- A harvest in a directory. If it has no fact, the key of the directory goes to no fact. -/
def inside (h : Harvest) (content : Content) : Harvest :=
  if h.forest.hasFact then
    { forest := .fact content h.forest .nil, stats := h.stats + .folders 1 }
  else { h with forest := .gap h.forest }

theorem inside_of_not_hasFact {h : Harvest} (hf : h.forest.hasFact = false) (content : Content) :
    h.inside content = { h with forest := .gap h.forest } := by
  simp [inside, hf]

theorem inside_of_hasFact {h : Harvest} (hf : h.forest.hasFact = true) (content : Content) :
    h.inside content =
      { forest := .fact content h.forest .nil, stats := h.stats + .folders 1 } := by
  simp [inside, hf]

theorem gaps_inside (h : Harvest) (content : Content) (n : Nat) :
    (h.inside content).forest.gaps n =
      (if h.forest.hasFact then [] else [n + 1]) ++ h.forest.gaps (n + 1) := by
  cases hf : h.forest.hasFact with
  | true => simp [inside_of_hasFact hf, Forest.gaps]
  | false => simp [inside_of_not_hasFact hf, Forest.gaps]

end Harvest

namespace RunPlan

def context (plan : RunPlan) (filename source : String) : WalkContext where
  language := plan.language
  source
  filename
  maxDepth := some plan.settings.parse.maxDepth

def harvestFile (plan : RunPlan) (filename : String) (file : SourceFile) : Harvest :=
  match plan.judge filename file with
  | .notSelected => {}
  | .skipped _ => { stats := { filesSkipped := 1 } }
  | .accepted source root _ =>
    let r := (plan.context filename source).reading { node := root } false 0
    { forest := .fact (plan.framing "file" filename true) r.forest .nil
      stats :=
        { filesParsed := 1
          filesIncomplete := if r.stop.isSome then 1 else 0
          facts := r.forest.count + 1
          unhandled := r.unhandled.length } }

def harvestFiles (plan : RunPlan) (path : String) : List (String × SourceFile) → Harvest
  | [] => {}
  | (name, file) :: rest =>
    (plan.harvestFile (relativeName (joinPath path name)) file).followedBy
      (plan.harvestFiles path rest)

mutual

/-- What a run finds in a directory. -/
def harvest (plan : RunPlan) (path : String) : Folder → Harvest
  | ⟨folders, files⟩ =>
    ((plan.harvestFolders path folders).followedBy (plan.harvestFiles path files.entries)).inside
      (plan.framing "dir" (relativeName path) false)

def harvestFolders (plan : RunPlan) (path : String) : List (String × Folder) → Harvest
  | [] => {}
  | (name, folder) :: rest =>
    (plan.harvest (joinPath path name) folder).followedBy (plan.harvestFolders path rest)

end

/-! ## Rules for runs -/

section Rules

open Outlet

variable {σ : Type} {out : Sink σ} {plan : RunPlan}

/-- Runs fail with the refusal of their sink. -/
def runOutlet : Outlet σ Refusal (RunState σ) where
  sink := (·.sink)
  refuse := id

/-- In every trail of a run, `m` delivers the facts that a harvest in the innermost directory brings
out. -/
def Yields (plan : RunPlan) (out : Sink σ) (m : List OpenFolder → RunM σ (List OpenFolder))
    (h : Harvest) : Prop :=
  ∀ trail st, Rooted trail →
    runOutlet.Gives out (m trail) st (plan.released st.keys h.forest trail)
      (Ends fun trail' st' =>
        trail' = settle st.keys h.forest trail ∧ st'.keys = st.keys.advance h.forest.size ∧
        st'.stats = st.stats + h.stats + .folders (plan.releasedFolders h.forest trail))

theorem yields_pure : plan.Yields out pure {} :=
  fun _ _ _ => gives_nil rfl ⟨rfl, rfl, rfl⟩

theorem Yields.bind {m k : List OpenFolder → RunM σ (List OpenFolder)} {h h' : Harvest}
    (hm : plan.Yields out m h) (hk : plan.Yields out k h') :
    plan.Yields out (fun trail => m trail >>= k) (h.followedBy h') := by
  intro trail st hrooted
  rw [Harvest.followedBy_forest, Harvest.followedBy_stats, plan.released_append hrooted]
  refine (hm trail st hrooted).bind ?_
  rintro _ st₁ ⟨rfl, hkeys, hstats⟩
  rw [← hkeys]
  refine (hk _ st₁ (rooted_settle hrooted)).mono fun result hresult => ?_
  cases result with
  | error e st₂ => exact hresult.elim
  | ok trail₂ st₂ =>
    obtain ⟨rfl, hkeys₂, hstats₂⟩ := hresult
    refine ⟨?_, ?_, ?_⟩
    · rw [hkeys, settle_append hrooted]
    · rw [hkeys₂, hkeys, KeyCounter.advance_advance, Forest.size_append]
    · have hfolders : plan.releasedFolders (h.forest ++ h'.forest) trail =
          plan.releasedFolders h.forest trail +
            plan.releasedFolders h'.forest (settle st.keys h.forest trail) :=
        plan.releasedFolders_append hrooted
      rw [hstats₂, hstats, hfolders, RunStats.folders_add]
      ac_rfl

theorem emit_gives (fact : Fact) (st : RunState σ) :
    runOutlet.Gives out (emit out fact) st [fact]
      (Ends fun _ st' => st'.keys = st.keys ∧ st'.stats = st.stats + { facts := 1 }) := by
  simp only [Gives, Sink.deliver, runOutlet, emit]
  rcases out.accept st.sink fact with ⟨s, _ | r⟩
  · exact ⟨⟨rfl, rfl⟩, rfl⟩
  · exact ⟨_, rfl, rfl⟩

theorem flush_gives (trail : List OpenFolder) (st : RunState σ) :
    runOutlet.Gives out (plan.flush out trail) st (plan.heldBack trail)
      (Ends fun trail' st' =>
        trail' = opened trail ∧ st'.keys = st.keys ∧
        st'.stats = st.stats + .folders (plan.heldBack trail).length) := by
  induction trail generalizing st with
  | nil => exact gives_nil rfl ⟨rfl, rfl, rfl⟩
  | cons here above ih =>
    have hpass : runOutlet.Gives out (plan.flush out above >>= fun above => pure (here :: above)) st
        (plan.heldBack above)
        (Ends fun trail' st' =>
          trail' = here :: opened above ∧ st'.keys = st.keys ∧
          st'.stats = st.stats + .folders (plan.heldBack above).length) := by
      refine (ih st).bind_nil ?_
      rintro _ st₁ ⟨rfl, hkeys, hstats⟩
      exact gives_nil rfl ⟨rfl, hkeys, hstats⟩
    rw [flush, heldBack, opened]
    cases here.emitted with
    | true => exact hpass
    | false =>
      cases hopened : opened above with
      | nil =>
        refine (ih st).bind_nil ?_
        rintro _ st₁ ⟨rfl, hkeys, hstats⟩
        rw [hopened]
        exact gives_nil rfl ⟨rfl, hkeys, hstats⟩
      | cons parent rest =>
        refine (ih st).bind ?_
        rintro _ st₁ ⟨rfl, hkeys, hstats⟩
        rw [hopened]
        refine (emit_gives _ st₁).bind_nil ?_
        rintro _ st₂ ⟨hkeys₂, hstats₂⟩
        refine gives_nil rfl ⟨rfl, hkeys₂.trans hkeys, ?_⟩
        show st₂.stats + { foldersEmitted := 1 } = _
        rw [hstats₂, hstats, List.length_append, RunStats.folders_add]
        simp only [RunStats.add_eq, RunStats.folders]
        rfl

theorem tellAll_gives (notice : Option Notice) (st : RunState σ) :
    runOutlet.Gives out (notice.forM tell) st []
      (Ends fun _ st' => st'.keys = st.keys ∧ st'.stats = st.stats) := by
  cases notice with
  | none => exact gives_nil rfl ⟨rfl, rfl⟩
  | some notice => exact gives_nil rfl ⟨rfl, rfl⟩

theorem walkFile_gives {filename source : String} {root : Node} {r : Reading}
    (hr : (plan.context filename source).reading { node := root } false 0 = r) (fileKey : String)
    (st : RunState σ) :
    runOutlet.Gives out (plan.walkFile out filename source root fileKey) st
      (r.forest.facts st.keys { key := fileKey })
      (Ends fun _ st' =>
        st'.keys = st.keys.advance r.forest.size ∧
        st'.stats = st.stats +
          { filesIncomplete := if r.stop.isSome then 1 else 0
            facts := r.forest.count
            unhandled := r.unhandled.length }) := by
  simp only [Gives, runOutlet]
  rcases hd : out.deliver (r.forest.facts st.keys { key := fileKey }) st.sink with
    ⟨s, _ | refusal⟩
  · obtain ⟨hsink, hstop, hkeys, hfacts, hunhandled⟩ := WalkContext.walk_of_deliver hr hd
    simp only [walkFile]
    rw [show (⟨plan.language, source, filename, some plan.settings.parse.maxDepth⟩ : WalkContext) =
      plan.context filename source from rfl, hstop]
    cases r.stop with
    | none =>
      refine ⟨⟨hkeys, ?_⟩, hsink⟩
      simp only [RunStats.add_eq, hfacts, hunhandled]
      rfl
    | some limit =>
      refine ⟨⟨hkeys, ?_⟩, hsink⟩
      simp only [RunStats.add_eq, hfacts, hunhandled]
      rfl
  · obtain ⟨hsink, hstop⟩ := WalkContext.walk_of_refused hr hd
    simp only [walkFile]
    rw [show (⟨plan.language, source, filename, some plan.settings.parse.maxDepth⟩ : WalkContext) =
      plan.context filename source from rfl, hstop]
    exact ⟨_, rfl, hsink⟩

theorem takeKey_gives (st : RunState σ) :
    runOutlet.Gives out takeKey st []
      (Ends fun key st' =>
        key = st.keys.key (st.keys.last + 1) ∧ st'.keys = st.keys.advance 1 ∧
        st'.stats = st.stats) :=
  gives_nil rfl ⟨rfl, rfl, rfl⟩

theorem visitFile_yields (filename : String) (file : SourceFile) :
    plan.Yields out (plan.visitFile out filename file) (plan.harvestFile filename file) := by
  intro trail st hrooted
  unfold visitFile harvestFile
  cases plan.judge filename file with
  | notSelected => exact yields_pure trail st hrooted
  | skipped notice => exact gives_nil rfl ⟨rfl, rfl, rfl⟩
  | accepted source root notice =>
    dsimp only
    generalize hr : (plan.context filename source).reading { node := root } false 0 = r
    obtain ⟨here, above, ho, -⟩ := exists_opened hrooted
    rw [plan.released_of_hasFact ho rfl, settle_of_hasFact ho rfl]
    refine (tellAll_gives notice st).nil_bind ?_
    rintro _ st₁ ⟨hkeys₁, hstats₁⟩
    refine (flush_gives trail st₁).bind ?_
    rintro _ st₂ ⟨rfl, hkeys₂, hstats₂⟩
    rw [ho]
    refine (takeKey_gives st₂).nil_bind ?_
    rintro _ st₃ ⟨rfl, hkeys₃, hstats₃⟩
    rw [hkeys₂, hkeys₁] at hkeys₃ ⊢
    have hfacts : (Forest.fact (plan.framing "file" filename true) r.forest .nil).facts st.keys
        here.frame =
        [plan.framingFact "file" (st.keys.key (st.keys.last + 1)) here.frame filename true] ++
          r.forest.facts (st.keys.advance 1) { key := st.keys.key (st.keys.last + 1) } := by
      simp [Forest.facts, framingFact_eq]
    rw [hfacts]
    refine (emit_gives _ st₃).bind ?_
    rintro _ st₄ ⟨hkeys₄, hstats₄⟩
    rw [← hkeys₃, ← hkeys₄]
    refine (walkFile_gives hr _ st₄).bind_nil ?_
    rintro _ st₅ ⟨hkeys₅, hstats₅⟩
    refine gives_nil rfl ⟨rfl, ?_, ?_⟩
    · show st₅.keys = _
      rw [hkeys₅, hkeys₄, hkeys₃, KeyCounter.advance_advance, Forest.size, Forest.size]
      congr 1
      omega
    · show { st₅.stats with filesParsed := st₅.stats.filesParsed + 1 } = _
      rw [hstats₅, hstats₄, hstats₃, hstats₂, hstats₁]
      simp only [RunStats.add_eq, RunStats.folders, releasedFolders, Forest.hasFact, if_true,
        RunStats.mk.injEq, Nat.add_zero, true_and, and_true]
      omega

theorem visitFiles_yields (path : String) :
    ∀ files : List (String × SourceFile),
      plan.Yields out (plan.visitFiles out path files) (plan.harvestFiles path files)
  | [] => yields_pure
  | (name, file) :: rest => by
    have h := (visitFile_yields (relativeName (joinPath path name)) file).bind
      (visitFiles_yields path rest)
    exact h

theorem leave_of_emitted {entry : OpenFolder} (h : entry.emitted = true) (rest : List OpenFolder)
    (st : RunState σ) : leave (entry :: rest) st = .ok rest st := by
  rw [leave, h]
  rfl

theorem Yields.inside {m : List OpenFolder → RunM σ (List OpenFolder)} {h : Harvest}
    (hm : plan.Yields out m h) (filename : String) :
    plan.Yields out
      (fun trail => do
        let key ← takeKey
        let trail ← m ({ frame := { key }, filename, emitted := false } :: trail)
        leave trail)
      (h.inside (plan.framing "dir" filename false)) := by
  intro trail st hrooted
  refine (takeKey_gives st).nil_bind ?_
  rintro _ st₁ ⟨rfl, hkeys₁, hstats₁⟩
  have hyields := hm (entered (st.keys.key (st.keys.last + 1)) filename :: trail) st₁
    (hrooted.cons _)
  rw [hkeys₁, hstats₁] at hyields
  cases hf : h.forest.hasFact with
  | false =>
    -- Nothing comes out, and the directory is left with its fact held back.
    have hgap : (Forest.gap h.forest).hasFact = false := hf
    rw [plan.released_of_not_hasFact hf, settle_of_not_hasFact hf] at hyields
    rw [Harvest.inside_of_not_hasFact hf, plan.released_of_not_hasFact hgap,
      settle_of_not_hasFact hgap]
    refine hyields.bind_nil ?_
    rintro _ st₂ ⟨rfl, hkeys₂, hstats₂⟩
    refine gives_nil rfl ⟨rfl, ?_, ?_⟩
    · show st₂.keys = _
      rw [hkeys₂, KeyCounter.advance_advance]
      rfl
    · show st₂.stats = _
      rw [hstats₂]
      simp [releasedFolders, hgap, hf]
  | true =>
    obtain ⟨entry, hgiven, hsettle⟩ := settle_entered plan hrooted hf
    rw [plan.released_entered hrooted hf, hsettle] at hyields
    rw [Harvest.inside_of_hasFact hf]
    refine hyields.bind_nil ?_
    rintro _ st₂ ⟨rfl, hkeys₂, hstats₂⟩
    refine gives_nil (by rw [leave_of_emitted hgiven]; rfl) ?_
    rw [leave_of_emitted hgiven]
    refine ⟨rfl, ?_, ?_⟩
    · rw [hkeys₂, KeyCounter.advance_advance, Forest.size, Forest.size]
      congr 1
      omega
    · rw [hstats₂, plan.releasedFolders_entered _ hrooted hf, RunStats.folders_add]
      dsimp only
      ac_rfl

mutual

/-- The visit of a directory delivers the facts found in it. -/
theorem visitFolder_yields (plan : RunPlan) (out : Sink σ) (path : String) :
    ∀ folder : Folder,
      plan.Yields out (fun trail => plan.visitFolder out path trail folder)
        (plan.harvest path folder)
  | ⟨folders, files⟩ => by
    have h := ((visitFolders_yields plan out path folders).bind
      (visitFiles_yields path files.entries)).inside (relativeName path)
    unfold visitFolder harvest
    simpa only [bind_assoc] using h

theorem visitFolders_yields (plan : RunPlan) (out : Sink σ) (path : String) :
    ∀ folders : List (String × Folder),
      plan.Yields out (fun trail => plan.visitFolders out path trail folders)
        (plan.harvestFolders path folders)
  | [] => yields_pure
  | (name, folder) :: rest => by
    have h := (visitFolder_yields plan out (joinPath path name) folder).bind
      (visitFolders_yields plan out path rest)
    unfold visitFolders harvestFolders
    exact h

end

/-! ## Whole projects -/

/-- The fact of the project. It alone has no parent. -/
def projectFact (plan : RunPlan) (trunkKey : String) : Fact :=
  plan.framingFact "project" trunkKey { key := "" } "." false

/-- The stream of a scanned project. -/
def stream (plan : RunPlan) (trunkKey : String) (keys : KeyCounter) (root : Folder) : List Fact :=
  plan.projectFact trunkKey :: (plan.harvest "" root).forest.facts keys { key := trunkKey }

theorem released_project (frame : Frame) (filename : String) (forest : Forest)
    (keys : KeyCounter) :
    plan.released keys forest [⟨frame, filename, true⟩] = forest.facts keys frame := by
  cases hf : forest.hasFact with
  | false => rw [plan.released_of_not_hasFact hf, Forest.facts_of_not_hasFact hf]
  | true =>
    have ho : opened [⟨frame, filename, true⟩] = [⟨frame, filename, true⟩] := rfl
    rw [plan.released_of_hasFact ho hf]
    rfl

theorem visitProject_gives (plan : RunPlan) (out : Sink σ) (trunkKey : String) (root : Folder)
    (st : RunState σ) :
    runOutlet.Gives out (plan.visitProject out trunkKey root) st
      (plan.stream trunkKey st.keys root)
      (Ends fun _ st' =>
        st'.keys = st.keys.advance (plan.harvest "" root).forest.size ∧
        st'.stats = st.stats + (plan.harvest "" root).stats + { facts := 1 }) := by
  have hrooted : Rooted [⟨{ key := trunkKey }, ".", true⟩] := ⟨_, rfl, rfl⟩
  refine Gives.bind (emit_gives _ st) ?_
  rintro _ st₁ ⟨hkeys₁, hstats₁⟩
  have hvisit := visitFolder_yields plan out "" root _ st₁ hrooted
  rw [released_project, hkeys₁] at hvisit
  refine hvisit.bind_nil ?_
  rintro _ st₂ ⟨-, hkeys₂, hstats₂⟩
  refine gives_nil rfl ⟨hkeys₂, ?_⟩
  have hnone : plan.releasedFolders (plan.harvest "" root).forest
      [⟨{ key := trunkKey }, ".", true⟩] = 0 := by
    cases hf : (plan.harvest "" root).forest.hasFact <;> simp [releasedFolders, hf, heldBack]
  rw [hnone] at hstats₂
  show st₂.stats = _
  rw [hstats₂, hstats₁]
  show st.stats + { facts := 1 } + (plan.harvest "" root).stats + {} = _
  rw [RunStats.add_zero]
  ac_rfl

end Rules

end RunPlan

end FactStream
