import FactStream.Language.CSharp
import FactStream.Proofs.Harvest
import FactStream.Proofs.Lineage

/-!
# The stream of a run

`RunPlan.emitted` are the facts that a run gives to its sink and that the sink takes in, for every
sink, also one that fails on the way. They are the first facts of the stream of the scanned project
(`RunPlan.emitted_prefix`), and all of them if the run succeeds (`RunPlan.emitted_of_ok`).

Main statements: the facts of a run come in document order (`RunPlan.document_order_of_run`), and
each fact of a run or a walk names its older siblings (`olderSiblings_eq`).
-/

namespace FactStream

namespace RunPlan

open Outlet

variable {σ : Type} {plan : RunPlan} {out : Sink σ} {disk : Disk} {path trunkKey : String}
  {start : σ} {keys : KeyCounter} {root : Folder}

/-! ## Runs in steps -/

/-- The scanned tree of the project in the directory at a path. -/
def scan (plan : RunPlan) (disk : Disk) (path : String) : Except Failure Folder :=
  match disk.locate path with
  | .error cause => .error (.unreadable (disk.shown path) cause)
  | .ok (.file _) => .error (.unreadable (disk.shown path) .noDirectory)
  | .ok (.folder here above) =>
    let filter : ScanFilter := { extensions := plan.extensions, settings := plan.settings.scan }
    filter.scanFound disk path here above

/-- The state in which the visit of a scanned project begins. -/
def begun (keys : KeyCounter) (root : Folder) (start : σ) : RunState σ where
  keys
  sink := start
  notices := #[.scanned root.countFiles]

/-- A run reads the trunk key, scans the project and visits what is scanned. -/
theorem run_eq (plan : RunPlan) (out : Sink σ) (disk : Disk) (path trunkKey : String) (start : σ) :
    plan.run out disk path trunkKey start =
      match KeyCounter.parse? trunkKey with
      | none => { result := .error (.badTrunk trunkKey), sink := start, notices := [] }
      | some keys =>
        match plan.scan disk path with
        | .error failure => { result := .error failure, sink := start, notices := [] }
        | .ok root => plan.runFolder out trunkKey keys root start := by
  unfold run scan KeyCounter.start
  cases KeyCounter.parse? trunkKey with
  | none => rfl
  | some keys =>
    cases disk.locate path with
    | error cause => rfl
    | ok place =>
      cases place with
      | file _ => rfl
      | folder here above => rfl

theorem run_of_scan (hkeys : KeyCounter.parse? trunkKey = some keys)
    (hscan : plan.scan disk path = .ok root) :
    plan.run out disk path trunkKey start = plan.runFolder out trunkKey keys root start := by
  rw [run_eq, hkeys, hscan]

/-- A run that does not get to a scanned project leaves the sink alone. -/
theorem run_cases (plan : RunPlan) (disk : Disk) (path trunkKey : String) :
    (∃ keys root, KeyCounter.parse? trunkKey = some keys ∧ plan.scan disk path = .ok root) ∨
      ∃ failure, ∀ {τ : Type} (out : Sink τ) (start : τ),
        plan.run out disk path trunkKey start =
          { result := .error failure, sink := start, notices := [] } := by
  cases hkeys : KeyCounter.parse? trunkKey with
  | none => exact .inr ⟨_, fun out start => by rw [run_eq, hkeys]⟩
  | some keys =>
    cases hscan : plan.scan disk path with
    | error failure => exact .inr ⟨_, fun out start => by rw [run_eq, hkeys, hscan]⟩
    | ok root => exact .inl ⟨keys, root, rfl, rfl⟩

theorem runFolder_of_ok {u : Unit} {st : RunState σ}
    (h : plan.visitProject out trunkKey root (begun keys root start) = .ok u st) :
    (plan.runFolder out trunkKey keys root start).result = .ok st.stats ∧
      (plan.runFolder out trunkKey keys root start).sink = st.sink := by
  unfold runFolder
  rw [← begun]
  dsimp only
  rw [h]
  exact ⟨rfl, rfl⟩

theorem runFolder_of_error {r : Refusal} {st : RunState σ}
    (h : plan.visitProject out trunkKey root (begun keys root start) = .error r st) :
    (plan.runFolder out trunkKey keys root start).result = .error (.refused r) ∧
      (plan.runFolder out trunkKey keys root start).sink = st.sink := by
  unfold runFolder
  rw [← begun]
  dsimp only
  rw [h]
  exact ⟨rfl, rfl⟩

/-- The visit of a scanned project hands its stream to the sink, and fails only if the sink
refuses a fact. -/
theorem runFolder_ends (plan : RunPlan) (out : Sink σ) (trunkKey : String) (keys : KeyCounter)
    (root : Folder) (start : σ) :
    let done := plan.runFolder out trunkKey keys root start
    let sent := out.deliver (plan.stream trunkKey keys root) start
    done.sink = sent.1 ∧
      done.result =
        sent.2.elim (.ok ((plan.harvest "" root).stats + { facts := 1 }))
          fun r => .error (.refused r) := by
  intro done sent
  have hgives := plan.visitProject_gives out trunkKey root (begun keys root start)
  cases hr : plan.visitProject out trunkKey root (begun keys root start) with
  | ok u st =>
    obtain ⟨⟨-, hstats⟩, hsent⟩ := hgives.of_ok hr
    obtain ⟨hresult, hsink⟩ := runFolder_of_ok hr
    replace hsent : sent = (st.sink, none) := hsent
    rw [hsent]
    refine ⟨hsink, hresult.trans ?_⟩
    rw [hstats]
    simp only [begun, RunStats.add_eq, Nat.zero_add, Option.elim_none]
  | error r st =>
    obtain ⟨_, rfl, hsent⟩ := hgives.of_error hr
    obtain ⟨hresult, hsink⟩ := runFolder_of_error hr
    replace hsent : sent = (st.sink, some r) := hsent
    rw [hsent]
    exact ⟨hsink, hresult⟩

theorem run_ok_of_accepting (hkeys : KeyCounter.parse? trunkKey = some keys)
    (hscan : plan.scan disk path = .ok root) (h : ∀ s f, (out.accept s f).2 = none) :
    ∃ stats, (plan.run out disk path trunkKey start).result = .ok stats := by
  rw [run_of_scan hkeys hscan, (plan.runFolder_ends out trunkKey keys root start).2,
    out.deliver_of_accepting h]
  exact ⟨_, rfl⟩

/-! ## The facts of a run -/

/-- The facts of a run that its sink takes in. They are put down in a list beside the sink, which
changes nothing else about the run (`run_logged`). -/
def emitted (plan : RunPlan) (out : Sink σ) (disk : Disk) (path trunkKey : String) (start : σ) :
    List Fact :=
  (plan.run out.logged disk path trunkKey (start, [])).sink.2

/-- Keeping a log changes neither the end of a run nor what happens to its sink. -/
theorem run_logged (plan : RunPlan) (out : Sink σ) (disk : Disk) (path trunkKey : String)
    (start : σ) (log : List Fact) :
    (plan.run out.logged disk path trunkKey (start, log)).result =
        (plan.run out disk path trunkKey start).result ∧
      (plan.run out.logged disk path trunkKey (start, log)).sink.1 =
        (plan.run out disk path trunkKey start).sink := by
  rcases plan.run_cases disk path trunkKey with ⟨keys, root, hkeys, hscan⟩ | ⟨failure, hrun⟩
  · obtain ⟨hsink, hresult⟩ := plan.runFolder_ends out trunkKey keys root start
    obtain ⟨hsink', hresult'⟩ := plan.runFolder_ends out.logged trunkKey keys root (start, log)
    rw [run_of_scan hkeys hscan, run_of_scan hkeys hscan, hsink, hsink', hresult, hresult',
      out.deliver_logged]
    exact ⟨rfl, rfl⟩
  · rw [hrun, hrun]
    exact ⟨rfl, rfl⟩

theorem emitted_eq (hkeys : KeyCounter.parse? trunkKey = some keys)
    (hscan : plan.scan disk path = .ok root) :
    plan.emitted out disk path trunkKey start =
      out.taken (plan.stream trunkKey keys root) start := by
  rw [emitted, run_of_scan hkeys hscan, (plan.runFolder_ends ..).1, out.deliver_logged]
  rfl

/-- The facts of a run are the first ones of the stream of the scanned project. -/
theorem emitted_prefix (plan : RunPlan) (out : Sink σ) (disk : Disk) (path trunkKey : String)
    (start : σ) :
    plan.emitted out disk path trunkKey start = [] ∨
      ∃ keys root, KeyCounter.parse? trunkKey = some keys ∧ plan.scan disk path = .ok root ∧
        plan.emitted out disk path trunkKey start <+: plan.stream trunkKey keys root := by
  rcases plan.run_cases disk path trunkKey with ⟨keys, root, hkeys, hscan⟩ | ⟨failure, hrun⟩
  · refine .inr ⟨keys, root, hkeys, hscan, ?_⟩
    rw [emitted_eq hkeys hscan]
    exact out.taken_prefix _ _
  · exact .inl (by rw [emitted, hrun])

theorem emitted_of_ok {stats : RunStats}
    (h : (plan.run out disk path trunkKey start).result = .ok stats) :
    ∃ keys root st, KeyCounter.parse? trunkKey = some keys ∧ plan.scan disk path = .ok root ∧
      plan.visitProject out trunkKey root (begun keys root start) = .ok () st ∧
      plan.emitted out disk path trunkKey start = plan.stream trunkKey keys root := by
  rcases plan.run_cases disk path trunkKey with ⟨keys, root, hkeys, hscan⟩ | ⟨failure, hrun⟩
  · rw [run_of_scan hkeys hscan] at h
    cases hr : plan.visitProject out trunkKey root (begun keys root start) with
    | ok u st =>
      have hsent := ((plan.visitProject_gives out trunkKey root _).of_ok hr).2
      refine ⟨keys, root, st, hkeys, hscan, hr, ?_⟩
      rw [emitted_eq hkeys hscan]
      exact out.taken_of_deliver hsent
    | error r st =>
      rw [(runFolder_of_error hr).1] at h
      simp at h
  · rw [hrun] at h
    simp at h

/-! ## Order and siblings -/

theorem map_key_stream (plan : RunPlan) (trunkKey : String) (keys : KeyCounter) (root : Folder) :
    (plan.stream trunkKey keys root).map (·.key) =
      trunkKey :: ((plan.harvest "" root).forest.numbers keys.last).map keys.key := by
  rw [stream, List.map_cons, Forest.map_key_facts]
  rfl

theorem nodup_stream (hkeys : KeyCounter.parse? trunkKey = some keys) :
    ((plan.stream trunkKey keys root).map (·.key)).Nodup := by
  rw [map_key_stream, List.nodup_cons]
  refine ⟨?_, ?_⟩
  · intro hmem
    obtain ⟨m, hm, hk⟩ := List.mem_map.1 hmem
    exact KeyCounter.key_ne_trunkKey hkeys (Forest.mem_numbers _ hm).1 hk
  · refine List.Nodup.map (fun m n h => (keys.key_inj).1 h) ?_
    exact (Forest.pairwise_numbers _ _).imp fun h => Nat.ne_of_lt h

theorem key_ne_empty_of_mem_stream (hkeys : KeyCounter.parse? trunkKey = some keys) {f : Fact}
    (hf : f ∈ plan.stream trunkKey keys root) : f.key ≠ "" := by
  have hmem : f.key ∈ (plan.stream trunkKey keys root).map (·.key) := List.mem_map_of_mem hf
  rw [map_key_stream, List.mem_cons, List.mem_map] at hmem
  rcases hmem with hk | ⟨m, -, hk⟩
  · rw [hk]
    exact KeyCounter.trunkKey_ne_empty hkeys
  · rw [← hk]
    exact keys.key_ne_empty m

/-- The first facts of a stream are none at all, or the project fact and the first facts of the
forest found. -/
theorem cons_of_prefix_stream {facts : List Fact}
    (h : facts <+: plan.stream trunkKey keys root) :
    facts = [] ∨ ∃ fs gs, facts = plan.projectFact trunkKey :: fs ∧
      fs ++ gs = (plan.harvest "" root).forest.facts keys { key := trunkKey } := by
  cases facts with
  | nil => exact .inl rfl
  | cons f fs =>
    obtain ⟨hf, gs, hgs⟩ := List.cons_prefix_cons.1 h
    exact .inr ⟨fs, gs, by rw [hf], hgs⟩

/-- A run gives no facts, or the project fact and the first facts of the forest found. -/
theorem emitted_cases (plan : RunPlan) (out : Sink σ) (disk : Disk) (path trunkKey : String)
    (start : σ) :
    plan.emitted out disk path trunkKey start = [] ∨
      ∃ keys root fs gs, KeyCounter.parse? trunkKey = some keys ∧
        plan.emitted out disk path trunkKey start <+: plan.stream trunkKey keys root ∧
        plan.emitted out disk path trunkKey start = plan.projectFact trunkKey :: fs ∧
        fs ++ gs = (plan.harvest "" root).forest.facts keys { key := trunkKey } := by
  rcases plan.emitted_prefix out disk path trunkKey start with hnil | ⟨keys, root, hkeys, -, hpre⟩
  · exact .inl hnil
  · rcases cons_of_prefix_stream hpre with hnil | ⟨fs, gs, hfacts, hgs⟩
    · exact .inl hnil
    · exact .inr ⟨keys, root, fs, gs, hkeys, hpre, hfacts, hgs⟩

theorem head_emitted (plan : RunPlan) (out : Sink σ) (disk : Disk) (path trunkKey : String)
    (start : σ) {f : Fact} (h : (plan.emitted out disk path trunkKey start).head? = some f) :
    f = plan.projectFact trunkKey := by
  rcases plan.emitted_cases out disk path trunkKey start with
    hnil | ⟨_, _, fs, _, -, -, hfacts, -⟩
  · rw [hnil] at h
    simp at h
  · rw [hfacts] at h
    exact (Option.some.inj h).symm

theorem inOrder_emitted (plan : RunPlan) (out : Sink σ) (disk : Disk) (path trunkKey : String)
    (start : σ) : InOrder (plan.emitted out disk path trunkKey start) := by
  rcases plan.emitted_cases out disk path trunkKey start with
    hnil | ⟨keys, root, fs, gs, hkeys, hpre, hfacts, hgs⟩
  · rw [hnil]
    exact inOrder_nil
  · have hnodup := (nodup_stream hkeys).sublist (hpre.sublist.map (·.key))
    have hnonempty := fun f hf => key_ne_empty_of_mem_stream hkeys (f := f) (hpre.subset hf)
    rw [hfacts] at hnodup hnonempty ⊢
    obtain ⟨_, hfollow⟩ :=
      (plan.harvest "" root).forest.facts_follow keys { key := trunkKey } [] []
    rw [← hgs] at hfollow
    obtain ⟨_, hfollow, -⟩ := hfollow.split
    exact inOrder_of_follow hfollow hnodup fun g hg hk => hnonempty g hg hk.symm

theorem siblings_emitted (plan : RunPlan) (out : Sink σ) (disk : Disk) (path trunkKey : String)
    (start : σ) : Siblings (fun _ => []) (plan.emitted out disk path trunkKey start) := by
  rcases plan.emitted_cases out disk path trunkKey start with
    hnil | ⟨keys, root, fs, gs, hkeys, -, hfacts, hgs⟩
  · rw [hnil]
    trivial
  · -- Only the project itself has no parent, so it is nobody's sibling.
    have hknown : ∀ key, key ≠ "" → [] ++ childrenOf [plan.projectFact trunkKey] key = [] := by
      intro key hkey
      rw [projectFact, framingFact_eq, childrenOf_toFact, if_neg hkey.symm, List.append_nil]
    have hall : Siblings (fun key => [] ++ childrenOf [plan.projectFact trunkKey] key)
        ((plan.harvest "" root).forest.facts keys { key := trunkKey }) := by
      refine Forest.siblings_facts _ ?_ (hknown _ (KeyCounter.trunkKey_ne_empty hkeys)) ?_
      · intro n hn hk
        exact KeyCounter.key_ne_trunkKey hkeys hn hk.symm
      · intro n _
        exact hknown _ (keys.key_ne_empty n)
    rw [← hgs, siblings_append] at hall
    rw [hfacts]
    exact ⟨rfl, hall.1⟩

/-- The facts of a run are the tree that their parents describe, in document order: the project
fact comes first, each further fact is a child of the one before it or of an ancestor of that one,
a parent comes before its children, and what is below a fact stands in one block right after it. -/
theorem document_order_of_run (plan : RunPlan) (out : Sink σ) (disk : Disk)
    (path trunkKey : String) (start : σ) :
    let facts := plan.emitted out disk path trunkKey start
    (∀ f, facts.head? = some f → f = plan.projectFact trunkKey ∧ f.parentKey = "") ∧
      ((∃ stats, (plan.run out disk path trunkKey start).result = .ok stats) → facts ≠ []) ∧
      (∀ before f g after, facts = before ++ f :: g :: after → ChildAlong (before ++ [f]) f g) ∧
      (∀ before f after, facts = before ++ f :: after →
        (before ≠ [] → ∃ p ∈ before, f.parentKey = p.key) ∧
          ∀ p, ParentAmong facts p f → p ∈ before) ∧
      ∀ before f after, facts = before ++ f :: after →
        ∃ below rest, after = below ++ rest ∧ (∀ g ∈ below, Ancestor facts f g) ∧
          ∀ g ∈ before ++ rest, ¬ Ancestor facts f g := by
  intro facts
  have horder : InOrder facts := plan.inOrder_emitted out disk path trunkKey start
  refine ⟨?_, ?_, horder.next, ?_, fun before f after => horder.descendants_in_block⟩
  · intro f hf
    have hproject := plan.head_emitted out disk path trunkKey start hf
    exact ⟨hproject, by rw [hproject]; rfl⟩
  · rintro ⟨stats, hstats⟩
    obtain ⟨keys, root, st, -, -, -, hfacts⟩ := emitted_of_ok hstats
    rw [show facts = _ from hfacts, stream]
    exact List.cons_ne_nil _ _
  · intro before f after hs
    exact ⟨horder.exists_parent hs, fun p => horder.parent_mem hs⟩

end RunPlan

/-! ## Walks on their own -/

namespace WalkContext

variable {σ : Type}

/-- The facts of a walk that its sink takes in. -/
def emitted (c : WalkContext) (out : Sink σ) (root : Node) (parentKey : String) (keys : KeyCounter)
    (start : σ) : List Fact :=
  (c.walk out.logged root parentKey keys (start, [])).sink.2

theorem emitted_eq (c : WalkContext) (out : Sink σ) (root : Node) (parentKey : String)
    (keys : KeyCounter) (start : σ) :
    c.emitted out root parentKey keys start =
      out.taken ((c.reading { node := root } false 0).forest.facts keys { key := parentKey })
        start := by
  generalize hread : c.reading { node := root } false 0 = r
  have hlog := out.deliver_logged (r.forest.facts keys { key := parentKey }) start []
  rw [emitted]
  rcases hd : out.deliver (r.forest.facts keys { key := parentKey }) start with ⟨s, _ | refusal⟩
  · rw [hd] at hlog
    rw [(walk_of_deliver hread hlog).1, List.nil_append]
  · rw [hd] at hlog
    rw [(walk_of_refused hread hlog).1, List.nil_append]

end WalkContext

/-- Every fact of a run lists the keys of the earlier facts with its parent, in their order. So does
every fact of a walk, if the parent of its tree has a key that the counter will not give out. -/
theorem olderSiblings_eq {σ : Type} (plan : RunPlan) (out : Sink σ) (disk : Disk)
    (path trunkKey : String) (start : σ) :
    (∀ before f after, plan.emitted out disk path trunkKey start = before ++ f :: after →
      f.olderSiblings = childrenOf before f.parentKey) ∧
    ∀ (c : WalkContext) (root : Node) (parentKey : String) (keys : KeyCounter),
      (∀ n, keys.last < n → parentKey ≠ keys.key n) →
      ∀ before f after, c.emitted out root parentKey keys start = before ++ f :: after →
        f.olderSiblings = childrenOf before f.parentKey := by
  refine ⟨?_, ?_⟩
  · intro before f after hs
    have hall := plan.siblings_emitted out disk path trunkKey start
    rw [hs] at hall
    rw [hall.older, List.nil_append]
  · intro c root parentKey keys hparent before f after hs
    have hall : Siblings (fun _ => [])
        ((c.reading { node := root } false 0).forest.facts keys { key := parentKey }) :=
      Forest.siblings_facts _ hparent rfl fun _ _ => rfl
    obtain ⟨rest, hrest⟩ := out.taken_prefix
      ((c.reading { node := root } false 0).forest.facts keys { key := parentKey }) start
    rw [← hrest, ← c.emitted_eq, hs, siblings_append] at hall
    rw [hall.1.older, List.nil_append]

/-- The arguments `(a,b)`. -/
def twoArguments : Node :=
  ⟨{ kind := "argument_list", span := { endOffset := 5 } }, [
    ⟨{ kind := "identifier", span := { startOffset := 1, endOffset := 2 } }, []⟩,
    ⟨{ kind := "identifier", span := { startOffset := 3, endOffset := 4 } }, []⟩]⟩

def argumentWalk : WalkContext where
  language := .cSharp
  source := "(a,b)"
  filename := "a.cs"

theorem reading_twoArguments : ∃ all first second,
    (argumentWalk.reading { node := twoArguments } false 0).forest =
      .fact all (.fact first .nil (.fact second .nil .nil)) .nil := by
  obtain ⟨a, b, kind, given, kind₁, given₁, kind₂, given₂, hall, hfirst, hsecond⟩ :
      ∃ (a b : Inner { node := twoArguments }) (kind : Option String)
        (given : List (String × Value)) (kind₁ : Option String) (given₁ : List (String × Value))
        (kind₂ : Option String) (given₂ : List (String × Value)),
        argumentWalk.language.outcome argumentWalk.source { node := twoArguments } =
          .fact kind given true [.node a, .node b] ∧
        (a.val.head.live = true ∧ argumentWalk.language.outcome argumentWalk.source a.val =
          .fact kind₁ given₁ true []) ∧
        b.val.head.live = true ∧ argumentWalk.language.outcome argumentWalk.source b.val =
          .fact kind₂ given₂ true [] :=
    ⟨_, _, _, _, _, _, _, _, rfl, ⟨rfl, rfl⟩, rfl, rfl⟩
  rw [WalkContext.reading_of_fact rfl rfl hall, WalkContext.readBranches,
    WalkContext.reading_of_fact rfl hfirst.1 hfirst.2, WalkContext.readBranches,
    WalkContext.readBranches, WalkContext.reading_of_fact rfl hsecond.1 hsecond.2,
    WalkContext.readBranches, WalkContext.readBranches]
  exact ⟨_, _, _, rfl⟩

/-- The second argument lists the first one. -/
theorem olderSiblings_eq_arguments :
    let out : Sink Unit := ⟨fun s _ => (s, none)⟩
    (∀ n, 0 < n → "1" ≠ KeyCounter.key ⟨1, 0⟩ n) ∧
      ∃ before f after, argumentWalk.emitted out twoArguments "1" ⟨1, 0⟩ () = before ++ f :: after ∧
        f.key = "1_3" ∧ f.olderSiblings = ["1_2"] := by
  intro out
  have htrunk : KeyCounter.parse? "1" = some ⟨1, 0⟩ := by decide
  have hparent : ∀ n, 0 < n → "1" ≠ KeyCounter.key ⟨1, 0⟩ n :=
    fun n hn => (KeyCounter.key_ne_trunkKey htrunk hn).symm
  obtain ⟨all, first, second, hforest⟩ := reading_twoArguments
  have hemitted := argumentWalk.emitted_eq out twoArguments "1" ⟨1, 0⟩ ()
  rw [hforest, out.taken_of_deliver
    (Prod.ext rfl (out.deliver_of_accepting (fun _ _ => rfl) _ _))] at hemitted
  let f := all.toFact "1_1" { key := "1" }
  let g := first.toFact "1_2" { key := "1_1" }
  let h := second.toFact "1_3" { key := "1_1", children := ["1_2"] }
  have hsplit : argumentWalk.emitted out twoArguments "1" ⟨1, 0⟩ () = [f, g] ++ h :: [] :=
    hemitted
  refine ⟨hparent, [f, g], h, [], hsplit, rfl, ?_⟩
  exact (olderSiblings_eq { language := .cSharp, settings := {} } out { entries := [] } "" "1" ()).2
    argumentWalk twoArguments "1" ⟨1, 0⟩ hparent [f, g] h [] hsplit

end FactStream
