import FactStream.Proofs.Outline

/-!
# Keys that no fact gets

A directory takes its key when it is entered, and if nothing in it gives a fact, it is left again
without one. `RunPlan.pruned` follows a run and lists the numbers of these directories. They are the
gaps of the forest that the run finds (`RunPlan.pruned_eq`), since the walk through a file leaves no
key out.

Main statement: the keys of a run ascend, differ from the key of the project, and on success leave
out just the numbers of the pruned directories (`RunPlan.keys_of_run`).
-/

namespace FactStream

namespace RunPlan

variable {σ : Type} {plan : RunPlan} {out : Sink σ}

/-! ## Pruned directories -/

mutual

/-- The numbers of the directories that the visit of a directory enters, and leaves with their facts
still held back. -/
def pruned (plan : RunPlan) (out : Sink σ) (path : String) (trail : List OpenFolder) :
    Folder → RunState σ → List Nat
  | ⟨folders, files⟩, st =>
    let number := st.keys.last + 1
    let trail := entered (st.keys.key number) (relativeName path) :: trail
    let st := { st with keys := st.keys.advance 1 }
    let visit : RunM σ (List OpenFolder) :=
      plan.visitFolders out path trail folders >>= plan.visitFiles out path files.entries
    let own :=
      match visit.run st with
      | .ok (here :: _) _ => if here.emitted then [] else [number]
      | _ => []
    own ++ plan.prunedAmong out path trail folders st

/-- The numbers of the pruned directories in the visit of directories. -/
def prunedAmong (plan : RunPlan) (out : Sink σ) (path : String) (trail : List OpenFolder) :
    List (String × Folder) → RunState σ → List Nat
  | [], _ => []
  | (name, folder) :: rest, st =>
    plan.pruned out (joinPath path name) trail folder st ++
      match plan.visitFolder out (joinPath path name) trail folder st with
      | .ok trail st => plan.prunedAmong out path trail rest st
      | .error _ _ => []

end

theorem takeKey_eq (st : RunState σ) :
    takeKey st = .ok (st.keys.key (st.keys.last + 1)) { st with keys := st.keys.advance 1 } := rfl

/-! ## Gaps -/

/-- A file leaves no key out, also if its walk stops as too deep. -/
theorem gaps_harvestFile (plan : RunPlan) (filename : String) (file : SourceFile) (n : Nat) :
    (plan.harvestFile filename file).forest.gaps n = [] := by
  unfold harvestFile
  cases plan.judge filename file with
  | notSelected => rfl
  | skipped notice => rfl
  | accepted source root notice =>
    have hall := WalkContext.all_reading (c := plan.context filename source) (P := fun _ => True)
      (Language.kinds_true _) (fun _ _ _ _ _ => trivial) { node := root } false 0
    show Forest.gaps _ _ ++ [] = []
    rw [Forest.gaps_of_all hall, List.append_nil]

theorem gaps_harvestFiles (plan : RunPlan) (path : String) :
    ∀ (files : List (String × SourceFile)) (n : Nat),
      (plan.harvestFiles path files).forest.gaps n = []
  | [], _ => rfl
  | (name, file) :: rest, n => by
    rw [harvestFiles, Harvest.followedBy_forest, Forest.gaps_append, gaps_harvestFile,
      gaps_harvestFiles plan path rest, List.append_nil]

theorem exists_of_bind_ok {α β : Type} {m : RunM σ α} {k : α → RunM σ β} {st st' : RunState σ}
    {b : β} (h : (m >>= k) st = .ok b st') :
    ∃ a st₁, m st = .ok a st₁ ∧ k a st₁ = .ok b st' := by
  cases hm : m st with
  | ok a st₁ => exact ⟨a, st₁, rfl, by simpa only [Bind.bind, EStateM.bind, hm] using h⟩
  | error e st₁ => simp [Bind.bind, EStateM.bind, hm] at h

theorem Yields.of_ok {m : List OpenFolder → RunM σ (List OpenFolder)} {h : Harvest}
    (hm : plan.Yields out m h) {trail trail' : List OpenFolder} {st st' : RunState σ}
    (hrooted : Rooted trail) (hok : m trail st = .ok trail' st') :
    trail' = settle st.keys h.forest trail ∧ st'.keys = st.keys.advance h.forest.size := by
  obtain ⟨⟨htrail, hkeys, -⟩, -⟩ := (hm trail st hrooted).of_ok hok
  exact ⟨htrail, hkeys⟩

mutual

theorem pruned_eq (plan : RunPlan) (out : Sink σ) (path : String) :
    ∀ (folder : Folder) (trail trail' : List OpenFolder) (st st' : RunState σ), Rooted trail →
      plan.visitFolder out path trail folder st = .ok trail' st' →
      plan.pruned out path trail folder st = (plan.harvest path folder).forest.gaps st.keys.last
  | ⟨folders, files⟩, trail, trail', st, st', hrooted, hok => by
    rw [visitFolder] at hok
    obtain ⟨_, _, hkey, hok⟩ := exists_of_bind_ok hok
    rw [takeKey_eq] at hkey
    obtain ⟨rfl, rfl⟩ := EStateM.Result.ok.inj hkey
    rw [← bind_assoc] at hok
    obtain ⟨trail₁, st₁, hvisit, -⟩ := exists_of_bind_ok hok
    obtain ⟨_, _, hfolders, -⟩ := exists_of_bind_ok hvisit
    have hrooted₁ := hrooted.cons (entered (st.keys.key (st.keys.last + 1)) (relativeName path))
    have hamong := prunedAmong_eq plan out path folders _ _ _ _ hrooted₁ hfolders
    obtain ⟨htrail, -⟩ := ((visitFolders_yields plan out path folders).bind
      (visitFiles_yields path files.entries)).of_ok hrooted₁ hvisit
    obtain ⟨here, above, hsettle, hgiven⟩ := exists_settle _ _ _ _ hrooted
    rw [htrail, hsettle] at hvisit
    have hrun : EStateM.run (plan.visitFolders out path
      (entered (st.keys.key (st.keys.last + 1)) (relativeName path) :: trail) folders >>=
        plan.visitFiles out path files.entries) _ = _ := hvisit
    rw [pruned, harvest, Harvest.gaps_inside, hrun, hamong, ← hgiven, Harvest.followedBy_forest,
      Forest.gaps_append, gaps_harvestFiles, List.append_nil]
    rfl

theorem prunedAmong_eq (plan : RunPlan) (out : Sink σ) (path : String) :
    ∀ (folders : List (String × Folder)) (trail trail' : List OpenFolder) (st st' : RunState σ),
      Rooted trail → plan.visitFolders out path trail folders st = .ok trail' st' →
      plan.prunedAmong out path trail folders st =
        (plan.harvestFolders path folders).forest.gaps st.keys.last
  | [], _, _, _, _, _, _ => rfl
  | (name, folder) :: rest, trail, trail', st, st', hrooted, hok => by
    rw [visitFolders] at hok
    obtain ⟨trail₁, st₁, hfolder, hrest⟩ := exists_of_bind_ok hok
    obtain ⟨htrail, hkeys⟩ :=
      (visitFolder_yields plan out (joinPath path name) folder).of_ok hrooted hfolder
    have hrooted₁ : Rooted trail₁ := htrail ▸ rooted_settle hrooted
    rw [prunedAmong, hfolder, harvestFolders, Harvest.followedBy_forest, Forest.gaps_append,
      pruned_eq plan out (joinPath path name) folder trail trail₁ st st₁ hrooted hfolder]
    dsimp only
    rw [prunedAmong_eq plan out path rest trail₁ trail' st₁ st' hrooted₁ hrest, hkeys]
    rfl

end

/-! ## Whole runs -/

/-- The project on the trail of a visit. -/
def projectEntry (trunkKey : String) : OpenFolder where
  frame := { key := trunkKey }
  filename := "."
  emitted := true

/-- The numbers of the pruned directories in the visit of a project. -/
def prunedInProject (plan : RunPlan) (out : Sink σ) (trunkKey : String) (root : Folder)
    (st : RunState σ) : List Nat :=
  match emit out (plan.projectFact trunkKey) st with
  | .ok _ st => plan.pruned out "" [projectEntry trunkKey] root st
  | .error _ _ => []

theorem prunedInProject_eq {trunkKey : String} {root : Folder} {st st' : RunState σ}
    (hok : plan.visitProject out trunkKey root st = .ok () st') :
    plan.prunedInProject out trunkKey root st =
      (plan.harvest "" root).forest.gaps st.keys.last := by
  obtain ⟨_, st₁, hemit, hok⟩ := exists_of_bind_ok hok
  obtain ⟨_, _, hvisit, -⟩ := exists_of_bind_ok hok
  obtain ⟨⟨hkeys₁, -⟩, -⟩ := (emit_gives (plan.projectFact trunkKey) st).of_ok hemit
  rw [prunedInProject, show emit out (plan.projectFact trunkKey) st = _ from hemit]
  dsimp only
  rw [plan.pruned_eq out "" root [projectEntry trunkKey] _ st₁ _ ⟨_, rfl, rfl⟩ hvisit, hkeys₁]

/-- If the visit of a project comes to its end, each number goes to one fact or to one pruned
directory. -/
theorem numbers_pruned_perm {trunkKey : String} {root : Folder} {st st' : RunState σ}
    (hok : plan.visitProject out trunkKey root st = .ok () st') :
    st'.keys.last = st.keys.last + (plan.harvest "" root).forest.size ∧
      ((plan.harvest "" root).forest.numbers st.keys.last ++
        plan.prunedInProject out trunkKey root st).Perm
          (List.range' (st.keys.last + 1) (st'.keys.last - st.keys.last)) := by
  obtain ⟨⟨hkeys, -⟩, -⟩ := (plan.visitProject_gives out trunkKey root st).of_ok hok
  have hlast : st'.keys.last = st.keys.last + (plan.harvest "" root).forest.size := by
    rw [hkeys, KeyCounter.advance_last]
  refine ⟨hlast, ?_⟩
  rw [prunedInProject_eq hok, hlast, Nat.add_sub_cancel_left]
  exact Forest.numbers_gaps_perm _ _

theorem exists_numbers {trunkKey : String} {keys : KeyCounter} {root : Folder} {facts : List Fact}
    (h : facts <+: plan.stream trunkKey keys root) :
    ∃ numbers, numbers <+: (plan.harvest "" root).forest.numbers keys.last ∧
      facts.tail.map (·.key) = numbers.map keys.key := by
  rcases cons_of_prefix_stream h with rfl | ⟨fs, gs, rfl, hgs⟩
  · exact ⟨[], List.nil_prefix, rfl⟩
  · have hmap := (plan.harvest "" root).forest.map_key_facts keys { key := trunkKey }
    rw [← hgs, List.map_append] at hmap
    obtain ⟨numbers, rest, hsplit, hnumbers, -⟩ := List.append_eq_map_iff.1 hmap
    exact ⟨numbers, ⟨rest, hsplit.symm⟩, hnumbers.symm⟩

/-- The keys of a run: the project fact has the trunk key, and the numbers of the further facts
ascend from it. No key is given twice. If the run succeeds, each number up to the last one given out
is that of one fact or of one pruned directory. -/
theorem keys_of_run (plan : RunPlan) (out : Sink σ) (disk : Disk) (path trunkKey : String)
    (start : σ) {keys : KeyCounter} (hkeys : KeyCounter.parse? trunkKey = some keys) :
    let facts := plan.emitted out disk path trunkKey start
    ∃ numbers : List Nat,
      (∀ f, facts.head? = some f → f.key = trunkKey) ∧
      facts.tail.map (·.key) = numbers.map keys.key ∧
      numbers.Pairwise (· < ·) ∧ (∀ m ∈ numbers, keys.last < m ∧ keys.key m ≠ trunkKey) ∧
      (facts.map (·.key)).Nodup ∧
      ∀ stats, (plan.run out disk path trunkKey start).result = .ok stats →
        ∃ root st, plan.scan disk path = .ok root ∧
          plan.visitProject out trunkKey root (begun keys root start) = .ok () st ∧
          keys.last ≤ st.keys.last ∧
          (numbers ++ plan.prunedInProject out trunkKey root (begun keys root start)).Perm
            (List.range' (keys.last + 1) (st.keys.last - keys.last)) := by
  intro facts
  have hhead : ∀ f, facts.head? = some f → f.key = trunkKey := by
    intro f hf
    rw [plan.head_emitted out disk path trunkKey start hf]
    rfl
  have hnodup : (facts.map (·.key)).Nodup :=
    (plan.inOrder_emitted out disk path trunkKey start).nodup
  rcases plan.emitted_prefix out disk path trunkKey start with hnil | ⟨_, root, hkeys', -, hpre⟩
  · have hnil : facts = [] := hnil
    refine ⟨[], hhead, by rw [hnil]; rfl, .nil, by simp, hnodup, ?_⟩
    intro stats hstats
    obtain ⟨_, root, st, -, -, -, hfacts⟩ := emitted_of_ok hstats
    exact absurd (hnil.symm.trans hfacts) (List.cons_ne_nil _ _).symm
  · obtain rfl := Option.some.inj (hkeys.symm.trans hkeys')
    obtain ⟨numbers, hfirst, hnumbers⟩ := exists_numbers hpre
    refine ⟨numbers, hhead, hnumbers, ?_, ?_, hnodup, ?_⟩
    · exact (Forest.pairwise_numbers _ _).sublist hfirst.sublist
    · intro m hm
      have hlast := (Forest.mem_numbers _ (hfirst.subset hm)).1
      exact ⟨hlast, KeyCounter.key_ne_trunkKey hkeys hlast⟩
    · intro stats hstats
      obtain ⟨_, root, st, hkeys', hscan, hok, hfacts⟩ := emitted_of_ok hstats
      obtain rfl := Option.some.inj (hkeys.symm.trans hkeys')
      obtain ⟨hlast, hperm⟩ := numbers_pruned_perm hok
      -- On success the facts are the whole stream, so their numbers are all of the forest's.
      have hall : numbers = (plan.harvest "" root).forest.numbers keys.last := by
        have hmap := plan.map_key_stream trunkKey keys root
        rw [← hfacts] at hmap
        apply List.map_injective_iff.2 (fun m n h => keys.key_inj.1 h)
        rw [← hnumbers, List.map_tail, hmap, List.tail_cons]
      rw [hall]
      exact ⟨root, st, hscan, hok, by rw [hlast]; exact Nat.le_add_right _ _, hperm⟩

/-- A trunk key with leading zeros. The second directory of the small project is pruned, so the
second number goes to no fact. -/
theorem keys_of_run_padded :
    let out : Sink Unit := ⟨fun s _ => (s, none)⟩
    let facts := smallPlan.emitted out smallDisk "." "007_05" ()
    let start := begun ⟨7, 5⟩ smallRoot ()
    KeyCounter.parse? "007_05" = some ⟨7, 5⟩ ∧
      (∃ stats, (smallPlan.run out smallDisk "." "007_05" ()).result = .ok stats) ∧
      facts.map (·.key) = ["007_05", "7_6", "7_8", "7_9", "7_10"] ∧
      smallPlan.prunedInProject out "007_05" smallRoot start = [7] ∧
      ∃ numbers : List Nat,
        facts.tail.map (·.key) = numbers.map (KeyCounter.key ⟨7, 5⟩) ∧
        numbers.Pairwise (· < ·) ∧
        (∀ m ∈ numbers, 5 < m ∧ KeyCounter.key ⟨7, 5⟩ m ≠ "007_05") ∧
        (facts.map (·.key)).Nodup ∧
        ∃ st, smallPlan.visitProject out "007_05" smallRoot start = .ok () st ∧
          5 ≤ st.keys.last ∧ (numbers ++ [7]).Perm (List.range' 6 (st.keys.last - 5)) := by
  intro out facts start
  have htrunk : KeyCounter.parse? "007_05" = some ⟨7, 5⟩ := by decide
  obtain ⟨stats, hok⟩ :
      ∃ stats, (smallPlan.run out smallDisk "." "007_05" ()).result = .ok stats :=
    run_ok_of_accepting htrunk scan_small fun _ _ => rfl
  have hall : facts.map (·.key) = ["007_05", "7_6", "7_8", "7_9", "7_10"] := by
    obtain ⟨keys, root, -, hkeys, hscan, -, hstream⟩ := emitted_of_ok hok
    obtain rfl := Option.some.inj (htrunk.symm.trans hkeys)
    obtain rfl := Except.ok.inj (scan_small.symm.trans hscan)
    rw [show facts = _ from hstream, map_key_stream, forest_small]
    decide
  obtain ⟨numbers, -, hkeys, hascend, hfresh, hnodup, hsuccess⟩ :=
    smallPlan.keys_of_run out smallDisk "." "007_05" () htrunk
  obtain ⟨root, st, hscan, hvisit, hlast, hperm⟩ := hsuccess stats hok
  obtain rfl := Except.ok.inj (scan_small.symm.trans hscan)
  have hpruned : smallPlan.prunedInProject out "007_05" smallRoot start = [7] := by
    rw [prunedInProject_eq hvisit, forest_small]
    rfl
  rw [hpruned] at hperm
  exact ⟨htrunk, ⟨stats, hok⟩, hall, hpruned, numbers, hkeys, hascend, hfresh, hnodup, st, hvisit,
    hlast, hperm⟩

end RunPlan

end FactStream
