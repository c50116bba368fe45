import FactStream.Proofs.Outline

/-!
# Files that give no facts

A file that is skipped leaves no trace in the stream: the run on the scanned tree without its entry
gives the same facts, with the same keys, parents and older siblings. In the totals it counts as one
file skipped, or not at all if it was not asked for.

Main statement: `RunPlan.run_remove_skipped`.
-/

namespace FactStream

/-! ## Taking out a file -/

namespace Folder

def changeIn (name : String) (change : Folder → Folder) :
    List (String × Folder) → List (String × Folder)
  | [] => []
  | e :: rest => if e.1 = name then (e.1, change e.2) :: rest else e :: changeIn name change rest

def folderAt? : List String → Folder → Option Folder
  | [], here => some here
  | name :: rest, here => (here.folders.lookup name).bind (folderAt? rest)

def fileAt? : List String → Folder → Option SourceFile
  | [], _ => none
  | [name], here => here.files.get? name
  | name :: next :: rest, here => (here.folders.lookup name).bind (fileAt? (next :: rest))

/-- The tree without the file at the end of a way. The directories stay. -/
def remove : List String → Folder → Folder
  | [], here => here
  | [name], here => { here with files := here.files.filter fun k _ => k ≠ name }
  | name :: next :: rest, here =>
    { here with folders := changeIn name (remove (next :: rest)) here.folders }

theorem lookup_changeIn (name k : String) (change : Folder → Folder)
    (folders : List (String × Folder)) :
    (changeIn name change folders).lookup k =
      if k = name then (folders.lookup k).map change else folders.lookup k := by
  induction folders with
  | nil => simp [changeIn]
  | cons e rest ih =>
    obtain ⟨n, folder⟩ := e
    by_cases hn : n = name
    · subst hn
      by_cases hk : k = n
      · simp [changeIn, hk]
      · simp [changeIn, hk, List.lookup_cons, beq_eq_false_iff_ne.2 hk]
    · by_cases hk : k = n
      · subst hk
        simp [changeIn, hn]
      · simp [changeIn, hn, List.lookup_cons, beq_eq_false_iff_ne.2 hk, ih]

theorem isSome_folderAt?_remove (names : List String) (here : Folder) (way : List String) :
    ((here.remove names).folderAt? way).isSome = (here.folderAt? way).isSome := by
  induction names generalizing here way with
  | nil => rfl
  | cons name rest ih =>
    cases way with
    | nil => rfl
    | cons n way =>
      cases rest with
      | nil => rfl
      | cons next rest =>
        simp only [remove, folderAt?, lookup_changeIn]
        by_cases hn : n = name
        · subst hn
          cases here.folders.lookup n with
          | none => simp
          | some inner => simpa using ih inner way
        · rw [if_neg hn]

theorem fileAt?_remove (names : List String) (here : Folder) (way : List String) :
    (here.remove names).fileAt? way = if way = names then none else here.fileAt? way := by
  induction names generalizing here way with
  | nil => cases way <;> simp [remove, fileAt?]
  | cons name rest ih =>
    match way, rest with
    | [], _ => simp [fileAt?]
    | [n], [] => simpa [remove, fileAt?] using here.files.get?_filter_ne name n
    | [n], next :: rest => simp [remove, fileAt?]
    | n :: n' :: way, [] => simp [remove, fileAt?]
    | n :: n' :: way, next :: rest =>
      rw [remove, fileAt?, fileAt?, lookup_changeIn]
      by_cases hn : n = name
      · subst hn
        cases here.folders.lookup n with
        | none => simp
        | some inner => simpa using ih inner (n' :: way)
      · simp [hn]

end Folder

/-! ## Harvests -/

/-- How many files a verdict adds to those skipped. A file that is not asked for does not count. -/
def FileVerdict.skippedFiles : FileVerdict → Nat
  | skipped _ => 1
  | _ => 0

namespace Harvest

/-- A harvest with files more that were skipped. -/
def skip (h : Harvest) (n : Nat) : Harvest :=
  { h with stats := h.stats + { filesSkipped := n } }

theorem skip_followedBy (h k : Harvest) (n : Nat) :
    (h.skip n).followedBy k = (h.followedBy k).skip n := by
  simp only [followedBy, skip]
  congr 1
  ac_rfl

theorem followedBy_skip (h k : Harvest) (n : Nat) :
    h.followedBy (k.skip n) = (h.followedBy k).skip n := by
  simp only [followedBy, skip]
  congr 1
  ac_rfl

theorem skip_inside (h : Harvest) (n : Nat) (content : Content) :
    (h.skip n).inside content = (h.inside content).skip n := by
  cases hf : h.forest.hasFact with
  | false =>
    rw [inside_of_not_hasFact hf, inside_of_not_hasFact (h := h.skip n) hf]
    rfl
  | true =>
    rw [inside_of_hasFact hf, inside_of_hasFact (h := h.skip n) hf]
    simp only [skip]
    ac_rfl

theorem nil_followedBy (h : Harvest) : ({} : Harvest).followedBy h = h := by
  simp [followedBy, RunStats.add_eq]

end Harvest

namespace RunPlan

section Harvest

variable {plan : RunPlan}

theorem harvestFile_of_skipped {filename : String} {file : SourceFile}
    (h : (plan.judge filename file).isAccepted = false) :
    plan.harvestFile filename file =
      ({} : Harvest).skip (plan.judge filename file).skippedFiles := by
  unfold harvestFile
  cases hj : plan.judge filename file with
  | notSelected => rfl
  | skipped notice => rfl
  | accepted source root notice => simp [hj, FileVerdict.isAccepted] at h

theorem harvestFiles_filter_ne {path name : String} {file : SourceFile}
    (hskipped : (plan.judge (relativeName (joinPath path name)) file).isAccepted = false) :
    ∀ files : List (String × SourceFile), files.Pairwise (fun a b => a.1 < b.1) →
      files.lookup name = some file →
      plan.harvestFiles path files =
        (plan.harvestFiles path (files.filter fun e => e.1 ≠ name)).skip
          (plan.judge (relativeName (joinPath path name)) file).skippedFiles
  | [], _, hfile => by simp at hfile
  | (n, f) :: rest, hsorted, hfile => by
    obtain ⟨hn, hrest⟩ := List.pairwise_cons.1 hsorted
    by_cases hname : n = name
    · subst hname
      obtain rfl : f = file := by simpa using hfile
      -- The names ascend, so no other file has this one.
      have hothers : rest.filter (fun e => e.1 ≠ n) = rest := by
        rw [List.filter_eq_self]
        intro e he
        have hne : e.1 ≠ n := fun heq => String.lt_irrefl n (heq ▸ hn e he)
        simpa using hne
      rw [List.filter_cons_of_neg (by simp), hothers, harvestFiles, harvestFile_of_skipped hskipped,
        Harvest.skip_followedBy, Harvest.nil_followedBy]
    · rw [List.lookup_cons, beq_eq_false_iff_ne.2 (Ne.symm hname)] at hfile
      rw [List.filter_cons_of_pos (by simpa using hname), harvestFiles, harvestFiles,
        harvestFiles_filter_ne hskipped rest hrest hfile, Harvest.followedBy_skip]

theorem harvestFolders_changeIn {path name : String} {change : Folder → Folder} {n : Nat}
    {inner : Folder}
    (hchange : plan.harvest (joinPath path name) inner =
      (plan.harvest (joinPath path name) (change inner)).skip n) :
    ∀ folders : List (String × Folder), folders.lookup name = some inner →
      plan.harvestFolders path folders =
        (plan.harvestFolders path (Folder.changeIn name change folders)).skip n
  | [], hinner => by simp at hinner
  | (k, folder) :: rest, hinner => by
    by_cases hk : k = name
    · subst hk
      obtain rfl : folder = inner := by simpa using hinner
      rw [Folder.changeIn, if_pos rfl, harvestFolders, harvestFolders, hchange,
        Harvest.skip_followedBy]
    · rw [List.lookup_cons, beq_eq_false_iff_ne.2 (Ne.symm hk)] at hinner
      rw [Folder.changeIn, if_neg hk, harvestFolders, harvestFolders,
        harvestFolders_changeIn hchange rest hinner, Harvest.followedBy_skip]

theorem harvest_remove {file : SourceFile} :
    ∀ (names : List String) (path : String) (here : Folder), here.fileAt? names = some file →
      (plan.judge (relativeName (names.foldl joinPath path)) file).isAccepted = false →
      plan.harvest path here =
        (plan.harvest path (here.remove names)).skip
          (plan.judge (relativeName (names.foldl joinPath path)) file).skippedFiles
  | [], _, _, hfile, _ => by simp [Folder.fileAt?] at hfile
  | [name], path, ⟨folders, files⟩, hfile, hskipped => by
    have hfiles := harvestFiles_filter_ne hskipped files.entries files.ascending hfile
    rw [Folder.remove, harvest, harvest, hfiles, Harvest.followedBy_skip, Harvest.skip_inside]
    rfl
  | name :: next :: rest, path, ⟨folders, files⟩, hfile, hskipped => by
    obtain ⟨inner, hinner, hfile⟩ := Option.bind_eq_some_iff.1 hfile
    have hfolders := harvestFolders_changeIn
      (harvest_remove (next :: rest) (joinPath path name) inner hfile hskipped) folders hinner
    rw [Folder.remove, harvest, harvest, hfolders, Harvest.skip_followedBy, Harvest.skip_inside]
    rfl

end Harvest

/-! ## Runs -/

variable {σ : Type}

/-- A file that is skipped leaves no trace in a run. Without its entry in the scanned tree, where
all other files and all directories stay, the run gives the same facts to its sink and ends in the
same way. Only the number of files skipped is smaller by one, unless the file was not asked for. -/
theorem run_remove_skipped (plan : RunPlan) (out : Sink σ) (disk : Disk) (path trunkKey : String)
    (start : σ) {keys : KeyCounter} {root : Folder} {names : List String} {file : SourceFile}
    (hkeys : KeyCounter.parse? trunkKey = some keys) (hscan : plan.scan disk path = .ok root)
    (hfile : root.fileAt? names = some file)
    (hskipped : (plan.judge (relativeName (names.foldl joinPath "")) file).isAccepted = false) :
    (∀ way, (root.remove names).fileAt? way = if way = names then none else root.fileAt? way) ∧
    (∀ way, ((root.remove names).folderAt? way).isSome = (root.folderAt? way).isSome) ∧
    let all := plan.run out disk path trunkKey start
    let rest := plan.runFolder out.logged trunkKey keys (root.remove names) (start, [])
    plan.emitted out disk path trunkKey start = rest.sink.2 ∧ all.sink = rest.sink.1 ∧
      all.result = rest.result.map fun stats =>
        { stats with filesSkipped := stats.filesSkipped +
            (plan.judge (relativeName (names.foldl joinPath "")) file).skippedFiles } := by
  refine ⟨root.fileAt?_remove names, root.isSome_folderAt?_remove names, ?_⟩
  intro all rest
  have hharvest := harvest_remove names "" root hfile hskipped
  have hstream :
      plan.stream trunkKey keys root = plan.stream trunkKey keys (root.remove names) := by
    rw [stream, stream, hharvest]
    rfl
  obtain ⟨hsink, hresult⟩ := plan.runFolder_ends out trunkKey keys root start
  rw [← run_of_scan hkeys hscan, hstream] at hsink hresult
  obtain ⟨hsink', hresult'⟩ :=
    plan.runFolder_ends out.logged trunkKey keys (root.remove names) (start, [])
  rw [out.deliver_logged] at hsink' hresult'
  refine ⟨?_, ?_, ?_⟩
  · rw [emitted_eq hkeys hscan, hstream, show rest.sink = _ from hsink', List.nil_append]
  · rw [show all.sink = _ from hsink, show rest.sink = _ from hsink']
  · rw [show all.result = _ from hresult, show rest.result = _ from hresult', hharvest]
    cases (out.deliver (plan.stream trunkKey keys (root.remove names)) start).2 with
    | some r => rfl
    | none =>
      simp only [Option.elim_none, Except.map, Harvest.skip, RunStats.add_eq, Nat.add_zero]

/-- The faulty file is skipped and counted, and its directory gives no fact either way. -/
theorem run_remove_skipped_draft :
    let root := smallRoot.remove ["draft", "c.ts"]
    let rest := smallPlan.runFolder Sink.collect.logged "1_0" ⟨1, 0⟩ root (#[], [])
    smallPlan.scan smallDisk "." = .ok smallRoot ∧ root.fileAt? ["draft", "c.ts"] = none ∧
      (root.folderAt? ["draft"]).isSome ∧
      smallPlan.emitted .collect smallDisk "." "1_0" #[] = rest.sink.2 ∧
      (smallPlan.run .collect smallDisk "." "1_0" #[]).result = rest.result.map fun stats =>
        { stats with filesSkipped := stats.filesSkipped + 1 } := by
  intro root rest
  have hkeys : KeyCounter.parse? "1_0" = some ⟨1, 0⟩ := by decide
  have hname : relativeName (["draft", "c.ts"].foldl joinPath "") = "./draft/c.ts" := by decide
  have hfile : smallRoot.fileAt? ["draft", "c.ts"] = some faultyFile := rfl
  obtain ⟨notice, hjudge⟩ : ∃ notice, smallPlan.judge "./draft/c.ts" faultyFile = .skipped notice :=
    ⟨_, rfl⟩
  obtain ⟨hfiles, hfolders, hfacts, -, hresult⟩ :=
    smallPlan.run_remove_skipped .collect smallDisk "." "1_0" #[] hkeys scan_small hfile
      (by rw [hname, hjudge]; rfl)
  rw [hname, hjudge] at hresult
  exact ⟨scan_small, hfiles _, hfolders _, hfacts, hresult⟩

end RunPlan

end FactStream
