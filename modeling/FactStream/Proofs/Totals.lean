import FactStream.Proofs.Outline
import FactStream.Proofs.Reach

/-!
# The totals of a run

A run that succeeds counts the facts it gives, those of them that frame others, and the files it
scanned. What it counts is told apart by the facts themselves, by the files that are asked for, and
by the depth of their trees (`RunPlan.totals_of_run`).

`Harvest.Accounts` carries the argument through a project: it holds of a file, of one piece after
the other and of a directory around a piece.
-/

namespace FactStream

/-! ## Counting facts -/

namespace Forest

/-- The number of facts of some common kinds in a forest. -/
def tally (p : CommonKind → Bool) : Forest → Nat
  | nil => 0
  | fact content below after =>
    (if p content.commonKind then 1 else 0) + below.tally p + after.tally p
  | gap after => after.tally p

variable {p : CommonKind → Bool}

@[simp] theorem tally_append (f g : Forest) : (f ++ g).tally p = f.tally p + g.tally p := by
  induction f with
  | nil => simp [tally]
  | fact content below after _ ih =>
    rw [fact_append, tally, tally, ih]
    omega
  | gap after ih => rw [gap_append, tally, tally, ih]

theorem countP_facts (f : Forest) (keys : KeyCounter) (parent : Frame) :
    (f.facts keys parent).countP (fun g => p g.commonKind) = f.tally p := by
  induction f generalizing keys parent with
  | nil => rfl
  | fact content below after ihb iha =>
    have hkind : (content.toFact (keys.key (keys.last + 1)) parent).commonKind =
        content.commonKind := rfl
    rw [facts, List.countP_cons, List.countP_append, ihb, iha, tally, hkind]
    omega
  | gap after ih => exact ih _ _

theorem tally_true (f : Forest) : f.tally (fun _ => true) = f.count := by
  induction f with
  | nil => rfl
  | fact content below after ihb iha =>
    rw [tally, count, ihb, iha, if_pos rfl]
    omega
  | gap after ih => exact ih

theorem length_facts (f : Forest) (keys : KeyCounter) (parent : Frame) :
    (f.facts keys parent).length = f.count := by
  rw [← tally_true, ← countP_facts f keys parent, List.countP_true]

theorem tally_of_all {P : Content → Prop} {f : Forest} (h : f.All P)
    (hp : ∀ content, P content → p content.commonKind = false) : f.tally p = 0 := by
  induction f with
  | nil => rfl
  | fact content below after ihb iha =>
    rw [tally, ihb h.2.1, iha h.2.2, hp content h.1]
    rfl
  | gap after _ => exact h.elim

end Forest

/-! ## The files of a scanned tree -/

namespace Folder

/-- The files of a directory with their names in facts. -/
def candidateFiles (path : String) (files : List (String × SourceFile)) :
    List (String × SourceFile) :=
  files.map fun e => (relativeName (joinPath path e.1), e.2)

mutual

/-- The files in a directory and below, with their names in facts. -/
def candidates (path : String) : Folder → List (String × SourceFile)
  | ⟨folders, files⟩ => candidatesAll path folders ++ candidateFiles path files.entries

def candidatesAll (path : String) : List (String × Folder) → List (String × SourceFile)
  | [] => []
  | (name, folder) :: rest => folder.candidates (joinPath path name) ++ candidatesAll path rest

end

mutual

theorem length_candidates (path : String) :
    ∀ folder : Folder, (folder.candidates path).length = folder.countFiles
  | ⟨folders, files⟩ => by
    rw [candidates, countFiles, List.length_append, length_candidatesAll path folders,
      candidateFiles, List.length_map, Nat.add_comm]

theorem length_candidatesAll (path : String) :
    ∀ folders : List (String × Folder), (candidatesAll path folders).length = countAll folders
  | [] => rfl
  | (name, folder) :: rest => by
    rw [candidatesAll, countAll, List.length_append, length_candidates (joinPath path name) folder,
      length_candidatesAll path rest]

end

end Folder

namespace RunPlan

variable {plan : RunPlan}

/-! ## Totals by file -/

/-- A total to which only files add. -/
structure FileTotal (total : RunStats → Nat) : Prop where
  none : total {} = 0
  add : ∀ a b, total (a + b) = total a + total b
  folders : total (.folders 1) = 0

theorem FileTotal.inside {total : RunStats → Nat} (h : FileTotal total) (found : Harvest)
    (content : Content) : total (found.inside content).stats = total found.stats := by
  unfold Harvest.inside
  split
  · rw [h.add, h.folders, Nat.add_zero]
  · rfl

/-- A total over some files. -/
def sumFiles (plan : RunPlan) (total : RunStats → Nat) : List (String × SourceFile) → Nat
  | [] => 0
  | e :: rest => total (plan.harvestFile e.1 e.2).stats + plan.sumFiles total rest

theorem sumFiles_append (total : RunStats → Nat) (files files' : List (String × SourceFile)) :
    plan.sumFiles total (files ++ files') =
      plan.sumFiles total files + plan.sumFiles total files' := by
  induction files with
  | nil => simp [sumFiles]
  | cons e rest ih => rw [List.cons_append, sumFiles, sumFiles, ih, Nat.add_assoc]

theorem FileTotal.harvestFiles {total : RunStats → Nat} (h : FileTotal total) (path : String) :
    ∀ files : List (String × SourceFile),
      total (plan.harvestFiles path files).stats =
        plan.sumFiles total (Folder.candidateFiles path files)
  | [] => h.none
  | (name, file) :: rest => by
    rw [RunPlan.harvestFiles, Harvest.followedBy_stats, h.add, h.harvestFiles path rest]
    rfl

mutual

theorem FileTotal.harvest {total : RunStats → Nat} (h : FileTotal total) (path : String) :
    ∀ folder : Folder,
      total (plan.harvest path folder).stats = plan.sumFiles total (folder.candidates path)
  | ⟨folders, files⟩ => by
    rw [RunPlan.harvest, h.inside, Harvest.followedBy_stats, h.add,
      h.harvestFolders path folders, h.harvestFiles path files.entries, Folder.candidates,
      sumFiles_append]

theorem FileTotal.harvestFolders {total : RunStats → Nat} (h : FileTotal total) (path : String) :
    ∀ folders : List (String × Folder),
      total (plan.harvestFolders path folders).stats =
        plan.sumFiles total (Folder.candidatesAll path folders)
  | [] => h.none
  | (name, folder) :: rest => by
    rw [RunPlan.harvestFolders, Harvest.followedBy_stats, h.add,
      h.harvest (joinPath path name) folder, h.harvestFolders path rest, Folder.candidatesAll,
      sumFiles_append]

end

theorem isNotSelected_judge (filename : String) (file : SourceFile) :
    plan.judge filename file = .notSelected ↔ plan.selects filename = false := by
  unfold judge judgeTree
  cases plan.selects filename with
  | false => simp
  | true => grind

theorem sum_parsed_skipped (files : List (String × SourceFile)) :
    plan.sumFiles (fun s => s.filesParsed + s.filesSkipped) files +
      files.countP (fun e => !plan.selects e.1) = files.length := by
  induction files with
  | nil => rfl
  | cons e rest ih =>
    have hone : (plan.harvestFile e.1 e.2).stats.filesParsed +
        (plan.harvestFile e.1 e.2).stats.filesSkipped +
        (if !plan.selects e.1 then 1 else 0) = 1 := by
      have hselected := plan.isNotSelected_judge e.1 e.2
      unfold harvestFile
      cases hj : plan.judge e.1 e.2 with
      | notSelected => simp [hselected.1 hj]
      | skipped notice => simpa [hj] using hselected
      | accepted source root notice => simpa [hj] using hselected
    rw [sumFiles, List.countP_cons, List.length_cons]
    omega

/-! ## Files that go too deep -/

/-- A parsed file with a node that lies beyond the limit on the depth. -/
def Incomplete (plan : RunPlan) (filename : String) (file : SourceFile) : Prop :=
  ∃ source root notice, plan.judge filename file = .accepted source root notice ∧
    plan.language.ReachesBeyond source plan.settings.parse.maxDepth { node := root } 0

theorem incomplete_iff {filename source : String} {file : SourceFile} {root : Node}
    {notice : Option Notice} (h : plan.judge filename file = .accepted source root notice) :
    plan.Incomplete filename file ↔
      plan.language.ReachesBeyond source plan.settings.parse.maxDepth { node := root } 0 := by
  constructor
  · rintro ⟨source', root', notice', h', hbeyond⟩
    rw [h] at h'
    obtain ⟨rfl, rfl, rfl⟩ := FileVerdict.accepted.inj h'
    exact hbeyond
  · intro hbeyond
    exact ⟨source, root, notice, h, hbeyond⟩

instance (plan : RunPlan) (filename : String) (file : SourceFile) :
    Decidable (plan.Incomplete filename file) :=
  match h : plan.judge filename file with
  | .notSelected => .isFalse fun ⟨_, _, _, h', _⟩ => by simp [h] at h'
  | .skipped _ => .isFalse fun ⟨_, _, _, h', _⟩ => by simp [h] at h'
  | .accepted source root _ => decidable_of_iff _ (incomplete_iff h).symm

theorem filesIncomplete_harvestFile (filename : String) (file : SourceFile) :
    (plan.harvestFile filename file).stats.filesIncomplete =
      if plan.Incomplete filename file then 1 else 0 := by
  unfold harvestFile
  cases hj : plan.judge filename file with
  | notSelected => simp [Incomplete, hj]
  | skipped notice => simp [Incomplete, hj]
  | accepted source root notice =>
    have hstop := WalkContext.stop_reading_iff (c := plan.context filename source) rfl
      { node := root } false 0
    simp only [incomplete_iff hj]
    exact if_congr hstop rfl rfl

theorem sum_incomplete (files : List (String × SourceFile)) :
    plan.sumFiles (·.filesIncomplete) files =
      files.countP (fun e => plan.Incomplete e.1 e.2) := by
  induction files with
  | nil => rfl
  | cons e rest ih =>
    rw [sumFiles, ih, List.countP_cons, filesIncomplete_harvestFile]
    simp only [decide_eq_true_eq]
    omega

end RunPlan

/-! ## Totals by fact -/

/-- The totals of a harvest agree with its facts. -/
structure Harvest.Accounts (h : Harvest) : Prop where
  facts : h.stats.facts = h.forest.count
  projects : h.forest.tally (· = .project) = 0
  folders : h.stats.foldersEmitted = h.forest.tally (· = .dir)
  files : h.stats.filesParsed = h.forest.tally (· = .file)

namespace RunPlan

variable {plan : RunPlan}

theorem accounts_nil : Harvest.Accounts {} := ⟨rfl, rfl, rfl, rfl⟩

theorem accounts_followedBy {h k : Harvest} (hh : h.Accounts) (hk : k.Accounts) :
    (h.followedBy k).Accounts := by
  refine ⟨?_, ?_, ?_, ?_⟩
  · rw [Harvest.followedBy_stats, Harvest.followedBy_forest, Forest.count_append, ← hh.facts,
      ← hk.facts]
    rfl
  · rw [Harvest.followedBy_forest, Forest.tally_append, hh.projects, hk.projects]
  · rw [Harvest.followedBy_stats, Harvest.followedBy_forest, Forest.tally_append, ← hh.folders,
      ← hk.folders]
    rfl
  · rw [Harvest.followedBy_stats, Harvest.followedBy_forest, Forest.tally_append, ← hh.files,
      ← hk.files]
    rfl

theorem accounts_file (hlang : plan.language.FramesApart) (filename : String)
    (file : SourceFile) : (plan.harvestFile filename file).Accounts := by
  unfold harvestFile
  cases plan.judge filename file with
  | notSelected => exact accounts_nil
  | skipped notice => exact ⟨rfl, rfl, rfl, rfl⟩
  | accepted source root notice =>
    dsimp only
    generalize hr : (plan.context filename source).reading { node := root } false 0 = r
    have hall : r.forest.All fun content => content.commonKind.isFrame = false := by
      rw [← hr]
      exact WalkContext.all_reading (c := plan.context filename source) hlang.inner
        (fun kind span properties orderable hkind => hkind) { node := root } false 0
    have hkind : (plan.framing "file" filename true).commonKind = .file := hlang.file
    -- Nothing in the tree has a kind of the frame, so the file itself is all there is to count.
    have hinner : ∀ kind : CommonKind, kind.isFrame = true →
        r.forest.tally (fun found => decide (found = kind)) = 0 := by
      intro kind hkind
      refine Forest.tally_of_all hall fun content hcontent => ?_
      rw [decide_eq_false_iff_not]
      rintro rfl
      rw [hcontent] at hkind
      exact Bool.false_ne_true hkind
    refine ⟨rfl, ?_, ?_, ?_⟩
    · rw [Forest.tally, hinner .project rfl, hkind]
      rfl
    · rw [Forest.tally, hinner .dir rfl, hkind]
      rfl
    · rw [Forest.tally, hinner .file rfl, hkind]
      rfl

theorem accounts_inside (hlang : plan.language.FramesApart) {h : Harvest} (hh : h.Accounts)
    (filename : String) : (h.inside (plan.framing "dir" filename false)).Accounts := by
  have hkind : (plan.framing "dir" filename false).commonKind = .dir := hlang.dir
  cases hf : h.forest.hasFact with
  | false =>
    rw [Harvest.inside_of_not_hasFact hf]
    exact ⟨hh.facts, hh.projects, hh.folders, hh.files⟩
  | true =>
    rw [Harvest.inside_of_hasFact hf]
    refine ⟨?_, ?_, ?_, ?_⟩
    · rw [Forest.count, Forest.count, ← hh.facts]
      rfl
    · rw [Forest.tally, hh.projects, hkind]
      rfl
    · rw [Forest.tally, ← hh.folders, hkind]
      exact Nat.add_comm _ _
    · rw [Forest.tally, ← hh.files, hkind]
      exact (Nat.zero_add _).symm

theorem accounts_files (hlang : plan.language.FramesApart) (path : String) :
    ∀ files : List (String × SourceFile), (plan.harvestFiles path files).Accounts
  | [] => accounts_nil
  | (_, file) :: rest =>
    accounts_followedBy (accounts_file hlang _ file) (accounts_files hlang path rest)

mutual

theorem accounts_harvest (hlang : plan.language.FramesApart) (path : String) :
    ∀ folder : Folder, (plan.harvest path folder).Accounts
  | ⟨folders, files⟩ => by
    rw [harvest]
    exact accounts_inside hlang (accounts_followedBy (accounts_folders hlang path folders)
      (accounts_files hlang path files.entries)) _

theorem accounts_folders (hlang : plan.language.FramesApart) (path : String) :
    ∀ folders : List (String × Folder), (plan.harvestFolders path folders).Accounts
  | [] => accounts_nil
  | (name, folder) :: rest => by
    rw [harvestFolders]
    exact accounts_followedBy (accounts_harvest hlang (joinPath path name) folder)
      (accounts_folders hlang path rest)

end

/-! ## Whole runs -/

variable {σ : Type} {out : Sink σ} {disk : Disk} {path trunkKey : String} {start : σ}

/-- The totals of a run that succeeds are those of the harvest, and the fact of the project. -/
theorem stats_of_ok {stats : RunStats}
    (h : (plan.run out disk path trunkKey start).result = .ok stats) :
    ∃ keys root, plan.scan disk path = .ok root ∧
      plan.emitted out disk path trunkKey start = plan.stream trunkKey keys root ∧
      stats = (plan.harvest "" root).stats + { facts := 1 } := by
  obtain ⟨keys, root, st, hkeys, hscan, hvisit, hfacts⟩ := emitted_of_ok h
  refine ⟨keys, root, hscan, hfacts, ?_⟩
  obtain ⟨⟨-, hstats⟩, -⟩ := (plan.visitProject_gives out trunkKey root _).of_ok hvisit
  rw [run_of_scan hkeys hscan, (runFolder_of_ok hvisit).1] at h
  obtain rfl := Except.ok.inj h
  rw [hstats]
  simp only [begun, RunStats.add_eq, Nat.zero_add]

theorem countP_stream {root : Folder} {keys : KeyCounter} (hlang : plan.language.FramesApart)
    (kind : CommonKind) :
    (plan.stream trunkKey keys root).countP (fun f => f.commonKind = kind) =
      (plan.harvest "" root).forest.tally (· = kind) + if kind = .project then 1 else 0 := by
  have hproject : (plan.projectFact trunkKey).commonKind = .project := hlang.project
  rw [stream, List.countP_cons, hproject,
    ← Forest.countP_facts (p := fun found => decide (found = kind)) _ keys { key := trunkKey }]
  by_cases h : kind = .project
  · simp [h]
  · simp [h, Ne.symm h]

theorem emitted_walk_isFrame {c : WalkContext} (hlang : c.language.FramesApart) (root : Node)
    (parentKey : String) (keys : KeyCounter) :
    ∀ f ∈ c.emitted out root parentKey keys start, f.commonKind.isFrame = false := by
  intro f hf
  rw [c.emitted_eq] at hf
  have htaken := out.taken_prefix _ _ |>.subset hf
  have hall := WalkContext.all_reading (P := fun content => content.commonKind.isFrame = false)
    hlang.inner (fun kind span properties orderable hkind => hkind) { node := root } false 0
  exact Forest.forall_facts_of_all (Q := fun f => f.commonKind.isFrame = false) hall
    (fun content key parent hc => hc) keys _ f htaken

/-- The totals of a run that succeeds: all its facts, those of its directories and those of its
files, each told by its common kind. The kinds of the frame are given to no fact of a syntax tree.
Every scanned file is parsed, skipped or not asked for, and the incomplete ones are those with a
node beyond the limit on the depth. -/
theorem totals_of_run (plan : RunPlan) (out : Sink σ) (disk : Disk) (path trunkKey : String)
    (start : σ) {stats : RunStats} (hlang : plan.language ∈ Registry.standard.languages)
    (hok : (plan.run out disk path trunkKey start).result = .ok stats) :
    let facts := plan.emitted out disk path trunkKey start
    stats.facts = facts.length ∧
    facts.countP (fun f => f.commonKind = .project) = 1 ∧
    stats.foldersEmitted = facts.countP (fun f => f.commonKind = .dir) ∧
    stats.filesParsed = facts.countP (fun f => f.commonKind = .file) ∧
    (∀ (c : WalkContext) (root : Node) (parentKey : String) (keys : KeyCounter) (start : σ),
      c.language = plan.language → ∀ f ∈ c.emitted out root parentKey keys start,
        f.commonKind ≠ .project ∧ f.commonKind ≠ .dir ∧ f.commonKind ≠ .file) ∧
    ∃ root, plan.scan disk path = .ok root ∧
      stats.filesParsed + stats.filesSkipped +
        (root.candidates "").countP (fun e => !plan.selects e.1) = root.countFiles ∧
      stats.filesIncomplete =
        (root.candidates "").countP (fun e => plan.Incomplete e.1 e.2) := by
  have hapart := Language.framesApart hlang
  obtain ⟨keys, root, hscan, hfacts, rfl⟩ := stats_of_ok hok
  have hharvest := accounts_harvest hapart "" root
  intro facts
  refine ⟨?_, ?_, ?_, ?_, ?_, root, hscan, ?_, ?_⟩
  · rw [show facts = _ from hfacts, stream, List.length_cons, Forest.length_facts,
      ← hharvest.facts]
    rfl
  · rw [show facts = _ from hfacts, countP_stream hapart, hharvest.projects]
    rfl
  · rw [show facts = _ from hfacts, countP_stream hapart, ← hharvest.folders]
    rfl
  · rw [show facts = _ from hfacts, countP_stream hapart, ← hharvest.files]
    rfl
  · intro c tree parentKey keys start hc f hf
    have hframe := emitted_walk_isFrame (hc ▸ hapart) tree parentKey keys f hf
    refine ⟨?_, ?_, ?_⟩ <;> intro h <;> simp [h, CommonKind.isFrame] at hframe
  · have htotal : FileTotal fun s => s.filesParsed + s.filesSkipped :=
      ⟨rfl, fun a b => by simp only [RunStats.add_eq]; omega, rfl⟩
    rw [← root.length_candidates "", ← plan.sum_parsed_skipped (root.candidates ""),
      ← htotal.harvest "" root]
    rfl
  · have htotal : FileTotal (·.filesIncomplete) := ⟨rfl, fun a b => rfl, rfl⟩
    rw [← sum_incomplete, ← htotal.harvest]
    rfl

/-! ## A project with a deep file -/

/-- A file whose tree has one node below its root. -/
def deepFile : SourceFile where
  tree := some ⟨{ kind := "program" }, [⟨{ kind := "expression_statement" }, []⟩]⟩

def deepDisk : Disk where
  entries := [.file "a.ts" deepFile, .file "b.ts" faultyFile, .file "c.ts" soundFile]

/-- Asks for two of the three files, and for no more than their roots. -/
def deepPlan : RunPlan where
  language := .typeScript
  settings := { parse := { maxDepth := 0 } }
  selected := ["a.ts", "b.ts"]

def deepRoot : Folder where
  files := .ofList [("a.ts", deepFile), ("b.ts", faultyFile), ("c.ts", soundFile)]

theorem scan_deep : deepPlan.scan deepDisk "." = .ok deepRoot := by
  have hparts : Path.parts "." = ["."] := by decide
  have hlocate : deepDisk.locate "." = .ok (.folder ⟨"", deepDisk.entries⟩ []) := by
    simp [Disk.locate, hparts, Place.follow, Disk.shown, deepDisk]
  unfold scan
  rw [hlocate]
  rfl

theorem incomplete_deep : deepPlan.Incomplete "./a.ts" deepFile := by
  have hjudge : deepPlan.judge "./a.ts" deepFile =
      .accepted "" ⟨{ kind := "program" }, [⟨{ kind := "expression_statement" }, []⟩]⟩ none := by
    rfl
  rw [incomplete_iff hjudge]
  exact ⟨_, 1, .step rfl List.mem_cons_self (.node _) (.here _ _), by decide⟩

theorem totals_of_run_deep :
    let out : Sink Unit := ⟨fun s _ => (s, none)⟩
    deepPlan.language ∈ Registry.standard.languages ∧
      ∃ stats, (deepPlan.run out deepDisk "." "1" ()).result = .ok stats ∧
        stats.facts = (deepPlan.emitted out deepDisk "." "1" ()).length ∧
        stats.filesParsed + stats.filesSkipped + 1 = 3 ∧ stats.filesIncomplete = 1 := by
  intro out
  have hlang : deepPlan.language ∈ Registry.standard.languages := by
    simp [deepPlan, Registry.standard, Registry.ofLanguages]
  have hkeys : KeyCounter.parse? "1" = some ⟨1, 0⟩ := by decide
  obtain ⟨stats, hok⟩ : ∃ stats, (deepPlan.run out deepDisk "." "1" ()).result = .ok stats :=
    run_ok_of_accepting hkeys scan_deep fun _ _ => rfl
  obtain ⟨hfacts, -, -, -, -, root, hscan, hfiles, hincomplete⟩ :=
    deepPlan.totals_of_run out deepDisk "." "1" () hlang hok
  obtain rfl : deepRoot = root := Except.ok.inj (scan_deep.symm.trans hscan)
  have hcandidates : deepRoot.candidates "" =
      [("./a.ts", deepFile), ("./b.ts", faultyFile), ("./c.ts", soundFile)] := by rfl
  have hskipped : ¬ deepPlan.Incomplete "./b.ts" faultyFile := by
    rintro ⟨source, root, notice, hjudge, -⟩
    exact FileVerdict.noConfusion hjudge
  have hother : ¬ deepPlan.Incomplete "./c.ts" soundFile := by
    rintro ⟨source, root, notice, hjudge, -⟩
    exact FileVerdict.noConfusion hjudge
  refine ⟨hlang, stats, hok, hfacts, hfiles, ?_⟩
  rw [hincomplete, hcandidates]
  simp [incomplete_deep, hskipped, hother]

end RunPlan

end FactStream
