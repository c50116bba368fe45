import FactStream.Proofs.Cut
import FactStream.Proofs.Picking
import FactStream.Proofs.Renaming
import FactStream.Proofs.Skipped

/-!
# Runs that are asked for some files

A run that is asked for some files finds what the full run finds, without the other files and
without the directories that hold none of the files asked for. So its stream is what is picked from
the stream of the full run, up to the names of the keys.

What the runs find agrees file by file and directory by directory: `RunPlan.Selects` says so for one
piece of a project, with the rules that follow the visit of a directory.

Main statement: `RunPlan.selection_of_run`.
-/

namespace FactStream

/-- The content is that of a file with one of the names asked for. -/
def Content.askedFor (names : List String) (content : Content) : Bool :=
  content.commonKind = .file &&
    (content.properties.get? "filename").any fun p => (names.map selectedName).contains p.value

namespace Forest

variable {asked : Content → Bool}

theorem dense_skip (n : Nat) (f : Forest) : (skip n f).dense = f.dense := by
  induction n with
  | zero => rfl
  | succ n ih => rw [skip, dense, ih]

theorem pick_inside (f : Forest) : f.pick asked true = f := by
  induction f with
  | nil => rfl
  | fact content below after ihb iha => rw [pick, Bool.true_or, Bool.true_or, if_pos rfl, ihb, iha]
  | gap after ih => rw [pick, ih]

theorem any_of_all {P : Content → Prop} {f : Forest} (h : f.All P)
    (hP : ∀ content, P content → asked content = false) : f.any asked = false := by
  induction f with
  | nil => rfl
  | fact content below after ihb iha => rw [any, hP content h.1, ihb h.2.1, iha h.2.2]; rfl
  | gap after _ => exact h.elim

theorem any_of_not_hasFact {f : Forest} (h : f.hasFact = false) : f.any asked = false := by
  induction f with
  | nil => rfl
  | fact content below after _ _ => simp [hasFact] at h
  | gap after ih => exact ih h

end Forest

namespace RunPlan

/-- The plan, but asked for these files; for all, if there are none. -/
def asking (plan : RunPlan) (names : List String) : RunPlan :=
  { plan with selected := names }

/-! ## Files -/

section Files

variable {plan : RunPlan}

theorem askedFor_file (hlang : plan.language.FramesApart) (names : List String)
    (filename : String) :
    (plan.framing "file" filename true).askedFor names =
      (names.map selectedName).contains filename := by
  have hname : (commonProperties plan.language.naming filename {}).get? "filename" =
      some (plan.language.naming.property (.text filename)) := by
    simp [commonProperties, Dictionary.ofList, Dictionary.get?_insert]
  rw [Content.askedFor, framing, hlang.file, hname]
  simp [Naming.property, Naming.render]

theorem askedFor_of_ne_file {names : List String} {content : Content}
    (h : content.commonKind ≠ .file) : content.askedFor names = false := by
  simp [Content.askedFor, h]

theorem harvestFile_selected {names : List String} (hnames : names ≠ []) (filename : String)
    (file : SourceFile) :
    (plan.asking names).harvestFile filename file =
      if (names.map selectedName).contains filename then
        (plan.asking []).harvestFile filename file
      else {} := by
  have hempty : names.isEmpty = false := by simpa using hnames
  have hall : (plan.asking []).selects filename = true := rfl
  have hsome : (plan.asking names).selects filename =
      (names.map selectedName).contains filename := by
    rw [selects, show (plan.asking names).selected = names from rfl, hempty, Bool.false_or]
  unfold harvestFile judge
  rw [hall, hsome]
  cases (names.map selectedName).contains filename with
  | false => rfl
  | true => rfl

theorem harvestFile_cases (hlang : plan.language.FramesApart) (filename : String)
    (file : SourceFile) :
    (plan.harvestFile filename file).forest = .nil ∨
      ∃ inner : Forest, inner.All (fun content => content.commonKind.isFrame = false) ∧
        (plan.harvestFile filename file).forest =
          .fact (plan.framing "file" filename true) inner .nil := by
  unfold harvestFile
  cases plan.judge filename file with
  | notSelected => exact .inl rfl
  | skipped notice => exact .inl rfl
  | accepted source root notice =>
    exact .inr ⟨_, WalkContext.all_reading (c := plan.context filename source) hlang.inner
      (fun kind span properties orderable hkind => hkind) { node := root } false 0, rfl⟩

end Files

/-! ## Directories -/

/-- Apart from gaps, a part of a run is what is picked from the same part of the full run. -/
structure Selects (names : List String) (part full : Forest) : Prop where
  dense : part.dense = (full.pick (Content.askedFor names) false).dense
  framed : full.Framed (Content.askedFor names)

section Selects

variable {plan : RunPlan} {names : List String}

theorem Selects.hasFact {part full : Forest} (h : Selects names part full) :
    part.hasFact = full.any (Content.askedFor names) := by
  rw [← part.hasFact_dense, h.dense, Forest.hasFact_dense, Forest.hasFact_pick]

theorem selects_nil : Selects names .nil .nil := ⟨rfl, trivial⟩

theorem Selects.append {part full part' full' : Forest} (h : Selects names part full)
    (h' : Selects names part' full') : Selects names (part ++ part') (full ++ full') where
  dense := by rw [Forest.dense_append, Forest.pick_append, Forest.dense_append, h.dense, h'.dense]
  framed := Forest.framed_append h.framed h'.framed

theorem selects_file (hlang : plan.language.FramesApart) (hnames : names ≠ []) (filename : String)
    (file : SourceFile) :
    Selects names ((plan.asking names).harvestFile filename file).forest
      ((plan.asking []).harvestFile filename file).forest := by
  have hasked := askedFor_file hlang names filename
  rw [harvestFile_selected hnames]
  rcases @harvestFile_cases (plan.asking []) hlang filename file with
    hnil | ⟨inner, hall, hfact⟩
  · rw [hnil]
    split
    · rw [hnil]
      exact selects_nil
    · exact selects_nil
  · replace hfact : ((plan.asking []).harvestFile filename file).forest =
        .fact (plan.framing "file" filename true) inner .nil := hfact
    have hinner : inner.any (Content.askedFor names) = false :=
      Forest.any_of_all hall fun content hframe => askedFor_of_ne_file fun hfile => by
        rw [hfile] at hframe
        exact absurd hframe (by decide)
    refine ⟨?_, ?_⟩
    · rw [hfact, Forest.pick, hasked, hinner, Bool.or_false, Bool.false_or]
      cases (names.map selectedName).contains filename with
      | false =>
        rw [if_neg Bool.false_ne_true, if_neg Bool.false_ne_true, Forest.dense_skip]
        rfl
      | true => rw [if_pos rfl, if_pos rfl, hfact, Forest.pick_inside, Forest.pick]
    · rw [hfact]
      refine ⟨fun hany => ?_, Forest.framed_of_not_any hinner, trivial⟩
      rw [hinner] at hany
      exact absurd hany (by decide)

theorem Selects.inside (hlang : plan.language.FramesApart) {part full : Harvest}
    (h : Selects names part.forest full.forest) (filename : String) :
    Selects names (part.inside (plan.framing "dir" filename false)).forest
      (full.inside (plan.framing "dir" filename false)).forest := by
  have hdir : (plan.framing "dir" filename false).commonKind = .dir := hlang.dir
  have hasked : (plan.framing "dir" filename false).askedFor names = false := by
    apply askedFor_of_ne_file
    rw [hdir]
    decide
  have hpart := h.hasFact
  cases hfull : full.forest.hasFact with
  | false =>
    rw [Forest.any_of_not_hasFact hfull] at hpart
    rw [Harvest.inside_of_not_hasFact hpart, Harvest.inside_of_not_hasFact hfull]
    exact ⟨h.dense, h.framed⟩
  | true =>
    rw [Harvest.inside_of_hasFact hfull]
    refine ⟨?_, fun _ => hdir, h.framed, trivial⟩
    rw [Forest.pick, hasked, Bool.false_or, Bool.false_or]
    cases hany : full.forest.any (Content.askedFor names) with
    | false =>
      rw [hany] at hpart
      rw [Harvest.inside_of_not_hasFact hpart, if_neg Bool.false_ne_true, Forest.dense_skip]
      exact Forest.dense_of_not_hasFact hpart
    | true =>
      rw [hany] at hpart
      rw [Harvest.inside_of_hasFact hpart, if_pos rfl, Forest.dense, Forest.dense, h.dense]
      rfl

theorem selects_files (hlang : plan.language.FramesApart) (hnames : names ≠ []) (path : String) :
    ∀ files : List (String × SourceFile),
      Selects names ((plan.asking names).harvestFiles path files).forest
        ((plan.asking []).harvestFiles path files).forest
  | [] => selects_nil
  | (_, file) :: rest =>
    (selects_file hlang hnames _ file).append (selects_files hlang hnames path rest)

mutual

/-- The run that is asked for some files finds what is picked from what the full run finds. -/
theorem selects_harvest (hlang : plan.language.FramesApart) (hnames : names ≠ []) (path : String) :
    ∀ folder : Folder,
      Selects names ((plan.asking names).harvest path folder).forest
        ((plan.asking []).harvest path folder).forest
  | ⟨folders, files⟩ => by
    have hfound := (selects_folders hlang hnames path folders).append
      (selects_files hlang hnames path files.entries)
    rw [harvest, harvest]
    exact @Selects.inside plan names hlang (.followedBy _ _) (.followedBy _ _) hfound
      (relativeName path)

theorem selects_folders (hlang : plan.language.FramesApart) (hnames : names ≠ []) (path : String) :
    ∀ folders : List (String × Folder),
      Selects names ((plan.asking names).harvestFolders path folders).forest
        ((plan.asking []).harvestFolders path folders).forest
  | [] => selects_nil
  | (name, folder) :: rest => by
    rw [harvestFolders, harvestFolders]
    exact (selects_harvest hlang hnames (joinPath path name) folder).append
      (selects_folders hlang hnames path rest)

end

end Selects

/-! ## Streams -/

section Streams

variable {plan : RunPlan} {trunkKey : String} {keys : KeyCounter} {root : Folder}

theorem inOrder_stream (hkeys : KeyCounter.parse? trunkKey = some keys) :
    InOrder (plan.stream trunkKey keys root) := by
  obtain ⟨_, hfollow⟩ :=
    (plan.harvest "" root).forest.facts_follow keys { key := trunkKey } [] []
  exact inOrder_of_follow hfollow (nodup_stream hkeys) fun g hg hk =>
    key_ne_empty_of_mem_stream hkeys hg hk.symm

theorem stands_stream :
    Forest.Stands (plan.stream trunkKey keys root) [plan.projectFact trunkKey]
      (plan.harvest "" root).forest keys { key := trunkKey } [] (plan.projectFact trunkKey) where
  split := by rw [stream, List.append_nil, List.singleton_append]
  holder_mem := List.mem_singleton_self _
  holder_key := rfl
  next := by simp

theorem not_inAsked_project (hlang : plan.language.FramesApart)
    (hkeys : KeyCounter.parse? trunkKey = some keys) (names : List String) :
    ¬ InAsked (Content.askedFor names) (plan.stream trunkKey keys root)
      (plan.projectFact trunkKey) := by
  rintro ⟨a, -, hasked, rfl | hanc⟩
  · have hproject : (plan.projectFact trunkKey).content.commonKind = .project := hlang.project
    rw [askedFor_of_ne_file (by rw [hproject]; decide)] at hasked
    exact absurd hasked (by decide)
  · have hs : plan.stream trunkKey keys root = [] ++ plan.projectFact trunkKey :: _ := rfl
    exact absurd ((inOrder_stream hkeys).ancestor_mem hanc hs) List.not_mem_nil

theorem restrict_stream (hlang : plan.language.FramesApart)
    (hkeys : KeyCounter.parse? trunkKey = some keys) {names : List String}
    (hframed : (plan.harvest "" root).forest.Framed (Content.askedFor names))
    {keep : Fact → Bool}
    (hkeep : ∀ f, keep f = true ↔
      Wanted (Content.askedFor names) (plan.stream trunkKey keys root) f) :
    let kept := (plan.stream trunkKey keys root).filter keep
    kept.map (Fact.restrict kept) =
      plan.projectFact trunkKey ::
        ((plan.harvest "" root).forest.pick (Content.askedFor names) false).facts keys
          { key := trunkKey } := by
  intro kept
  have hproject : keep (plan.projectFact trunkKey) = true := (hkeep _).2 (.inl rfl)
  have hinside : false = true ↔ InAsked (Content.askedFor names) (plan.stream trunkKey keys root)
      (plan.projectFact trunkKey) :=
    iff_of_false Bool.false_ne_true (not_inAsked_project hlang hkeys names)
  have hpick : ((plan.harvest "" root).forest.pick (Content.askedFor names) false).facts keys
      { key := trunkKey } = _ :=
    Forest.facts_pick (inOrder_stream hkeys) hkeep _ stands_stream hframed hinside
      (KeyCounter.trunkKey_ne_empty hkeys) rfl rfl
  rw [hpick]
  have hkept : kept = plan.projectFact trunkKey ::
      ((plan.harvest "" root).forest.facts keys { key := trunkKey }).filter keep := by
    show (plan.stream trunkKey keys root).filter keep = _
    rw [stream, List.filter_cons_of_pos hproject]
  exact congrArg (List.map (Fact.restrict kept)) hkept

/-! ## Single files -/

section File

variable {filename source : String} {file : SourceFile} {tree : Node} {notice : Option Notice}

theorem has_harvestFile (h : plan.judge filename file = .accepted source tree notice) :
    (plan.harvestFile filename file).forest.Has (plan.framing "file" filename true)
      ((plan.context filename source).reading { node := tree } false 0).forest := by
  unfold harvestFile
  rw [h]
  exact .inl ⟨rfl, rfl⟩

theorem has_inside {content : Content} {inner : Forest} {found : Harvest}
    (h : found.forest.Has content inner) (folder : Content) :
    (found.inside folder).forest.Has content inner := by
  unfold Harvest.inside
  split
  · exact .inr (.inl h)
  · exact h

theorem has_harvestFiles {path name : String}
    (h : plan.judge (relativeName (joinPath path name)) file = .accepted source tree notice) :
    ∀ files : List (String × SourceFile), (name, file) ∈ files →
      (plan.harvestFiles path files).forest.Has
        (plan.framing "file" (relativeName (joinPath path name)) true)
        ((plan.context (relativeName (joinPath path name)) source).reading { node := tree } false
          0).forest
  | [], hfile => by simp at hfile
  | (n, other) :: rest, hfile => by
    rw [harvestFiles]
    apply Forest.has_append
    rcases List.mem_cons.1 hfile with hfile | hfile
    · obtain ⟨rfl, rfl⟩ := Prod.mk.inj hfile
      exact .inl (has_harvestFile h)
    · exact .inr (has_harvestFiles h rest hfile)

theorem has_harvestFolders {path name : String} {content : Content} {inner : Forest}
    {folder : Folder} (h : (plan.harvest (joinPath path name) folder).forest.Has content inner) :
    ∀ folders : List (String × Folder), (name, folder) ∈ folders →
      (plan.harvestFolders path folders).forest.Has content inner
  | [], hfolder => by simp at hfolder
  | (n, other) :: rest, hfolder => by
    rw [harvestFolders]
    apply Forest.has_append
    rcases List.mem_cons.1 hfolder with hfolder | hfolder
    · obtain ⟨rfl, rfl⟩ := Prod.mk.inj hfolder
      exact .inl h
    · exact .inr (has_harvestFolders h rest hfolder)

theorem has_harvest :
    ∀ (names : List String) (path : String) (here : Folder), here.fileAt? names = some file →
      plan.judge (relativeName (names.foldl joinPath path)) file = .accepted source tree notice →
      (plan.harvest path here).forest.Has
        (plan.framing "file" (relativeName (names.foldl joinPath path)) true)
        ((plan.context (relativeName (names.foldl joinPath path)) source).reading { node := tree }
          false 0).forest
  | [], _, _, hfile, _ => by simp [Folder.fileAt?] at hfile
  | [name], path, ⟨folders, files⟩, hfile, hjudge => by
    rw [harvest]
    have hhas := has_harvestFiles hjudge files.entries (mem_of_lookup hfile)
    exact has_inside (Forest.has_append (.inr hhas)) _
  | name :: next :: rest, path, ⟨folders, files⟩, hfile, hjudge => by
    obtain ⟨inner, hinner, hfile⟩ := Option.bind_eq_some_iff.1 hfile
    have hhas := has_harvest (next :: rest) (joinPath path name) inner hfile hjudge
    rw [harvest]
    exact has_inside (Forest.has_append (.inl (has_harvestFolders hhas folders
      (mem_of_lookup hinner)))) _

end File

/-- In a stream, the descendants of a fact stand in one block. Up to the names of the keys they are
the facts of the forest below it. -/
theorem exists_below (hkeys : KeyCounter.parse? trunkKey = some keys) {content : Content}
    {inner : Forest} (hhas : (plan.harvest "" root).forest.Has content inner) :
    ∃ before f below after ρ,
      plan.stream trunkKey keys root = before ++ f :: (below ++ after) ∧ f.content = content ∧
      (∀ g ∈ plan.stream trunkKey keys root,
        Ancestor (plan.stream trunkKey keys root) f g ↔ g ∈ below) ∧
      ρ trunkKey = f.key ∧ below = (inner.facts keys { key := trunkKey }).map (Fact.rename ρ) := by
  obtain ⟨n, before, parent, after, rest, holder, hstands⟩ := stands_stream.of_has hhas
  obtain ⟨_, ρ, -, -, hkey, -, hbelow⟩ := Forest.exists_renaming (f := inner) (g := inner) rfl
    (fun n hn => KeyCounter.key_ne_trunkKey hkeys hn) ((keys.advance n).advance 1)
    ((keys.advance n).key ((keys.advance n).last + 1))
  have hsplit := hstands.below_stands.split
  rw [List.append_assoc, List.singleton_append] at hsplit
  exact ⟨_, _, _, _, ρ, hsplit, rfl, fun g hg => hstands.descendants (inOrder_stream hkeys) hg,
    hkey, hbelow.symm⟩

end Streams

theorem walk_collect (c : WalkContext) (tree : Node) (parentKey : String) (keys : KeyCounter) :
    (c.walk .collect tree parentKey keys #[]).sink.toList =
      (c.reading { node := tree } false 0).forest.facts keys { key := parentKey } := by
  obtain ⟨hfacts, hnone⟩ := Sink.deliver_collect
    ((c.reading { node := tree } false 0).forest.facts keys { key := parentKey }) #[]
  rw [(c.walk_of_deliver rfl (Prod.ext rfl hnone)).1, hfacts]
  simp

/-! ## Runs -/

/-- A run that is asked for some files gives, up to the names of the keys, the facts of the full run
that are wanted: the project, the files asked for with all that is below them, and the directories
above these files. The names change only in their numbers, whose order stays, and of the older
siblings those remain that are wanted too.

So the facts below the fact of a file are, up to the names of the keys, those of a walk through the
tree of this file alone. -/
theorem selection_of_run (plan : RunPlan) (disk : Disk) (path trunkKey : String)
    (names : List String) {keys : KeyCounter} {root : Folder}
    (hlang : plan.language ∈ Registry.standard.languages) (hnames : names ≠ [])
    (hkeys : KeyCounter.parse? trunkKey = some keys) (hscan : plan.scan disk path = .ok root) :
    let facts selected := ((plan.asking selected).run .collect disk path trunkKey #[]).sink.toList
    (∃ (numbers : List Nat) (shift : Nat → Nat) (ρ : String → String) (kept : List Fact),
      (facts names).map (·.key) = trunkKey :: numbers.map keys.key ∧
      (∀ m ∈ numbers, keys.last < m ∧ ∀ n ∈ numbers, m < n → shift m < shift n) ∧
      (∀ n ∈ numbers, ρ (keys.key n) = keys.key (shift n)) ∧ ρ trunkKey = trunkKey ∧ ρ "" = "" ∧
      kept.Sublist (facts []) ∧
      (∀ f ∈ facts [], f ∈ kept ↔ Wanted (Content.askedFor names) (facts []) f) ∧
      (facts names).map (Fact.rename ρ) = kept.map (Fact.restrict kept)) ∧
    ∀ selected way file source tree notice, root.fileAt? way = some file →
      let filename := relativeName (way.foldl joinPath "")
      (plan.asking selected).judge filename file = .accepted source tree notice →
      ∃ before f below after ρ, facts selected = before ++ f :: (below ++ after) ∧
        f.content = plan.framing "file" filename true ∧
        (∀ g ∈ facts selected, Ancestor (facts selected) f g ↔ g ∈ below) ∧ ρ trunkKey = f.key ∧
        below =
          ((plan.context filename source).walk .collect tree trunkKey keys #[]).sink.toList.map
            (Fact.rename ρ) := by
  intro facts
  have hapart := Language.framesApart hlang
  have hfacts : ∀ selected, facts selected = (plan.asking selected).stream trunkKey keys root :=
    fun selected => (@run_collect (plan.asking selected) disk path _ _ _ hkeys hscan).1
  refine ⟨?_, ?_⟩
  · classical
    have hselects := selects_harvest hapart hnames "" root
    obtain ⟨shift, ρ, hmono, hshift, htrunk, hother, hrename⟩ := Forest.exists_renaming
      hselects.dense (fun n hn => KeyCounter.key_ne_trunkKey hkeys hn) keys trunkKey
    have hempty : ρ "" = "" := by
      refine hother "" (KeyCounter.trunkKey_ne_empty hkeys).symm fun hmem => ?_
      obtain ⟨n, -, hn⟩ := List.mem_map.1 hmem
      exact keys.key_ne_empty n hn
    have hkeep : ∀ f, decide (Wanted (Content.askedFor names) (facts []) f) = true ↔
        Wanted (Content.askedFor names) ((plan.asking []).stream trunkKey keys root) f := by
      intro f
      rw [decide_eq_true_iff, hfacts]
    have hkept := @restrict_stream (plan.asking []) trunkKey keys root hapart hkeys names
      hselects.framed _ hkeep
    refine ⟨_, shift, ρ, (facts []).filter fun f => Wanted (Content.askedFor names) (facts []) f,
      ?_, fun m hm => ⟨(Forest.mem_numbers _ hm).1, hmono m hm⟩, hshift, htrunk, hempty,
      List.filter_sublist, ?_, ?_⟩
    · rw [hfacts]
      exact (plan.asking names).map_key_stream trunkKey keys root
    · intro f hf
      rw [List.mem_filter, decide_eq_true_iff, and_iff_right hf]
    · rw [← hfacts] at hkept
      have hproject : (plan.projectFact trunkKey).rename ρ = plan.projectFact trunkKey := by
        simp [Fact.rename, projectFact, framingFact, htrunk, hempty]
      rw [show _ = _ from hkept, hfacts, stream, List.map_cons, hrename,
        show ((plan.asking names).projectFact trunkKey).rename ρ = _ from hproject]
      rfl
  · intro selected way file source tree notice hfile filename hjudge
    have hhas := has_harvest way "" root hfile hjudge
    rw [hfacts, walk_collect]
    exact exists_below hkeys hhas

/-- The small project, asked for one of its two accepted files by a name with a backslash. -/
theorem selection_of_run_small :
    let facts selected :=
      ((smallPlan.asking selected).run .collect smallDisk "." "1_0" #[]).sink.toList
    smallPlan.language ∈ Registry.standard.languages ∧
      KeyCounter.parse? "1_0" = some ⟨1, 0⟩ ∧ smallPlan.scan smallDisk "." = .ok smallRoot ∧
      (∃ (ρ : String → String) (kept : List Fact), ρ "1_0" = "1_0" ∧ kept.Sublist (facts []) ∧
        (∀ f ∈ facts [], f ∈ kept ↔ Wanted (Content.askedFor [".\\b.ts"]) (facts []) f) ∧
        (facts [".\\b.ts"]).map (Fact.rename ρ) = kept.map (Fact.restrict kept)) ∧
      ∃ before f below after, facts [".\\b.ts"] = before ++ f :: (below ++ after) ∧
        f.content = smallPlan.framing "file" "./b.ts" true := by
  intro facts
  have hlang : smallPlan.language ∈ Registry.standard.languages := by
    simp [smallPlan, Registry.standard, Registry.ofLanguages]
  have hkeys : KeyCounter.parse? "1_0" = some ⟨1, 0⟩ := by decide
  have hfile : smallRoot.fileAt? ["b.ts"] = some soundFile := rfl
  have hname : relativeName (["b.ts"].foldl joinPath "") = "./b.ts" := by decide
  obtain ⟨source, tree, notice, hjudge⟩ : ∃ source tree notice,
      (smallPlan.asking [".\\b.ts"]).judge "./b.ts" soundFile = .accepted source tree notice :=
    ⟨_, _, _, rfl⟩
  obtain ⟨⟨_, _, ρ, kept, -, -, -, htrunk, -, hsub, hwanted, hmap⟩, hfiles⟩ :=
    smallPlan.selection_of_run smallDisk "." "1_0" [".\\b.ts"] hlang (by decide) hkeys scan_small
  obtain ⟨before, f, below, after, _, hsplit, hcontent, -⟩ :=
    hfiles [".\\b.ts"] ["b.ts"] soundFile source tree notice hfile (by rw [hname]; exact hjudge)
  rw [hname] at hcontent
  exact ⟨hlang, hkeys, scan_small, ⟨ρ, kept, htrunk, hsub, hwanted, hmap⟩, before, f, below, after,
    hsplit, hcontent⟩

end RunPlan

end FactStream
