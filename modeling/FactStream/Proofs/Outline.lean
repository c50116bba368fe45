import FactStream.Proofs.Diagnosis
import FactStream.Proofs.Folder
import FactStream.Proofs.Kinds
import FactStream.Proofs.Stream

/-!
# The frame of a stream

The facts for the project, its directories and its files frame those of the syntax trees. On success
they are the outline of the scanned tree, without the files that are not accepted and the
directories without an accepted file (`RunPlan.frame_of_run`).

A forest `Frames` some entries if its framing facts are those of the entries that are kept, each
below the entry that holds it. The rules for `Frames` follow the visit of a directory: one file, one
piece after the other, and a directory around what is in it.
-/

namespace FactStream

/-- Whether a file gives facts. -/
def FileVerdict.isAccepted : FileVerdict → Bool
  | accepted .. => true
  | _ => false

namespace RunPlan

/-! ## Accepted files -/

/-- A file gives facts: it is asked for, not too large, and UTF-8 text with a syntax tree. If files
with syntax errors are skipped, no node of the tree is an error. -/
def Accepts (plan : RunPlan) (filename : String) (file : SourceFile) : Prop :=
  (plan.selected = [] ∨ filename ∈ plan.selected.map selectedName) ∧
    (∀ limit ∈ plan.settings.scan.maxFileSize, file.bytes.size ≤ limit) ∧
    file.text?.isSome ∧
    ∃ root ∈ file.tree,
      (plan.settings.parse.syntaxErrors = .skip → ∀ n ∈ root.preorder, n.head.error = false)

instance (plan : RunPlan) (filename : String) (file : SourceFile) :
    Decidable (plan.Accepts filename file) :=
  inferInstanceAs (Decidable (_ ∧ _ ∧ _ ∧ _))

theorem selects_iff (plan : RunPlan) (filename : String) :
    plan.selects filename = true ↔
      plan.selected = [] ∨ filename ∈ plan.selected.map selectedName := by
  simp [selects]

theorem judgeTree_isAccepted {plan : RunPlan} {filename source : String} {root : Node}
    (h : root.Consistent) :
    (plan.judgeTree filename source root).isAccepted = true ↔
      (plan.settings.parse.syntaxErrors = .skip → ∀ n ∈ root.preorder, n.head.error = false) := by
  have herror := Node.firstError_isSome h
  unfold judgeTree
  dsimp only
  cases hfirst : root.diagnosis.firstError with
  | none =>
    have hnone : ¬ ∃ n ∈ root.preorder, n.head.error = true := by
      rw [← herror, hfirst]
      decide
    refine ⟨fun _ _ n hn => ?_, fun _ => rfl⟩
    exact Bool.eq_false_iff.2 fun he => hnone ⟨n, hn, he⟩
  | some place =>
    obtain ⟨n, hn, he⟩ := herror.1 (by rw [hfirst]; rfl)
    cases plan.settings.parse.syntaxErrors with
    | skip =>
      refine ⟨fun hno => absurd hno Bool.false_ne_true, fun hall => ?_⟩
      rw [hall rfl n hn] at he
      exact absurd he (by decide)
    | tolerate => exact ⟨fun _ hskip => absurd hskip (by decide), fun _ => rfl⟩

theorem judge_isAccepted {plan : RunPlan} {filename : String} {file : SourceFile}
    (h : ∀ root, file.tree = some root → root.Consistent) :
    (plan.judge filename file).isAccepted = true ↔ plan.Accepts filename file := by
  unfold judge Accepts
  rw [← selects_iff]
  cases plan.selects filename with
  | false => simp [FileVerdict.isAccepted]
  | true =>
    have hsize : plan.settings.scan.maxFileSize.filter (· < file.bytes.size) = none ↔
        ∀ limit ∈ plan.settings.scan.maxFileSize, file.bytes.size ≤ limit := by
      cases plan.settings.scan.maxFileSize <;> simp [Option.filter]
    rw [← hsize]
    cases plan.settings.scan.maxFileSize.filter (· < file.bytes.size) with
    | some limit => simp [FileVerdict.isAccepted]
    | none =>
      cases file.text? with
      | none => simp [FileVerdict.isAccepted]
      | some source =>
        cases htree : file.tree with
        | none => simp [FileVerdict.isAccepted]
        | some root => simp [judgeTree_isAccepted (h root htree)]

/-! ## Kept entries -/

/-- An entry is a file that gives facts. -/
def AcceptedFile (plan : RunPlan) : Placed → Prop
  | .folder .. => False
  | .file names file => plan.Accepts (Placed.file names file).filename file

instance (plan : RunPlan) : DecidablePred plan.AcceptedFile
  | .folder .. => inferInstanceAs (Decidable False)
  | .file .. => inferInstanceAs (Decidable (plan.Accepts _ _))

/-- A file is kept if it is accepted, and a directory if an accepted file lies in it or below. -/
def Keeps (plan : RunPlan) : Placed → Prop
  | .folder names folder => ∃ p ∈ folder.outline names, plan.AcceptedFile p
  | .file names file => plan.AcceptedFile (.file names file)

instance (plan : RunPlan) : DecidablePred plan.Keeps
  | .folder names folder =>
    inferInstanceAs (Decidable (∃ p ∈ folder.outline names, plan.AcceptedFile p))
  | .file names file => inferInstanceAs (Decidable (plan.AcceptedFile (.file names file)))

/-- The fact is the one for an entry of a scanned tree: it has the name of the entry and an empty
span, and its position means something only if the entry is a file. -/
structure FrameFact (p : Placed) (f : Fact) : Prop where
  commonKind : f.commonKind = if p.isFile then .file else .dir
  kind : f.kind = if p.isFile then "file" else "dir"
  orderable : f.orderable = p.isFile
  filename : (f.properties.get? "filename").map (·.value) = some p.filename
  span : ∀ name ∈ ["start_line", "start_column", "start_offset", "end_line", "end_column",
    "end_offset"], (f.properties.get? name).map (·.value) = some "0"

/-- Each fact is a child of `key`, if `holder` holds its entry, or else of the fact of the entry
that does. -/
def HeldBy (holder : Option (List String)) (key : String) (pairs : List (Placed × Fact)) : Prop :=
  ∀ p f, (p, f) ∈ pairs →
    (p.holder? = holder ∧ f.parentKey = key) ∨
      ∃ q g, (q, g) ∈ pairs ∧ q.isFile = false ∧ p.holder? = some q.names ∧ f.parentKey = g.key

/-- The names of an entry are proper, and the marks of its tree are right. -/
def Proper : Placed → Prop
  | .folder names _ => ∀ name ∈ names, ValidName name
  | .file names file =>
    (∀ name ∈ names, ValidName name) ∧ ∀ root, file.tree = some root → root.Consistent

/-- The framing facts of a forest are those of the entries that are kept, in order. -/
structure Frames (plan : RunPlan) (holder : Option (List String)) (entries : List Placed)
    (forest : Forest) : Prop where
  hasFact : forest.hasFact = true ↔ ∃ p ∈ entries, plan.AcceptedFile p
  pairs : ∀ keys parent, ∃ pairs : List (Placed × Fact),
    pairs.map (·.1) = entries.filter plan.Keeps ∧
    pairs.map (·.2) = (forest.facts keys parent).filter (·.commonKind.isFrame) ∧
    (∀ p f, (p, f) ∈ pairs → FrameFact p f) ∧ HeldBy holder parent.key pairs

section Frames

variable {plan : RunPlan} {holder : Option (List String)}

theorem render_zero (naming : Naming) : (naming.property (.ofNat 0)).value = "0" := by
  cases naming <;> decide

theorem frameFact_framing (hlang : plan.language.FramesApart) (p : Placed) (key : String)
    (parent : Frame) :
    FrameFact p (plan.framingFact (if p.isFile then "file" else "dir") key parent p.filename
      p.isFile) where
  commonKind := by
    cases p.isFile
    · exact hlang.dir
    · exact hlang.file
  kind := rfl
  orderable := rfl
  filename := by
    simp [framingFact, commonProperties, Dictionary.ofList, Dictionary.get?_insert,
      Naming.property, Naming.render]
  span := by
    intro name hname
    show ((commonProperties plan.language.naming p.filename {}).get? name).map (·.value) = some "0"
    simp only [List.mem_cons, List.not_mem_nil, or_false] at hname
    rcases hname with rfl | rfl | rfl | rfl | rfl | rfl <;>
      simp [commonProperties, Dictionary.ofList, Dictionary.get?_insert, render_zero]

theorem HeldBy.append {key : String} {l l' : List (Placed × Fact)} (h : HeldBy holder key l)
    (h' : HeldBy holder key l') : HeldBy holder key (l ++ l') := by
  intro p f hmem
  rcases List.mem_append.1 hmem with hmem | hmem
  · rcases h p f hmem with htop | ⟨q, g, hq, hrest⟩
    · exact .inl htop
    · exact .inr ⟨q, g, List.mem_append_left _ hq, hrest⟩
  · rcases h' p f hmem with htop | ⟨q, g, hq, hrest⟩
    · exact .inl htop
    · exact .inr ⟨q, g, List.mem_append_right _ hq, hrest⟩

theorem HeldBy.cons {key : String} {q : Placed} {g : Fact} {l : List (Placed × Fact)}
    (h : HeldBy (some q.names) g.key l) (hq : q.isFile = false) (hholder : q.holder? = holder)
    (hkey : g.parentKey = key) : HeldBy holder key ((q, g) :: l) := by
  intro p f hmem
  rcases List.mem_cons.1 hmem with hmem | hmem
  · obtain ⟨rfl, rfl⟩ := Prod.mk.inj hmem
    exact .inl ⟨hholder, hkey⟩
  · rcases h p f hmem with ⟨hp, hf⟩ | ⟨q', g', hmem', hrest⟩
    · exact .inr ⟨q, g, List.mem_cons_self, hq, hp, hf⟩
    · exact .inr ⟨q', g', List.mem_cons_of_mem _ hmem', hrest⟩

theorem frames_nil : plan.Frames holder [] .nil where
  hasFact := by simp [Forest.hasFact]
  pairs _ _ := ⟨[], rfl, rfl, by simp, by simp [HeldBy]⟩

theorem Frames.append {es es' : List Placed} {f g : Forest} (h : plan.Frames holder es f)
    (h' : plan.Frames holder es' g) : plan.Frames holder (es ++ es') (f ++ g) where
  hasFact := by
    rw [Forest.hasFact_append, Bool.or_eq_true, h.hasFact, h'.hasFact]
    simp only [List.mem_append, or_and_right, exists_or]
  pairs keys parent := by
    obtain ⟨l, hentries, hfacts, hframe, hheld⟩ := h.pairs keys parent
    obtain ⟨l', hentries', hfacts', hframe', hheld'⟩ :=
      h'.pairs (keys.advance f.size) (f.grow keys parent)
    rw [Forest.grow_key] at hheld'
    refine ⟨l ++ l', ?_, ?_, ?_, hheld.append hheld'⟩
    · rw [List.map_append, List.filter_append, hentries, hentries']
    · rw [List.map_append, Forest.facts_append, List.filter_append, hfacts, hfacts']
    · intro p q hmem
      rcases List.mem_append.1 hmem with hmem | hmem
      · exact hframe p q hmem
      · exact hframe' p q hmem

theorem exists_harvestFile (hlang : plan.language.FramesApart) {filename : String}
    {file : SourceFile} (h : (plan.judge filename file).isAccepted = true) :
    ∃ inner : Forest,
      (plan.harvestFile filename file).forest =
        .fact (plan.framing "file" filename true) inner .nil ∧
      ∀ keys parent, (inner.facts keys parent).filter (·.commonKind.isFrame) = [] := by
  unfold harvestFile
  cases hj : plan.judge filename file with
  | notSelected => simp [hj, FileVerdict.isAccepted] at h
  | skipped notice => simp [hj, FileVerdict.isAccepted] at h
  | accepted source root notice =>
    refine ⟨_, rfl, fun keys parent => ?_⟩
    have hall := WalkContext.all_reading (c := plan.context filename source)
      (P := fun content => content.commonKind.isFrame = false) hlang.inner
      (fun kind span properties orderable hkind => hkind) { node := root } false 0
    rw [List.filter_eq_nil_iff]
    intro g hg
    have hg := Forest.forall_facts_of_all (Q := fun g => g.commonKind.isFrame = false) hall
      (fun content key parent hc => hc) keys parent g hg
    simp [hg]

theorem harvestFile_of_not_accepted {filename : String} {file : SourceFile}
    (h : (plan.judge filename file).isAccepted = false) :
    (plan.harvestFile filename file).forest = .nil := by
  unfold harvestFile
  cases hj : plan.judge filename file with
  | notSelected => rfl
  | skipped notice => rfl
  | accepted source root notice => simp [hj, FileVerdict.isAccepted] at h

theorem frames_file (hlang : plan.language.FramesApart) {names : List String} {file : SourceFile}
    (hproper : Proper (.file names file)) :
    plan.Frames (Placed.file names file).holder? [.file names file]
      (plan.harvestFile (Placed.file names file).filename file).forest := by
  have hiff : (plan.judge _ file).isAccepted = true ↔ plan.AcceptedFile (.file names file) :=
    judge_isAccepted hproper.2
  cases hj : (plan.judge (Placed.file names file).filename file).isAccepted with
  | false =>
    have hnot : ¬ plan.AcceptedFile (.file names file) := by
      rw [← hiff, hj]
      decide
    rw [harvestFile_of_not_accepted hj]
    refine ⟨by simpa [Forest.hasFact] using hnot, fun keys parent => ?_⟩
    exact ⟨[], by simp [Keeps, hnot], rfl, by simp, by simp [HeldBy]⟩
  | true =>
    have haccepted := hiff.1 hj
    obtain ⟨inner, hforest, hinner⟩ := exists_harvestFile hlang hj
    rw [hforest]
    refine ⟨by simpa [Forest.hasFact] using haccepted, fun keys parent => ?_⟩
    refine ⟨[(.file names file, plan.framingFact "file" (keys.key (keys.last + 1)) parent
      (Placed.file names file).filename true)], ?_, ?_, ?_, ?_⟩
    · simp [Keeps, haccepted]
    · have hframe : (plan.language.commonKind "file").isFrame = true := by
        rw [hlang.file]
        rfl
      simp [Forest.facts, framingFact_eq, Content.toFact, framing, hframe, hinner]
    · intro p f hmem
      obtain ⟨rfl, rfl⟩ : p = _ ∧ f = _ := by simpa using hmem
      exact frameFact_framing hlang (.file names file) _ parent
    · intro p f hmem
      obtain ⟨rfl, rfl⟩ : p = _ ∧ f = _ := by simpa using hmem
      exact .inl ⟨rfl, rfl⟩

/-- A directory is kept if a file in it is, and then holds what is in it. -/
theorem Frames.inside (hlang : plan.language.FramesApart) {names : List String} {folder : Folder}
    {entries : List Placed} (houtline : folder.outline names = .folder names folder :: entries)
    {h : Harvest} (hframes : plan.Frames (some names) entries h.forest) :
    plan.Frames (Placed.folder names folder).holder? (folder.outline names)
      (h.inside (plan.framing "dir" (Placed.folder names folder).filename false)).forest := by
  have hkeeps : plan.Keeps (.folder names folder) ↔ h.forest.hasFact = true := by
    rw [hframes.hasFact, Keeps, houtline]
    simp [AcceptedFile]
  have haccepted : (∃ p ∈ folder.outline names, plan.AcceptedFile p) ↔ h.forest.hasFact = true :=
    hkeeps
  cases hf : h.forest.hasFact with
  | false =>
    rw [Harvest.inside_of_not_hasFact hf]
    refine ⟨by rw [haccepted]; rfl, fun keys parent => ⟨[], ?_, ?_, by simp, by simp [HeldBy]⟩⟩
    · -- Nothing is found below, so nothing below is kept.
      obtain ⟨l, hentries, hfacts, -, -⟩ := hframes.pairs keys parent
      rw [Forest.facts_of_not_hasFact hf] at hfacts
      obtain rfl : l = [] := by simpa using hfacts
      have hnot : ¬ plan.Keeps (.folder names folder) := by
        rw [hkeeps, hf]
        decide
      rw [houtline, List.filter_cons_of_neg (by simpa using hnot), ← hentries]
    · rw [Forest.facts, Forest.facts_of_not_hasFact hf]
      rfl
  | true =>
    rw [Harvest.inside_of_hasFact hf]
    refine ⟨by rw [haccepted, hf]; rfl, fun keys parent => ?_⟩
    obtain ⟨l, hentries, hfacts, hframe, hheld⟩ :=
      hframes.pairs (keys.advance 1) { key := keys.key (keys.last + 1) }
    refine ⟨(.folder names folder, plan.framingFact "dir" (keys.key (keys.last + 1)) parent
      (Placed.folder names folder).filename false) :: l, ?_, ?_, ?_, ?_⟩
    · rw [houtline, List.filter_cons_of_pos (by simpa using hkeeps.2 hf), ← hentries]
      rfl
    · have hdir : (plan.language.commonKind "dir").isFrame = true := by
        rw [hlang.dir]
        rfl
      rw [List.map_cons, hfacts]
      simp [Forest.facts, framingFact_eq, Content.toFact, framing, hdir]
    · intro p f hmem
      rcases List.mem_cons.1 hmem with hmem | hmem
      · obtain ⟨rfl, rfl⟩ := Prod.mk.inj hmem
        exact frameFact_framing hlang (.folder names folder) _ parent
      · exact hframe p f hmem
    · exact HeldBy.cons (q := .folder names folder) hheld rfl rfl rfl

/-! ## Scanned trees -/

theorem frames_outlineFiles (hlang : plan.language.FramesApart) {names : List String}
    (hnames : ∀ name ∈ names, ValidName name) :
    ∀ files : List (String × SourceFile), (∀ p ∈ Folder.outlineFiles names files, Proper p) →
      plan.Frames (some names) (Folder.outlineFiles names files)
        (plan.harvestFiles (Text.join "/" names) files).forest
  | [], _ => frames_nil
  | (name, file) :: rest, hproper => by
    have hfile : Proper (.file (names ++ [name]) file) := hproper _ List.mem_cons_self
    have hframes := frames_file hlang hfile
    rw [Placed.holder?_of_names rfl, Placed.filename_eq (.file _ file) rfl hfile.1] at hframes
    rw [harvestFiles, joinPath_join hnames, Harvest.followedBy_forest]
    exact hframes.append (frames_outlineFiles hlang hnames rest fun p hp =>
      hproper p (List.mem_cons_of_mem _ hp))

mutual

theorem frames_outline (hlang : plan.language.FramesApart) : ∀ (folder : Folder)
    (names : List String), (∀ p ∈ folder.outline names, Proper p) →
      plan.Frames (Placed.folder names folder).holder? (folder.outline names)
        (plan.harvest (Text.join "/" names) folder).forest
  | ⟨folders, files⟩, names, hproper => by
    have hnames : ∀ name ∈ names, ValidName name :=
      hproper _ (Folder.self_mem_outline names ⟨folders, files⟩)
    rw [Folder.outline_eq] at hproper
    have hfolders := frames_outlineAll hlang folders names hnames fun p hp =>
      hproper p (List.mem_cons_of_mem _ (List.mem_append_left _ hp))
    have hfiles := frames_outlineFiles hlang hnames files.entries fun p hp =>
      hproper p (List.mem_cons_of_mem _ (List.mem_append_right _ hp))
    have hframes := Frames.inside hlang (Folder.outline_eq names folders files)
      (h := (plan.harvestFolders (Text.join "/" names) folders).followedBy
        (plan.harvestFiles (Text.join "/" names) files.entries)) (hfolders.append hfiles)
    rw [Placed.filename_eq (.folder names _) rfl hnames] at hframes
    rw [harvest]
    exact hframes

theorem frames_outlineAll (hlang : plan.language.FramesApart) :
    ∀ (folders : List (String × Folder)) (names : List String), (∀ name ∈ names, ValidName name) →
      (∀ p ∈ Folder.outlineAll names folders, Proper p) →
      plan.Frames (some names) (Folder.outlineAll names folders)
        (plan.harvestFolders (Text.join "/" names) folders).forest
  | [], _, _, _ => frames_nil
  | (name, folder) :: rest, names, hnames, hproper => by
    rw [Folder.outlineAll] at hproper
    have hfolder := frames_outline hlang folder (names ++ [name]) fun p hp =>
      hproper p (List.mem_append_left _ hp)
    rw [Placed.holder?_of_names rfl] at hfolder
    rw [harvestFolders, joinPath_join hnames, Harvest.followedBy_forest, Folder.outlineAll]
    exact hfolder.append (frames_outlineAll hlang rest names hnames fun p hp =>
      hproper p (List.mem_append_right _ hp))

end

end Frames

/-! ## Whole runs -/

variable {σ : Type}

theorem sorted_of_scan {plan : RunPlan} {disk : Disk} {path : String} {root : Folder}
    (h : plan.scan disk path = .ok root) : root.Sorted := by
  unfold scan at h
  split at h
  · simp at h
  · simp at h
  · exact ScanFilter.sorted_scanFound h

/-- The framing facts of a run that succeeds: the project, and then the scanned tree in document
order, with its directories and files sorted by name. Kept are the accepted files and the
directories with an accepted file in them or below. Each entry is kept once, as a child of the one
that holds it. -/
theorem frame_of_run (plan : RunPlan) (out : Sink σ) (disk : Disk) (path trunkKey : String)
    (start : σ) {root : Folder} {stats : RunStats}
    (hlang : plan.language ∈ Registry.standard.languages)
    (hscan : plan.scan disk path = .ok root) (hproper : ∀ p ∈ root.outline [], Proper p)
    (hok : (plan.run out disk path trunkKey start).result = .ok stats) :
    (∀ names folder, .folder names folder ∈ root.outline [] →
      folder.folders.Pairwise (fun a b => a.1 < b.1) ∧
        folder.files.entries.Pairwise (fun a b => a.1 < b.1)) ∧
    ((root.outline []).map Placed.place).Nodup ∧
    ∃ pairs : List (Placed × Fact),
      pairs.map (·.1) = (root.outline []).filter plan.Keeps ∧
      (plan.emitted out disk path trunkKey start).filter (·.commonKind.isFrame) =
        plan.projectFact trunkKey :: pairs.map (·.2) ∧
      ∀ p f, (p, f) ∈ pairs →
        FrameFact p f ∧
        match p.holder? with
        | none => f.parentKey = trunkKey
        | some names =>
          ∃ q g, (q, g) ∈ pairs ∧ q.isFile = false ∧ q.names = names ∧ f.parentKey = g.key := by
  have hapart := Language.framesApart hlang
  have hsorted := sorted_of_scan hscan
  refine ⟨fun names folder h => ⟨root.ascending_of_mem_outline hsorted h, folder.files.ascending⟩,
    root.nodup_outline [] hsorted, ?_⟩
  obtain ⟨keys, root', st, hkeys, hscan', -, hfacts⟩ := emitted_of_ok hok
  obtain rfl : root = root' := Except.ok.inj (hscan.symm.trans hscan')
  obtain ⟨pairs, hentries, hpairs, hframe, hheld⟩ :=
    (frames_outline hapart root [] hproper).pairs keys { key := trunkKey }
  refine ⟨pairs, hentries, ?_, fun p f hmem => ⟨hframe p f hmem, ?_⟩⟩
  · have hproject : (plan.projectFact trunkKey).commonKind.isFrame = true := by
      rw [show (plan.projectFact trunkKey).commonKind = .project from hapart.project]
      rfl
    rw [hfacts, stream, List.filter_cons, if_pos hproject, hpairs]
    rfl
  · rcases hheld p f hmem with ⟨hp, hf⟩ | ⟨q, g, hmem', hq, hp, hf⟩
    · rw [hp]
      exact hf
    · rw [hp]
      exact ⟨q, g, hmem', hq, rfl, hf⟩

/-! ## A small project -/

def soundFile : SourceFile where
  tree := some ⟨{ kind := "program" }, []⟩

/-- A file whose tree has an error in it. -/
def faultyFile : SourceFile where
  tree := some ⟨{ kind := "program", hasError := true },
    [⟨{ kind := "ERROR", error := true, hasError := true }, []⟩]⟩

/-- A project with an accepted file in one directory and a faulty file in another. -/
def smallDisk : Disk where
  entries :=
    [.file "b.ts" soundFile, .folder "lib" [.file "a.ts" soundFile],
     .folder "draft" [.file "c.ts" faultyFile]]

def smallRoot : Folder where
  folders :=
    [("draft", { files := .ofList [("c.ts", faultyFile)] }),
     ("lib", { files := .ofList [("a.ts", soundFile)] })]
  files := .ofList [("b.ts", soundFile)]

def smallPlan : RunPlan where
  language := .typeScript
  settings := {}

theorem scan_small : smallPlan.scan smallDisk "." = .ok smallRoot := by
  have hparts : Path.parts "." = ["."] := by decide
  have hlocate : smallDisk.locate "." = .ok (.folder ⟨"", smallDisk.entries⟩ []) := by
    simp [Disk.locate, hparts, Place.follow, Disk.shown, smallDisk]
  unfold scan
  rw [hlocate]
  rfl

theorem reading_sound (filename source : String) :
    (smallPlan.context filename source).reading { node := ⟨{ kind := "program" }, []⟩ } false 0 =
      {} := by
  have houtcome : Language.typeScript.outcome source { node := ⟨{ kind := "program" }, []⟩ } =
      .passing [] := rfl
  rw [WalkContext.reading]
  simp [smallPlan, context, houtcome, WalkContext.readBranches]

/-- The directory of the faulty file is a gap. -/
theorem forest_small : (smallPlan.harvest "" smallRoot).forest =
    .fact (smallPlan.framing "dir" "." false)
      (.gap (.fact (smallPlan.framing "dir" "./lib" false)
        (.fact (smallPlan.framing "file" "./lib/a.ts" true) .nil .nil)
        (.fact (smallPlan.framing "file" "./b.ts" true) .nil .nil))) .nil := by
  have hforest : (smallPlan.harvest "" smallRoot).forest =
      .fact (smallPlan.framing "dir" "." false)
        (.gap (.fact (smallPlan.framing "dir" "./lib" false)
          (.fact (smallPlan.framing "file" "./lib/a.ts" true)
            ((smallPlan.context "./lib/a.ts" "").reading
              { node := ⟨{ kind := "program" }, []⟩ } false 0).forest .nil)
          (.fact (smallPlan.framing "file" "./b.ts" true)
            ((smallPlan.context "./b.ts" "").reading
              { node := ⟨{ kind := "program" }, []⟩ } false 0).forest .nil))) .nil := rfl
  rw [hforest, reading_sound, reading_sound]

theorem consistent_small : (∀ root, faultyFile.tree = some root → root.Consistent) ∧
    ∀ root, soundFile.tree = some root → root.Consistent := by
  refine ⟨?_, ?_⟩
  · intro root h
    obtain rfl := Option.some.inj h
    simp [Node.Consistent, Node.preorder, Node.preorder.all]
  · intro root h
    obtain rfl := Option.some.inj h
    simp [Node.Consistent, Node.preorder, Node.preorder.all]

theorem proper_small : ∀ p ∈ smallRoot.outline [], Proper p := by
  have houtline : smallRoot.outline [] =
      [.folder [] smallRoot, .folder ["draft"] { files := .ofList [("c.ts", faultyFile)] },
       .file ["draft", "c.ts"] faultyFile,
       .folder ["lib"] { files := .ofList [("a.ts", soundFile)] },
       .file ["lib", "a.ts"] soundFile, .file ["b.ts"] soundFile] := rfl
  have hnames : ∀ name ∈ ["draft", "c.ts", "lib", "a.ts", "b.ts"], ValidName name := by decide
  simpa [houtline, Proper, hnames] using consistent_small

/-- The directory of the faulty file is not kept, and directories come before files. -/
theorem frame_of_run_small :
    let out : Sink Unit := ⟨fun s _ => (s, none)⟩
    smallPlan.language ∈ Registry.standard.languages ∧
      smallPlan.scan smallDisk "." = .ok smallRoot ∧ (∀ p ∈ smallRoot.outline [], Proper p) ∧
      ∃ stats, (smallPlan.run out smallDisk "." "1_0" ()).result = .ok stats ∧
        ∃ pairs : List (Placed × Fact),
          pairs.map (·.1.filename) = [".", "./lib", "./lib/a.ts", "./b.ts"] ∧
          (smallPlan.emitted out smallDisk "." "1_0" ()).filter (·.commonKind.isFrame) =
            smallPlan.projectFact "1_0" :: pairs.map (·.2) ∧
          ∀ p f, (p, f) ∈ pairs → FrameFact p f := by
  intro out
  have hlang : smallPlan.language ∈ Registry.standard.languages := by
    simp [smallPlan, Registry.standard, Registry.ofLanguages]
  have hkeys : KeyCounter.parse? "1_0" = some ⟨1, 0⟩ := by decide
  obtain ⟨stats, hok⟩ : ∃ stats, (smallPlan.run out smallDisk "." "1_0" ()).result = .ok stats :=
    run_ok_of_accepting hkeys scan_small fun _ _ => rfl
  obtain ⟨-, -, pairs, hentries, hfacts, hpairs⟩ :=
    smallPlan.frame_of_run out smallDisk "." "1_0" () hlang scan_small proper_small hok
  refine ⟨hlang, scan_small, proper_small, stats, hok, pairs, ?_, hfacts, fun p f hmem =>
    (hpairs p f hmem).1⟩
  have hkept : ((smallRoot.outline []).filter smallPlan.Keeps).map (·.filename) =
      [".", "./lib", "./lib/a.ts", "./b.ts"] := by rfl
  rw [← hkept, ← hentries, List.map_map]
  rfl

end RunPlan

end FactStream
