import FactStream.Scan
import FactStream.Tree.Diagnosis
import FactStream.Walk

/-!
# Running a project

A run scans a project directory and gives the facts of its files, framed by facts for the project,
the directories and the files. A directory gets its key when it is entered. Its fact is held back
until a file below it is parsed, and comes right before the fact of that file; a directory
without such a file gives no fact.
-/

namespace FactStream

/-- The totals of a run. -/
structure RunStats where
  filesParsed : Nat := 0
  filesSkipped : Nat := 0
  /-- Files whose walk stopped because of their depth. -/
  filesIncomplete : Nat := 0
  foldersEmitted : Nat := 0
  facts : Nat := 0
  /-- Nodes without a rule. -/
  unhandled : Nat := 0
  deriving DecidableEq, Repr

/-- What a run is asked for. -/
structure RunPlan where
  language : Language
  settings : Settings
  /-- The names of the files asked for; all if there are none. -/
  selected : List String := []

/-! ## File names -/

/-- A path without steps to the current directory in front. -/
def dropHere : List Char → List Char
  | '.' :: '/' :: rest => dropHere rest
  | path => path

/-- The name of a file or directory in facts, by its path below the project directory. -/
def relativeName (path : String) : String :=
  match dropHere path.toList with
  | [] => "."
  | rest => String.ofList ('.' :: '/' :: rest)

/-- A path one name longer. -/
def joinPath (path name : String) : String :=
  if path = "" then name else path ++ "/" ++ name

/-- The name in facts that a selected file is asked for by. Backslashes count as slashes. -/
def selectedName (path : String) : String :=
  relativeName (String.ofList (path.toList.map fun c => if c = '\\' then '/' else c))

/-! ## Files -/

/-- What becomes of a file. -/
inductive FileVerdict where
  /-- The file was not asked for. -/
  | notSelected
  /-- The file gives no facts. -/
  | skipped (notice : Notice)
  /-- The file gives facts. -/
  | accepted (source : String) (root : Node) (notice : Option Notice)

namespace RunPlan

/-- Whether a file is asked for. -/
def selects (plan : RunPlan) (filename : String) : Bool :=
  plan.selected.isEmpty || (plan.selected.map selectedName).contains filename

/-- What becomes of a file with a syntax tree. -/
def judgeTree (plan : RunPlan) (filename source : String) (root : Node) : FileVerdict :=
  let d := root.diagnosis
  match d.firstError, plan.settings.parse.syntaxErrors with
  | some (row, column), .skip =>
    .skipped (.syntaxErrorSkipped filename (row + 1) (column + 1) d.errors)
  | some (row, column), .tolerate =>
    .accepted source root (some (.syntaxErrorTolerated filename (row + 1) (column + 1) d.errors))
  | none, _ =>
    .accepted source root (if 0 < d.missing then some (.missingTokens filename d.missing) else none)

/-- What becomes of a file. -/
def judge (plan : RunPlan) (filename : String) (file : SourceFile) : FileVerdict :=
  if !plan.selects filename then .notSelected
  else match plan.settings.scan.maxFileSize.filter (· < file.bytes.size) with
    | some limit => .skipped (.tooLarge filename file.bytes.size limit)
    | none =>
      match file.text?, file.tree with
      | none, _ => .skipped (.notText filename)
      | some _, none => .skipped (.noTree filename)
      | some source, some root => plan.judgeTree filename source root

/-- The extensions of the files of a run. -/
def extensions (plan : RunPlan) : List String :=
  match plan.settings.extensions.get? plan.language.nameSpace with
  | some extensions => extensions.map fun e => String.ofList (e.toList.dropWhile (· = '.'))
  | none => plan.language.extensions

end RunPlan

/-! ## Runs -/

/-- What a run has done so far. -/
structure RunState (σ : Type) where
  keys : KeyCounter
  sink : σ
  stats : RunStats := {}
  notices : Array Notice := #[]

/-- Runs change a state and end early if the sink refuses a fact. -/
abbrev RunM (σ : Type) := EStateM Refusal (RunState σ)

/-- A directory that is being visited, or the project itself. -/
structure OpenFolder where
  frame : Frame
  filename : String
  /-- Whether its fact was given. -/
  emitted : Bool

namespace RunPlan

variable {σ : Type}

/-- Takes the next key. -/
def takeKey : RunM σ String := fun state =>
  let (key, keys) := state.keys.next
  .ok key { state with keys }

/-- Puts down a notice. -/
def tell (notice : Notice) : RunM σ Unit := fun state =>
  .ok () { state with notices := state.notices.push notice }

/-- Changes the totals. -/
def count (change : RunStats → RunStats) : RunM σ Unit := fun state =>
  .ok () { state with stats := change state.stats }

/-- The fact for the project, a directory or a file. -/
def framingFact (plan : RunPlan) (kind key : String) (parent : Frame) (filename : String)
    (orderable : Bool) : Fact where
  key
  parentKey := parent.key
  commonKind := plan.language.commonKind kind
  kind
  nameSpace := plan.language.nameSpace
  orderable
  olderSiblings := parent.children
  properties := commonProperties plan.language.naming filename {}

/-- Gives a fact to the sink. -/
def emit (out : Sink σ) (fact : Fact) : RunM σ Unit := fun state =>
  match out.accept state.sink fact with
  | (sink, none) =>
    .ok () { state with sink, stats := { state.stats with facts := state.stats.facts + 1 } }
  | (sink, some r) => .error r { state with sink }

/-- Gives the facts that are held back, from the project inwards. The innermost directory stands
first. -/
def flush (plan : RunPlan) (out : Sink σ) : List OpenFolder → RunM σ (List OpenFolder)
  | [] => pure []
  | here :: above => do
    match here.emitted, ← plan.flush out above with
    | false, parent :: rest =>
      emit out (plan.framingFact "dir" here.frame.key parent.frame here.filename false)
      count fun s => { s with foldersEmitted := s.foldersEmitted + 1 }
      let frame := (parent.frame.addChild here.frame.key).2
      pure ({ here with emitted := true } :: { parent with frame } :: rest)
    | _, above => pure (here :: above)

/-- Gives the facts of a syntax tree. -/
def walkFile (plan : RunPlan) (out : Sink σ) (filename source : String) (root : Node)
    (fileKey : String) : RunM σ Unit := fun state =>
  let context : WalkContext :=
    { language := plan.language, source, filename,
      maxDepth := some plan.settings.parse.maxDepth }
  let done := context.walk out root fileKey state.keys state.sink
  let state :=
    { state with
      keys := done.keys
      sink := done.sink
      stats :=
        { state.stats with
          facts := state.stats.facts + done.facts
          unhandled := state.stats.unhandled + done.unhandled }
      notices := state.notices ++ done.notices }
  match done.stop with
  | none => .ok () state
  | some (.tooDeep limit) =>
    .ok ()
      { state with
        stats := { state.stats with filesIncomplete := state.stats.filesIncomplete + 1 }
        notices := state.notices.push (.tooDeep filename limit) }
  | some (.refused r) => .error r state

/-- Gives the facts of a file in the innermost of the open directories. -/
def visitFile (plan : RunPlan) (out : Sink σ) (filename : String) (file : SourceFile)
    (trail : List OpenFolder) : RunM σ (List OpenFolder) := do
  match plan.judge filename file with
  | .notSelected => pure trail
  | .skipped notice =>
    tell notice
    count fun s => { s with filesSkipped := s.filesSkipped + 1 }
    pure trail
  | .accepted source root notice =>
    notice.forM tell
    match ← plan.flush out trail with
    | [] => pure []
    | here :: above =>
      let key ← takeKey
      emit out (plan.framingFact "file" key here.frame filename true)
      plan.walkFile out filename source root key
      count fun s => { s with filesParsed := s.filesParsed + 1 }
      pure ({ here with frame := (here.frame.addChild key).2 } :: above)

/-- Gives the facts of files in the innermost of the open directories. -/
def visitFiles (plan : RunPlan) (out : Sink σ) (path : String) :
    List (String × SourceFile) → List OpenFolder → RunM σ (List OpenFolder)
  | [], trail => pure trail
  | (name, file) :: rest, trail => do
    let trail ← plan.visitFile out (relativeName (joinPath path name)) file trail
    plan.visitFiles out path rest trail

/-- Ends the visit of the innermost of the open directories. -/
def leave : List OpenFolder → RunM σ (List OpenFolder)
  | [] => pure []
  | here :: above => do
    if !here.emitted then tell (.pruned here.filename)
    pure above

mutual

/-- Gives the facts of a directory: first those of its directories, then those of its files. -/
def visitFolder (plan : RunPlan) (out : Sink σ) (path : String) (trail : List OpenFolder) :
    Folder → RunM σ (List OpenFolder)
  | ⟨folders, files⟩ => do
    let key ← takeKey
    let trail := { frame := { key }, filename := relativeName path, emitted := false } :: trail
    let trail ← plan.visitFolders out path trail folders
    let trail ← plan.visitFiles out path files.entries trail
    leave trail

/-- Gives the facts of the directories in a directory. -/
def visitFolders (plan : RunPlan) (out : Sink σ) (path : String) (trail : List OpenFolder) :
    List (String × Folder) → RunM σ (List OpenFolder)
  | [] => pure trail
  | (name, folder) :: rest => do
    let trail ← plan.visitFolder out (joinPath path name) trail folder
    plan.visitFolders out path trail rest

end

/-- Gives the facts of a scanned project. -/
def visitProject (plan : RunPlan) (out : Sink σ) (trunkKey : String) (root : Folder) :
    RunM σ Unit := do
  emit out (plan.framingFact "project" trunkKey { key := "" } "." false)
  let project : OpenFolder := { frame := { key := trunkKey }, filename := ".", emitted := true }
  discard (plan.visitFolder out "" [project] root)

end RunPlan

/-- The end of a run. -/
structure RunEnd (σ : Type) where
  /-- The totals, or why the run failed. -/
  result : Except Failure RunStats
  sink : σ
  notices : List Notice

namespace RunPlan

variable {σ : Type}

/-- Gives the facts of a scanned project and tells the totals. -/
def runFolder (plan : RunPlan) (out : Sink σ) (trunkKey : String) (keys : KeyCounter)
    (root : Folder) (start : σ) : RunEnd σ :=
  let state : RunState σ := { keys, sink := start, notices := #[.scanned root.countFiles] }
  match plan.visitProject out trunkKey root state with
  | .ok _ state =>
    let s := state.stats
    let notice :=
      .finished plan.language.nameSpace s.filesParsed s.filesSkipped s.filesIncomplete s.facts
    { result := .ok s, sink := state.sink, notices := (state.notices.push notice).toList }
  | .error r state =>
    { result := .error (.refused r), sink := state.sink, notices := state.notices.toList }

/-- Runs the project in the directory at a path. A bad trunk key is told first, then a missing
directory, then what keeps it from being scanned. -/
def run (plan : RunPlan) (out : Sink σ) (disk : Disk) (path trunkKey : String) (start : σ) :
    RunEnd σ :=
  let failed (failure : Failure) : RunEnd σ :=
    { result := .error failure, sink := start, notices := [] }
  match KeyCounter.start trunkKey with
  | .error failure => failed failure
  | .ok keys =>
    match disk.locate path with
    | .error cause => failed (.unreadable (disk.shown path) cause)
    | .ok (.file _) => failed (.unreadable (disk.shown path) .noDirectory)
    | .ok (.folder here above) =>
      let filter : ScanFilter :=
        { extensions := plan.extensions, settings := plan.settings.scan }
      match filter.scanFound disk path here above with
      | .error failure => failed failure
      | .ok root => plan.runFolder out trunkKey keys root start

end RunPlan

end FactStream
