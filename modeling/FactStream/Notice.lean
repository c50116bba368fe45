import FactStream.Json

/-!
# Notices

What a run has to tell besides its facts. A notice has a level, a message and named fields.
-/

namespace FactStream

/-- The importance of a notice. -/
inductive Level where
  | debug | info | warn | error
  deriving DecidableEq, Repr

/-- The name of a level. -/
def Level.name : Level → String
  | debug => "DEBUG"
  | info => "INFO"
  | warn => "WARN"
  | error => "ERROR"

/-- Something a run has to tell. -/
inductive Notice where
  /-- There is no rule for nodes of a kind; so many of them were met. -/
  | noRule (file kind : String) (count : Nat)
  /-- An error node was left out. -/
  | errorNode (file : String) (line column : Nat)
  /-- The project was scanned. -/
  | scanned (candidates : Nat)
  /-- A directory has no file that was parsed. -/
  | pruned (dir : String)
  /-- The run is over. -/
  | finished (language : String) (parsed skipped incomplete facts : Nat)
  /-- A file with a syntax error was left out. -/
  | syntaxErrorSkipped (file : String) (line column errors : Nat)
  /-- A file with a syntax error is walked all the same. -/
  | syntaxErrorTolerated (file : String) (line column errors : Nat)
  /-- The parser put in tokens that are not there. -/
  | missingTokens (file : String) (missing : Nat)
  /-- A tree nests deeper than allowed. -/
  | tooDeep (file : String) (depth : Nat)
  /-- A file is larger than allowed. -/
  | tooLarge (file : String) (size limit : Nat)
  /-- A file is not UTF-8 text. -/
  | notText (file : String)
  /-- A file could not be parsed at all. -/
  | noTree (file : String)
  /-- A property was given without a value. -/
  | noValue (fact property : String)
  /-- A command failed. -/
  | failed (reason : String)
  deriving DecidableEq, Repr

namespace Notice

/-- The importance of a notice. -/
def level : Notice → Level
  | errorNode .. | scanned .. | pruned .. | noValue .. => .debug
  | finished .. => .info
  | noRule .. | syntaxErrorSkipped .. | syntaxErrorTolerated .. | missingTokens .. | tooDeep ..
  | tooLarge .. | notText .. | noTree .. => .warn
  | failed .. => .error

/-- The message of a notice. -/
def message : Notice → String
  | noRule .. => "No shaper for node kind, subtree pruned"
  | errorNode .. => "Skipping ERROR node"
  | scanned .. => "Scanned project"
  | pruned .. => "No parsed files, directory pruned"
  | finished .. => "Project parsed"
  | syntaxErrorSkipped .. => "Syntax error, file skipped"
  | syntaxErrorTolerated .. => "Syntax error, walking the recovered tree"
  | missingTokens .. => "Parser recovered from missing tokens"
  | tooDeep .. => "Syntax tree too deep, remaining nodes skipped"
  | tooLarge .. => "File too large, skipped"
  | notText .. => "File is not valid UTF-8, skipped"
  | noTree .. => "Parser produced no tree, skipped"
  | noValue .. => "Ignoring property without a value"
  | failed reason => reason

/-- The fields of a notice. -/
def fields : Notice → List (String × String)
  | noRule file kind count => [("file", file), ("kind", kind), ("count", count.repr)]
  | errorNode file line column =>
    [("file", file), ("line", line.repr), ("column", column.repr)]
  | scanned candidates => [("candidates", candidates.repr)]
  | pruned dir => [("dir", dir)]
  | finished language parsed skipped incomplete facts =>
    [("language", language), ("parsed", parsed.repr), ("skipped", skipped.repr),
     ("incomplete", incomplete.repr), ("facts", facts.repr)]
  | syntaxErrorSkipped file line column errors
  | syntaxErrorTolerated file line column errors =>
    [("file", file), ("line", line.repr), ("column", column.repr), ("errors", errors.repr)]
  | missingTokens file missing => [("file", file), ("missing", missing.repr)]
  | tooDeep file depth => [("file", file), ("depth", depth.repr)]
  | tooLarge file size limit => [("file", file), ("size", size.repr), ("limit", limit.repr)]
  | notText file => [("file", file)]
  | noTree file => [("file", file)]
  | noValue fact property => [("fact", fact), ("property", property)]
  | failed _ => []

/-- The fields that are shown in quotes. The others are numbers, or shown as they are. -/
def quotedFields : List String := ["file", "kind", "language", "fact"]

/-- A field as it is shown. -/
def fieldText (name value : String) : List Char :=
  let shown := if quotedFields.contains name then Json.quoted value else value.toList
  ' ' :: (name.toList ++ '=' :: shown)

/-- A notice in one text: its level, its message and its fields. -/
def text (n : Notice) : String :=
  n.level.name ++ " " ++ n.message ++
    String.ofList (n.fields.flatMap fun f => fieldText f.1 f.2)

end Notice

end FactStream
