import FactStream.Notice
import FactStream.Text.Ascii
import FactStream.Text.Slice

/-!
# What of the notices is shown

A log shows a notice for its level and for the part of the program it comes from. What is shown is
written down in directives with commas between them: a level for all parts, a part, or a part with
its level, as in `warn,astfacts_core::project=debug`.
-/

namespace FactStream

/-- The number of levels that are as important as a level or more so. -/
def Level.rank : Level → Nat
  | error => 1
  | warn => 2
  | info => 3
  | debug => 4

/-- The part of the program that a notice comes from. -/
def Notice.target : Notice → String
  | noRule .. | errorNode .. => "astfacts_core::parser::walker"
  | scanned .. | pruned .. | finished .. | syntaxErrorSkipped .. | syntaxErrorTolerated ..
  | missingTokens .. | tooDeep .. | tooLarge .. | notText .. | noTree .. => "astfacts_core::project"
  | noValue .. => "astfacts_core::facts::deltas"
  | failed .. => "astfacts"

/-- Which notices are shown, by the part of the program they come from and their level. -/
structure LogFilter where
  shows : String → Level → Bool

namespace LogFilter

/-- Shows what is as important as a level or more so. -/
def atLeast (least : Level) : LogFilter :=
  ⟨fun _ level => level.rank ≤ least.rank⟩

/-- Whether a notice is shown. -/
def passes (filter : LogFilter) (n : Notice) : Bool :=
  filter.shows n.target n.level

/-! ## Directives -/

/-- The number of levels shown of the parts whose name starts with a text. -/
structure Directive where
  target : List Char
  rank : Nat

/-- The number of levels that are shown from a level on, given by its name or its number. -/
def rankOf? (level : List Char) : Option Nat :=
  match Text.lowerAsciiText (String.ofList level) with
  | "off" | "0" => some 0
  | "error" | "1" => some 1
  | "warn" | "2" => some 2
  | "info" | "3" => some 3
  | "debug" | "4" => some 4
  | "trace" | "5" => some 5
  | _ => none

/-- Whether a text can be the start of the name of a part. -/
def isTarget (text : List Char) : Bool :=
  !text.isEmpty && text.all fun c => c.isAlphanum || c == '_' || c == ':' || c == '-'

/-- Reads a directive. Without a level all is shown, and a level alone is for all parts. -/
def Directive.parse? (text : List Char) : Option Directive :=
  match rankOf? text, Text.split (· = '=') text with
  | some rank, _ => some ⟨[], rank⟩
  | none, [target] => if isTarget target then some ⟨target, 5⟩ else none
  | none, [target, level] =>
    if isTarget target then
      let target := if (rankOf? target).isSome then [] else target
      if level.isEmpty then some ⟨target, 5⟩ else (rankOf? level).map (⟨target, ·⟩)
    else none
  | none, _ => none

/-- The directive with the longest start of a name; of two with the same start the later one. -/
def decisive? (name : List Char) : List Directive → Option Directive
  | [] => none
  | d :: rest =>
    match decisive? name rest with
    | some other =>
      if d.target.isPrefixOf name && other.target.length < d.target.length then some d
      else some other
    | none => if d.target.isPrefixOf name then some d else none

/-- Reads what is shown. Without a directive, errors are. -/
def parse? (text : String) : Option LogFilter :=
  let given := (Text.split (· = ',') text.toList).filter (!·.isEmpty)
  (given.mapM Directive.parse?).map fun directives =>
    let directives := if directives.isEmpty then [⟨[], 1⟩] else directives
    ⟨fun name level => (decisive? name.toList directives).any (level.rank ≤ ·.rank)⟩

end LogFilter

end FactStream
