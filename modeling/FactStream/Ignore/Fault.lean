import FactStream.ReadError

/-!
# Faults of ignore files

A line of an ignore file that is no glob is left out, and so is the ignore file of a repository if
the files that tell where it lies are no text. If this happens above the directory that is scanned,
it is also told, and there is no scan.
-/

namespace FactStream.Ignore

/-- Why a text is no glob. -/
inductive GlobError where
  /-- A range of a class runs backwards. -/
  | backwards (first last : Char)
  /-- A brace closes a group that is not open. -/
  | unopened
  /-- A group of alternatives is not closed. -/
  | unclosed
  /-- A backslash ends the text. -/
  | dangling
  deriving DecidableEq, Repr

/-- The wording of a glob error. -/
def GlobError.message : GlobError → String
  | backwards first last =>
    "invalid range; '" ++ String.singleton first ++ "' > '" ++ String.singleton last ++ "'"
  | unopened => "unopened alternate group; missing '\x7b' (maybe escape '\x7d' with '[\x7d]'?)"
  | unclosed => "unclosed alternate group; missing '\x7d' (maybe escape '\x7b' with '[\x7b]'?)"
  | dangling => "dangling '\\'"

/-- What is wrong in a file. -/
inductive Flaw where
  /-- A line is no glob. -/
  | badGlob (line : Nat) (text : String) (cause : GlobError)
  /-- A line, or the file, cannot be read. -/
  | unreadable (line : Option Nat) (cause : ReadError)
  deriving DecidableEq, Repr

/-- The wording of a flaw. -/
def Flaw.message : Flaw → String
  | badGlob line text cause =>
    "line " ++ line.repr ++ ": error parsing glob '" ++ text ++ "': " ++ cause.message
  | unreadable (some line) cause => "line " ++ line.repr ++ ": " ++ cause.message
  | unreadable none cause => cause.message

/-- A flaw of the file at a path. -/
structure Fault where
  path : String
  flaw : Flaw
  deriving DecidableEq, Repr

/-- The wording of a fault. -/
def Fault.message (f : Fault) : String :=
  f.path ++ ": " ++ f.flaw.message

end FactStream.Ignore
