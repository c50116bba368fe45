import FactStream.Text.Slice

/-!
# Paths

Paths are texts with a slash between their components. Empty components and single dots do not
count.
-/

namespace FactStream.Path

/-- What stands between the slashes of a path. -/
def parts (path : String) : List String :=
  (Text.split (· = '/') path.toList).map String.ofList

/-- The components of a path. -/
def components (path : String) : List String :=
  (parts path).filter fun c => c ≠ "" ∧ c ≠ "."

/-- The path that another path leads to, seen from a directory. -/
def join (folder path : String) : String :=
  if folder = "" ∨ folder.endsWith "/" then folder ++ path
  else folder ++ "/" ++ path

/-- The path of an entry of a directory. The path of the directory and the name are given by their
bytes. -/
def enter (folder name : List UInt8) : List UInt8 :=
  if folder = [] ∨ folder.getLast? = some 47 then folder ++ name else folder ++ 47 :: name

/-- The bytes of a path without a `./` in front. -/
def dropDot (path : List UInt8) : List UInt8 :=
  (Text.dropStart? [46, 47] path).getD path

/-- A path as seen from a directory that it is written to lie below. If it is not written so, it is
seen whole. Both are given by their bytes. -/
def below (folder path : List UInt8) : List UInt8 :=
  if folder = [46] ∨ 47 ∉ path then path
  else match Text.dropStart? folder path with
    | some rest => (Text.dropStart? [47] rest).getD rest
    | none => path

/-- The name a path ends with. A step to the parent is no name. -/
def fileName? (path : String) : Option String :=
  (components path).getLast?.filter (· ≠ "..")

/-- What follows the last mark of a list. A mark at the start of the list does not count. -/
def afterLast? {α : Type} [DecidableEq α] (mark : α) (l : List α) : Option (List α) :=
  let tail := (l.reverse.takeWhile (· ≠ mark)).reverse
  if tail.length + 1 < l.length then some tail else none

/-- What follows the last dot of a name. A dot at the start of a name does not count. -/
def extensionOf? (name : String) : Option String :=
  (afterLast? '.' name.toList).map String.ofList

/-- The extension of the file that a path names. -/
def extension? (path : String) : Option String :=
  (fileName? path).bind extensionOf?

/-- Whether a path is a single dash, which stands for the standard input. -/
def isDash (path : String) : Bool :=
  match parts path with
  | first :: rest => first == "-" && rest.all fun c => c == "" || c == "."
  | [] => false

end FactStream.Path
