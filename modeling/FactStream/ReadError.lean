/-!
# Read errors

Why nothing could be read at a path, and the wording of it.
-/

namespace FactStream

/-- Why a file or a directory could not be read. -/
inductive ReadError where
  /-- There is nothing at the path. -/
  | notFound
  /-- The path leads through something that is not a directory. -/
  | blocked
  /-- A directory is asked for, and the path leads to something else. -/
  | noDirectory
  /-- A file is asked for, and the path leads to a directory. -/
  | isDirectory
  /-- The file is not UTF-8 text. -/
  | notText
  /-- A name is longer than a directory can hold. -/
  | tooLong
  /-- The path leads through more symbolic links than are followed. -/
  | tooManyLinks
  /-- The path holds a character that no name can hold. -/
  | badName
  deriving DecidableEq, Repr

/-- Whether nothing is found at the path. What cannot be read otherwise is there. -/
def ReadError.findsNothing : ReadError → Bool
  | notFound | blocked | tooLong | tooManyLinks | badName => true
  | noDirectory | isDirectory | notText => false

/-- The wording of a read error. -/
def ReadError.message : ReadError → String
  | notFound => "No such file or directory (os error 2)"
  | blocked => "Not a directory (os error 20)"
  | noDirectory => "not a directory"
  | isDirectory => "Is a directory (os error 21)"
  | notText => "stream did not contain valid UTF-8"
  | tooLong => "File name too long (os error 36)"
  | tooManyLinks => "Too many levels of symbolic links (os error 40)"
  | badName => "file name contained an unexpected NUL byte"

end FactStream
