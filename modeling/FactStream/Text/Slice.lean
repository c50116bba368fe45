/-!
# Pieces of text

Functions that cut a text: by byte positions, at a separator, at its ends. Those that work on
characters take lists of them.
-/

namespace FactStream.Text

/-- The bytes from `start` up to `stop` of the UTF-8 form of a text. It is empty if the two
positions are not in order or do not fall between characters. -/
def slice (source : String) (start stop : Nat) : String :=
  let lo : String.Pos.Raw := ⟨start⟩
  let hi : String.Pos.Raw := ⟨stop⟩
  if start ≤ stop ∧ lo.isValid source ∧ hi.isValid source then lo.extract source hi else ""

/-- A list without a first part, if it starts with that part. -/
def dropStart? {α : Type} [BEq α] (start l : List α) : Option (List α) :=
  if start.isPrefixOf l then some (l.drop start.length) else none

/-- A list without a last part, if it ends with that part. -/
def dropEnd? (stop : List Char) (cs : List Char) : Option (List Char) :=
  if stop.isSuffixOf cs then some (cs.take (cs.length - stop.length)) else none

/-- A list without the characters at its end that satisfy `p`. -/
def trimEnd (p : Char → Bool) (cs : List Char) : List Char :=
  (cs.reverse.dropWhile p).reverse

/-- The number of bytes of the UTF-8 form of a list of characters. -/
def byteLength : List Char → Nat
  | [] => 0
  | c :: rest => c.utf8Size + byteLength rest

/-- The first characters of a list that fill exactly `n` bytes. -/
def takeBytes? : Nat → List Char → Option (List Char)
  | 0, _ => some []
  | _ + 1, [] => none
  | n + 1, c :: rest =>
    if c.utf8Size ≤ n + 1 then (takeBytes? (n + 1 - c.utf8Size) rest).map (c :: ·) else none

/-- The parts of a list between separators. -/
def split (p : Char → Bool) : List Char → List (List Char)
  | [] => [[]]
  | c :: rest =>
    if p c then [] :: split p rest
    else match split p rest with
      | [] => [[c]]
      | part :: parts => (c :: part) :: parts

/-- The lines of a text. A carriage return before a line feed belongs to the line end, and nothing
comes after the last line feed. -/
def lines (cs : List Char) : List (List Char) :=
  ended (split (· = '\n') cs)
where
  /-- The lines of pieces that all but the last had a line feed after them. -/
  ended : List (List Char) → List (List Char)
    | [] => []
    | [last] => if last.isEmpty then [] else [last]
    | piece :: rest => (dropEnd? ['\r'] piece).getD piece :: ended rest

/-- Lists of characters with a separator between them. -/
def joinLists (separator : List Char) : List (List Char) → List Char
  | [] => []
  | [s] => s
  | s :: rest => s ++ separator ++ joinLists separator rest

/-- Texts with a separator between them. -/
def join (separator : String) : List String → String
  | [] => ""
  | [s] => s
  | s :: rest => s ++ separator ++ join separator rest

end FactStream.Text
