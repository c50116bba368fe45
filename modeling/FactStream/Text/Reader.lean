/-!
# Readers

A reader takes characters from the front of a text, or fails. A choice between readers starts the
second at the same place as the first.
-/

namespace FactStream.Text

/-- Takes characters from the front of a text, or fails. -/
abbrev Reader := StateT (List Char) Option

namespace Reader

variable {α β : Type}

/-- One character that satisfies `p`. -/
def char (p : Char → Bool) : Reader Char
  | [] => none
  | c :: rest => if p c then some (c, rest) else none

/-- As many characters as satisfy `p`. -/
def chars (p : Char → Bool) : Reader (List Char) :=
  fun cs => some (cs.takeWhile p, cs.dropWhile p)

/-- Exactly these characters. -/
def word (w : List Char) : Reader Unit :=
  fun cs => if w.isPrefixOf cs then some ((), cs.drop w.length) else none

/-- The end of the text. -/
def finished : Reader Unit
  | [] => some ((), [])
  | _ :: _ => none

/-- The next character, which stays. -/
def peek : Reader Char
  | [] => none
  | c :: rest => some (c, c :: rest)

/-- Reads with `p` as often as it goes on. -/
def manyFrom (p : Reader α) (cs : List Char) : List α × List Char :=
  match p cs with
  | none => ([], cs)
  | some (a, rest) =>
    if rest.length < cs.length then
      let (as, rest) := manyFrom p rest
      (a :: as, rest)
    else ([], cs)
termination_by cs.length

/-- Reads with `p` as often as it goes on. -/
def many (p : Reader α) : Reader (List α) :=
  fun cs => some (manyFrom p cs)

/-- One or more of `p` with `separator` between them. -/
def separated (p : Reader α) (separator : Reader β) : Reader (List α) := do
  let first ← p
  let rest ← many (do let _ ← separator; p)
  pure (first :: rest)

/-- What a reader makes of a whole text. -/
def run? (p : Reader α) (cs : List Char) : Option α :=
  ((do let a ← p; finished; pure a : Reader α) cs).map (·.1)

end Reader

end FactStream.Text
