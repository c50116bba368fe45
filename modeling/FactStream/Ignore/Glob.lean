import FactStream.Ignore.Fault

/-!
# Globs

A glob is a pattern for paths. It is read into a list of pieces and matched against the bytes of a
path. One star and a question mark stay within a component; two stars that fill a component stand
for any number of components. Braces hold alternatives and may be nested.
-/

namespace FactStream.Ignore

/-- The slash between the components of a path. -/
def slash : UInt8 := 47

/-- A part of a glob. -/
inductive Piece where
  /-- This byte. -/
  | byte (b : UInt8)
  /-- Any byte but a slash. -/
  | any
  /-- Any bytes but slashes. -/
  | star
  /-- Nothing, or components with a slash after the last of them. -/
  | leading
  /-- A slash and anything after it. -/
  | trailing
  /-- A slash, or components with slashes around them. -/
  | between
  /-- A byte in one of the ranges, or in none of them. -/
  | set (negated : Bool) (ranges : List (UInt8 × UInt8))
  /-- One of the alternatives; nothing, if there are none. -/
  | choice (alternatives : List (List Piece))
  /-- Anything. -/
  | all

/-- The pieces that match a path one after the other. -/
abbrev Glob := List Piece

/-! ## Matching -/

namespace Piece

/-- The suffixes of a path. -/
def suffixes : List UInt8 → List (List UInt8)
  | [] => [[]]
  | c :: rest => (c :: rest) :: suffixes rest

/-- The suffixes of a path that follow a slash. -/
def afterSlashes : List UInt8 → List (List UInt8)
  | [] => []
  | c :: rest => if c = slash then rest :: afterSlashes rest else afterSlashes rest

/-- The suffixes of a path that follow bytes of its first component. -/
def inComponent : List UInt8 → List (List UInt8)
  | [] => [[]]
  | c :: rest => if c = slash then [c :: rest] else (c :: rest) :: inComponent rest

mutual

/-- What can be left of a path after a piece. -/
def rests : Piece → List UInt8 → List (List UInt8)
  | byte b, c :: rest => if b = c then [rest] else []
  | any, c :: rest => if c = slash then [] else [rest]
  | set negated ranges, c :: rest =>
    if (ranges.any fun r => r.1 ≤ c ∧ c ≤ r.2) != negated then [rest] else []
  | star, path => inComponent path
  | leading, path => path :: afterSlashes path
  | trailing, c :: rest => if c = slash then suffixes rest else []
  | between, c :: rest => if c = slash then rest :: afterSlashes rest else []
  | choice [], path => [path]
  | choice (first :: others), path => restsOfAny (first :: others) path
  | all, path => suffixes path
  | _, [] => []

/-- What can be left after all of some pieces, of one of some paths. -/
def restsOfAll : List Piece → List (List UInt8) → List (List UInt8)
  | [], paths => paths
  | p :: ps, paths => restsOfAll ps (paths.flatMap p.rests).eraseDups

/-- What can be left of a path after one of some alternatives. -/
def restsOfAny : List (List Piece) → List UInt8 → List (List UInt8)
  | [], _ => []
  | ps :: others, path => restsOfAll ps [path] ++ restsOfAny others path

end

end Piece

/-- Whether a glob matches a path. -/
def Glob.matches (glob : Glob) (path : List UInt8) : Bool :=
  (Piece.restsOfAll glob [path]).any (·.isEmpty)

/-! ## Classes -/

/-- The bytes of a character. -/
def bytesOf (c : Char) : List UInt8 :=
  (String.singleton c).toUTF8.toList

/-- The ranges of bytes for a range of characters. Beyond one byte, the bytes of both ends count one
by one, and only the last of the first end and the first of the last end make a range. -/
def byteRanges (lo hi : Char) : List (UInt8 × UInt8) :=
  let one (b : UInt8) : UInt8 × UInt8 := (b, b)
  if lo = hi then (bytesOf lo).map one
  else
    ((bytesOf lo).dropLast ++ (bytesOf hi).drop 1).map one ++
      [((bytesOf lo).getLastD 0, (bytesOf hi).headD 0)]

/-- What stands between the brackets of a class, with what follows the class; `none` if it is not
closed. `ranges` are those read so far, the last one first, and `started` tells whether a dash came
after the last of them. -/
def readRanges (first started : Bool) (ranges : List (Char × Char)) :
    List Char → Except GlobError (Option (List (Char × Char) × List Char))
  | [] => .ok none
  | c :: rest =>
    if c = ']' ∧ !first then
      .ok (some ((if started then ('-', '-') :: ranges else ranges).reverse, rest))
    else if c = '-' ∧ !first ∧ !started then readRanges false true ranges rest
    else if started then
      match ranges with
      | [] => readRanges false false [(c, c)] rest
      | (lo, _) :: others =>
        if c < lo then .error (.backwards lo c)
        else readRanges false false ((lo, c) :: others) rest
    else readRanges false false ((c, c) :: ranges) rest

/-- Reads a class after its opening bracket. -/
def readClass (cs : List Char) : Except GlobError (Option (Piece × List Char)) :=
  let (negated, cs) := match cs with
    | '!' :: rest => (true, rest)
    | '^' :: rest => (true, rest)
    | _ => (false, cs)
  (readRanges true false [] cs).map fun found => found.map fun (ranges, rest) =>
    (.set negated (ranges.flatMap fun r => byteRanges r.1 r.2), rest)

theorem readRanges_length {first started : Bool} {ranges found : List (Char × Char)}
    {cs rest : List Char} (h : readRanges first started ranges cs = .ok (some (found, rest))) :
    rest.length < cs.length := by
  induction cs generalizing first started ranges with
  | nil => simp [readRanges] at h
  | cons c cs ih =>
    unfold readRanges at h
    split at h
    · simp_all
    · split at h
      · exact Nat.lt_succ_of_lt (ih h)
      · split at h
        · split at h
          · exact Nat.lt_succ_of_lt (ih h)
          · split at h
            · simp at h
            · exact Nat.lt_succ_of_lt (ih h)
        · exact Nat.lt_succ_of_lt (ih h)

theorem readClass_length {cs rest : List Char} {p : Piece}
    (h : readClass cs = .ok (some (p, rest))) : rest.length < cs.length := by
  unfold readClass at h
  cases hr : readRanges true false []
      (match cs with
        | '!' :: rest => (true, rest)
        | '^' :: rest => (true, rest)
        | _ => (false, cs)).2 with
  | error e => simp_all [Except.map]
  | ok found =>
    cases found with
    | none => simp_all [Except.map]
    | some found =>
      obtain ⟨ranges, left⟩ := found
      have hl := readRanges_length hr
      have hleft : left = rest := by simp_all [Except.map]
      subst hleft
      split at hl <;> simp_all <;> omega

/-! ## Reading -/

/-- A group of alternatives that is being read, or the glob itself. -/
structure Group where
  /-- The alternatives that are complete. -/
  done : List (List Piece) := []
  /-- The pieces of the alternative that is being read, the last one first. -/
  current : List Piece := []

namespace Group

/-- Adds pieces. -/
def push (g : Group) (pieces : List Piece) : Group :=
  { g with current := pieces.reverse ++ g.current }

/-- Adds a character that stands for itself. -/
def pushChar (g : Group) (c : Char) : Group :=
  g.push ((bytesOf c).map .byte)

/-- Starts the next alternative. -/
def next (g : Group) : Group :=
  { done := g.done ++ [g.current.reverse] }

/-- The group as a piece. Alternatives with nothing in them do not count. -/
def piece (g : Group) : Piece :=
  .choice (g.next.done.filter fun ps => !ps.all isNothing)
where
  /-- Whether a piece is a group without alternatives. -/
  isNothing : Piece → Bool
    | .choice [] => true
    | _ => false

/-- Adds two stars, given the characters before and after them. They stand for components if slashes
or the ends of the glob are around them, or those of an alternative; what comes before them is then
a part of them, and the answer tells whether the slash after them is too. -/
def pushStars (g : Group) (inGroup : Bool) (before after : Option Char) : Group × Bool :=
  let plain := (g.push [.star, .star], false)
  let join (p : Piece) : Group := match g.current with
    | .leading :: _ | .trailing :: _ | [] => g
    | _ :: earlier => { g with current := p :: earlier }
  if g.current.isEmpty then
    match after with
    | none => (g.push [.leading], false)
    | some '/' => (g.push [.leading], true)
    | some _ => plain
  else if before = some '/' ∨ (inGroup ∧ (before = some ',' ∨ before = some '\x7b')) then
    match after with
    | none => (join .trailing, false)
    | some '/' => (join .between, true)
    | some c => if inGroup ∧ (c = ',' ∨ c = '\x7d') then (join .trailing, false) else plain
  else plain

end Group

/-- Reads a glob from some character on. `outer` are the groups around the current one, the
innermost first, and `before` is the character before. A bracket that opens no class stands for
itself. -/
def readPieces (g : Group) (outer : List Group) (before : Option Char) :
    List Char → Except GlobError (List Piece)
  | [] => if outer.isEmpty then .ok g.current.reverse else .error .unclosed
  | '?' :: rest => readPieces (g.push [.any]) outer (some '?') rest
  | '*' :: '*' :: rest =>
    match g.pushStars (!outer.isEmpty) before rest.head? with
    | (g, true) => readPieces g outer (some '/') (rest.drop 1)
    | (g, false) => readPieces g outer (some '*') rest
  | '*' :: rest => readPieces (g.push [.star]) outer (some '*') rest
  | '[' :: rest =>
    match _h : readClass rest with
    | .ok (some (p, left)) => readPieces (g.push [p]) outer (some ']') left
    | .ok none => readPieces (g.pushChar '[') outer (some '[') rest
    | .error e => .error e
  | '\x7b' :: rest => readPieces {} (g :: outer) (some '\x7b') rest
  | '\x7d' :: rest =>
    match outer with
    | [] => .error .unopened
    | around :: outer => readPieces (around.push [g.piece]) outer (some '\x7d') rest
  | ',' :: rest =>
    readPieces (if outer.isEmpty then g.pushChar ',' else g.next) outer (some ',') rest
  | '\\' :: [] => .error .dangling
  | '\\' :: c :: rest => readPieces (g.pushChar c) outer (some c) rest
  | c :: rest => readPieces (g.pushChar c) outer (some c) rest
termination_by cs => cs.length
decreasing_by
  all_goals simp_wf
  all_goals try have hlt := readClass_length ‹_›
  all_goals omega

/-- Reads a glob. Two stars alone match everything. -/
def Glob.parse (text : List Char) : Except GlobError Glob :=
  (readPieces {} [] none text).map fun
    | [.leading] => [.all]
    | pieces => pieces

end FactStream.Ignore
