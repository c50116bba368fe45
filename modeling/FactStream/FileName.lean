import FactStream.Path

/-!
# Names of files

A file system takes any bytes for a name. Where these are no UTF-8, a name is shown with a
replacement character, so two names may be shown alike.
-/

namespace FactStream

/-- A piece of a name: a character, or bytes that are part of none. -/
inductive NamePiece where
  | char (c : Char)
  | stray (bytes : List UInt8)
  deriving DecidableEq, Repr

namespace NamePiece

/-- The character that a piece is shown as. -/
def shown : NamePiece → Char
  | char c => c
  | stray _ => '\ufffd'

/-- The bytes of a piece. -/
def bytes : NamePiece → List UInt8
  | char c => String.utf8EncodeChar c
  | stray bytes => bytes

/-- The characters of some pieces, if they are all characters. -/
def chars? : List NamePiece → Option (List Char)
  | [] => some []
  | char c :: rest => (chars? rest).map (c :: ·)
  | stray _ :: _ => none

theorem chars?_eq_some_iff {pieces : List NamePiece} {cs : List Char} :
    chars? pieces = some cs ↔ pieces = cs.map char := by
  induction pieces generalizing cs with
  | nil => cases cs <;> simp [chars?]
  | cons piece rest ih =>
    cases piece with
    | stray bytes => cases cs <;> simp [chars?]
    | char c =>
      simp only [chars?, Option.map_eq_some_iff, ih]
      constructor
      · rintro ⟨tail, rfl, rfl⟩
        rfl
      · intro h
        obtain ⟨head, tail, rfl⟩ : ∃ head tail, cs = head :: tail := by
          cases cs with
          | nil => simp at h
          | cons head tail => exact ⟨head, tail, rfl⟩
        obtain ⟨rfl, rfl⟩ : c = head ∧ rest = tail.map char := by simpa using h
        exact ⟨tail, rfl, rfl⟩

end NamePiece

/-- The name of an entry of a directory. -/
structure FileName where
  pieces : List NamePiece
  deriving DecidableEq, Repr

namespace FileName

/-- A name that is text. -/
def ofText (s : String) : FileName := ⟨s.toList.map .char⟩

instance : Coe String FileName := ⟨ofText⟩

/-- A name as it is shown. -/
def text (name : FileName) : String := String.ofList (name.pieces.map (·.shown))

/-- The bytes of a name. -/
def bytes (name : FileName) : List UInt8 := name.pieces.flatMap (·.bytes)

/-- What follows the last dot of a name, if it is text. A dot at the start of a name does not
count. -/
def extension? (name : FileName) : Option String :=
  ((Path.afterLast? (.char '.') name.pieces).bind NamePiece.chars?).map String.ofList

@[simp] theorem pieces_ofText (s : String) : (ofText s).pieces = s.toList.map .char := rfl

@[simp] theorem text_ofText (s : String) : (ofText s).text = s := by
  simp [text, ofText, Function.comp_def, NamePiece.shown]

theorem extension?_ofText (s : String) : (ofText s).extension? = Path.extensionOf? s := by
  have htail : (Path.afterLast? (.char '.') (s.toList.map .char)).bind NamePiece.chars? =
      Path.afterLast? '.' s.toList := by
    unfold Path.afterLast?
    rw [← List.map_reverse, List.takeWhile_map, ← List.map_reverse]
    simp only [List.length_map, Function.comp_def, ne_eq, NamePiece.char.injEq]
    split
    · exact NamePiece.chars?_eq_some_iff.2 rfl
    · rfl
  rw [extension?, pieces_ofText, htail, Path.extensionOf?]

@[simp] theorem ofText_inj {s t : String} : ofText s = ofText t ↔ s = t := by
  constructor
  · intro h
    rw [← text_ofText s, h, text_ofText]
  · exact congrArg ofText

end FileName

end FactStream
