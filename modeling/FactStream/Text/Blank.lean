/-!
# Blank characters

The characters with the Unicode property `White_Space`, and cutting them off a text.
-/

namespace FactStream.Text

/-- Whether a character has the Unicode property `White_Space`. -/
def isBlank (c : Char) : Bool :=
  let code := c.toNat
  (9 ≤ code ∧ code ≤ 13) ∨ code = 0x20 ∨ code = 0x85 ∨ code = 0xA0 ∨ code = 0x1680 ∨
    (0x2000 ≤ code ∧ code ≤ 0x200A) ∨ code = 0x2028 ∨ code = 0x2029 ∨ code = 0x202F ∨
    code = 0x205F ∨ code = 0x3000

/-- Text without blanks at its start. -/
def trimBlankStart (cs : List Char) : List Char :=
  cs.dropWhile isBlank

/-- Text without blanks at its end. -/
def trimBlankEnd (cs : List Char) : List Char :=
  (cs.reverse.dropWhile isBlank).reverse

/-- Text without blanks at its ends. -/
def trimBlank (cs : List Char) : List Char :=
  trimBlankEnd (trimBlankStart cs)

end FactStream.Text
