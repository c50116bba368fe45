import FactStream.Number.Decimal
import FactStream.Number.Layout
import FactStream.Text.Escape
import FactStream.Text.Slice

/-!
# PHP literals

The values of number and string literals of PHP, as texts.
-/

namespace FactStream.Php

open Number Text

/-! ## Numbers -/

/-- A literal without underscores, in lower case. -/
def bareDigits (raw : List Char) : List Char :=
  (raw.filter (· ≠ '_')).map lowerAscii

/-- The digits of an integer literal after the mark of its radix, and the radix. -/
def radixOf : List Char → List Char × Nat
  | '0' :: 'x' :: rest => (rest, 16)
  | '0' :: 'b' :: rest => (rest, 2)
  | '0' :: 'o' :: rest => (rest, 8)
  | ['0'] => (['0'], 10)
  | '0' :: rest => (rest, 8)
  | digits => (digits, 10)

/-- The value of an integer literal in decimal, or the bare literal if it does not fit 64 bits. -/
def integerText (raw : List Char) : String :=
  let digits := bareDigits raw
  let (body, radix) := radixOf digits
  match readInt64? radix body with
  | some i => i.repr
  | none => String.ofList digits

/-- The radix of an integer literal. -/
def integerRadix (raw : List Char) : String :=
  (radixOf (bareDigits raw)).2.repr

/-- Real numbers are always written out. -/
def realLayout : Layout where
  positional _ := true
  mark := 'e'
  exponentWidth := 1
  signedZero := true
  infinity := "inf"

/-- The value of a real literal in decimal, or the literal without underscores if it has none. -/
def realText (raw : List Char) : String :=
  let digits := raw.filter (· ≠ '_')
  match readDouble? digits with
  | some f => realLayout.render f
  | none => String.ofList digits

/-! ## Strings -/

/-- The value of a quoted string. The mark of a binary string in front does not count. -/
def stringText (raw : List Char) : String :=
  let body := raw.dropWhile fun c => c = 'b' ∨ c = 'B'
  String.ofList <| match unquote? body with
    | some inner =>
      unescape (if body.head? = some '\x27' then phpSingleEscapes else phpDoubleEscapes) inner
    | none => body

end FactStream.Php
