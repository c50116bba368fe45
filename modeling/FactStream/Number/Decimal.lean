import FactStream.Number.Double
import FactStream.Number.Integer
import FactStream.Text.Ascii

/-!
# Reading decimal numerals

A decimal numeral is an optional sign and either digits with at most one point, at least one digit
and an optional exponent, or one of the words `inf`, `infinity` and `nan` in any case.
-/

namespace FactStream.Number

open Text (lowerAscii)

/-- Splits off the leading decimal digits. -/
def spanDigits (cs : List Char) : List Char × List Char :=
  (cs.takeWhile fun c => '0' ≤ c ∧ c ≤ '9', cs.dropWhile fun c => '0' ≤ c ∧ c ≤ '9')

/-- The value of an exponent with its mark, or zero when there is nothing left to read. -/
def readExponent? : List Char → Option Int
  | [] => some 0
  | mark :: rest =>
    if lowerAscii mark = 'e' then
      match rest with
      | '-' :: digits => (readNat? 10 digits).map fun n => -(n : Int)
      | '+' :: digits => (readNat? 10 digits).map Int.ofNat
      | digits => (readNat? 10 digits).map Int.ofNat
    else none

/-- The double nearest to `whole.fraction * 10 ^ exponent`. -/
def decimalValue (negative : Bool) (whole fraction : List Char) (exponent : Int) : Double :=
  let significant := (whole ++ fraction).dropWhile (· = '0')
  .ofDecimal negative ((readDigits? 10 0 significant).getD 0) significant.length
    (exponent - fraction.length)

/-- Reads the part of a numeral after its sign. -/
def readUnsigned? (negative : Bool) (cs : List Char) : Option Double :=
  let word := cs.map lowerAscii
  if word = ['n', 'a', 'n'] then some .nan
  else if word = ['i', 'n', 'f'] ∨ word = ['i', 'n', 'f', 'i', 'n', 'i', 't', 'y'] then
    some (.infinite negative)
  else
    let (whole, rest) := spanDigits cs
    let (fraction, rest) := match rest with
      | '.' :: rest => spanDigits rest
      | _ => ([], rest)
    if whole.isEmpty ∧ fraction.isEmpty then none
    else (readExponent? rest).map (decimalValue negative whole fraction)

/-- Reads a decimal numeral as the nearest double. -/
def readDouble? : List Char → Option Double
  | '-' :: rest => readUnsigned? true rest
  | '+' :: rest => readUnsigned? false rest
  | cs => readUnsigned? false cs

end FactStream.Number
