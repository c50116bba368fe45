import FactStream.Number.Double
import FactStream.Number.Shortest

/-!
# Layout of numbers

A `Layout` holds the decisions of a number format: for which positions of the decimal point a
number is written out, how an exponent looks otherwise, and the texts of zero and the infinities.
-/

namespace FactStream.Number

/-- How a format writes floating point numbers. -/
structure Layout where
  /-- Whether a number whose point stands at this position is written without an exponent. -/
  positional : Int → Bool
  /-- The letter before an exponent. -/
  mark : Char
  /-- The least number of digits of an exponent. -/
  exponentWidth : Nat
  /-- Whether a negative zero keeps its sign. -/
  signedZero : Bool
  /-- The text of positive infinity. -/
  infinity : String

namespace Layout

/-- The digits with the decimal point at its place, padded with zeros. -/
def fixed (d : Digits) : List Char :=
  let count := d.digits.length
  match d.point with
  | .ofNat 0 => '0' :: '.' :: d.digits
  | .ofNat n =>
    if count ≤ n then d.digits ++ List.replicate (n - count) '0'
    else d.digits.take n ++ '.' :: d.digits.drop n
  | .negSucc n => '0' :: '.' :: (List.replicate (n + 1) '0' ++ d.digits)

/-- The digits of a number, with zeros in front up to the given width. -/
def padded (width n : Nat) : List Char :=
  let digits := Nat.toDigits 10 n
  List.replicate (width - digits.length) '0' ++ digits

/-- One digit before the point, the others after it, and a signed exponent. -/
def scientific (layout : Layout) (d : Digits) : List Char :=
  let mantissa := match d.digits with
    | [] => []
    | [first] => [first]
    | first :: rest => first :: '.' :: rest
  let exponent := d.point - 1
  let sign := if exponent < 0 then '-' else '+'
  mantissa ++ layout.mark :: sign :: padded layout.exponentWidth exponent.natAbs

/-- The text of a positive number with the given digits. -/
def digits (layout : Layout) (d : Digits) : List Char :=
  if layout.positional d.point then fixed d else layout.scientific d

/-- The text of a number. -/
def render (layout : Layout) : Double → String
  | .nan => "NaN"
  | .infinite negative => if negative then "-" ++ layout.infinity else layout.infinity
  | .finite negative significand exponent =>
    if significand = 0 then
      if negative ∧ layout.signedZero then "-0" else "0"
    else
      let text := layout.digits (shortest significand exponent)
      String.ofList (if negative then '-' :: text else text)

end Layout

end FactStream.Number
