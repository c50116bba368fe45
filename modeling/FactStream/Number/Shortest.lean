/-!
# Shortest decimals

Of the decimals that round to a positive double, `shortest` takes one with the fewest digits, and
of those the nearest; of two equally near ones the upper. A double `m * 2 ^ q` is itself a decimal,
and so are the ends of the interval of reals that round to it, so the search compares whole numbers.
-/

namespace FactStream.Number

/-- The significant digits of a positive number, `0.digits * 10 ^ point`. -/
structure Digits where
  /-- The digits, the first and the last of them not zero. -/
  digits : List Char
  /-- The position of the decimal point, counted from the first digit. -/
  point : Int
  deriving DecidableEq, Repr

/-- The interval of whole numbers, in units of `10 ^ -places`, that round to a given double. -/
structure Rounding where
  /-- The double itself. -/
  value : Nat
  /-- Half way to the double below. -/
  low : Nat
  /-- Half way to the double above. -/
  high : Nat
  /-- Whether the two ends round to the double as well. -/
  closed : Bool
  /-- The number of decimal places of the unit. -/
  places : Nat

namespace Rounding

/-- The rounding interval of `significand * 2 ^ exponent`. The double below a power of two is half
as far away as the one above, unless both have the smallest exponent. -/
def ofDouble (significand : Nat) (exponent : Int) : Rounding :=
  let below := if significand = Nat.pow 2 52 ∧ -1074 < exponent then 1 else 2
  let unit (n : Nat) : Nat := match exponent - 2 with
    | .ofNat e => n * Nat.pow 2 e
    | .negSucc e => n * Nat.pow 5 (e + 1)
  { value := unit (4 * significand)
    low := unit (4 * significand - below)
    high := unit (4 * significand + 2)
    closed := significand % 2 = 0
    places := (2 - exponent).toNat }

/-- Whether a decimal rounds to the double. -/
def contains (r : Rounding) (n : Nat) : Bool :=
  if r.closed then r.low ≤ n ∧ n ≤ r.high else r.low < n ∧ n < r.high

/-- The multiple of `grid` that rounds to the double and is nearest to it, of the two beside it. -/
def onGrid? (r : Rounding) (grid : Nat) : Option Nat :=
  let floor := r.value / grid * grid
  let ceiling := floor + grid
  match r.contains floor, r.contains ceiling with
  | true, true => some (if ceiling - r.value ≤ r.value - floor then ceiling else floor)
  | true, false => some floor
  | false, true => some ceiling
  | false, false => none

end Rounding

/-- Digits of a numeral without the zeros at its end. -/
def dropTrailingZeros (digits : List Char) : List Char :=
  (digits.reverse.dropWhile (· = '0')).reverse

/-- The shortest digits that round to the positive double `significand * 2 ^ exponent`. -/
def shortest (significand : Nat) (exponent : Int) : Digits :=
  let r := Rounding.ofDouble significand exponent
  let size := (Nat.toDigits 10 r.value).length
  let hit? := (List.range 17).findSome? fun n => r.onGrid? (Nat.pow 10 (size - (n + 1)))
  let digits := Nat.toDigits 10 (hit?.getD r.value)
  { digits := dropTrailingZeros digits
    point := (digits.length : Int) - r.places }

end FactStream.Number
