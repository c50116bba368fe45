/-!
# Double precision numbers

A `Double` is not a number, an infinity, or a sign with `significand * 2 ^ exponent`. It comes from
its 64 bits or from a decimal, which is rounded to the nearest double, a tie going to the even
significand. All arithmetic is exact.
-/

namespace FactStream.Number

/-- A double precision number. A finite one is `significand * 2 ^ exponent` with a sign. -/
inductive Double where
  | nan
  | infinite (negative : Bool)
  | finite (negative : Bool) (significand : Nat) (exponent : Int)
  deriving DecidableEq, Repr

namespace Double

/-- The exponent of the smallest positive double. -/
def leastExponent : Int := -1074

/-- The largest exponent of a finite double. -/
def greatestExponent : Int := 971

/-- The number with the given bits: sign, eleven exponent bits, fifty-two fraction bits. -/
def ofBits (bits : Nat) : Double :=
  let negative : Bool := bits / Nat.pow 2 63 % 2 = 1
  let biased : Nat := bits / Nat.pow 2 52 % 2048
  let fraction : Nat := bits % Nat.pow 2 52
  if biased = 2047 then
    if fraction = 0 then .infinite negative else .nan
  else if biased = 0 then .finite negative fraction leastExponent
  else .finite negative (Nat.pow 2 52 + fraction) (biased - 1075)

/-- `num / den` rounded to the nearest natural number, a tie to the even one. -/
def roundEven (num den : Nat) : Nat :=
  let floor := num / den
  let twice := 2 * (num % den)
  if twice < den then floor
  else if den < twice then floor + 1
  else if floor % 2 = 0 then floor else floor + 1

/-- `num / den` in units of `2 ^ exponent`, as a fraction. -/
def scaled (num den : Nat) (exponent : Int) : Nat × Nat :=
  match exponent with
  | .ofNat e => (num, den * Nat.pow 2 e)
  | .negSucc e => (num * Nat.pow 2 (e + 1), den)

/-- The double nearest to `num / den`. -/
def ofFraction (negative : Bool) (num den : Nat) : Double :=
  if num = 0 then .finite negative 0 leastExponent else
  let low : Int := max leastExponent ((num.log2 : Int) - den.log2 - 53)
  let floorAt (e : Int) : Nat := (scaled num den e).1 / (scaled num den e).2
  let exponent := if floorAt low < Nat.pow 2 53 then low else low + 1
  let significand := roundEven (scaled num den exponent).1 (scaled num den exponent).2
  let (significand, exponent) :=
    if significand = Nat.pow 2 53 then (Nat.pow 2 52, exponent + 1) else (significand, exponent)
  if greatestExponent < exponent then .infinite negative
  else .finite negative significand exponent

/-- The double nearest to `digits * 10 ^ exponent`, where `digits` has `count` decimal digits.
Beyond the range of doubles the answer needs no arithmetic: infinity or zero. -/
def ofDecimal (negative : Bool) (digits count : Nat) (exponent : Int) : Double :=
  if digits = 0 then .finite negative 0 leastExponent
  else if 400 < exponent + count then .infinite negative
  else if exponent + count < -400 then .finite negative 0 leastExponent
  else match exponent with
    | .ofNat e => ofFraction negative (digits * Nat.pow 10 e) 1
    | .negSucc e => ofFraction negative digits (Nat.pow 10 (e + 1))

/-- The whole number a double is, if it is one. -/
def toInt? : Double → Option Int
  | .finite negative significand exponent =>
    let magnitude? := match exponent with
      | .ofNat e => some (significand * Nat.pow 2 e)
      | .negSucc e =>
        let unit := Nat.pow 2 (e + 1)
        if significand % unit = 0 then some (significand / unit) else none
    magnitude?.map fun n => if negative then -(n : Int) else n
  | _ => none

end Double

end FactStream.Number
