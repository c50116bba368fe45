/-!
# Reading integers

A numeral is a non-empty run of digits in some radix, with an optional sign. The readers answer
`none` for anything else, and for a value outside the range asked for.
-/

namespace FactStream.Number

/-- The value of a digit, `0` to `9` and then the letters in either case. -/
def digitValue? (radix : Nat) (c : Char) : Option Nat :=
  let value? :=
    if '0' ≤ c ∧ c ≤ '9' then some (c.toNat - '0'.toNat)
    else if 'a' ≤ c ∧ c ≤ 'z' then some (c.toNat - 'a'.toNat + 10)
    else if 'A' ≤ c ∧ c ≤ 'Z' then some (c.toNat - 'A'.toNat + 10)
    else none
  value?.filter (· < radix)

/-- The value of a run of digits read after digits of value `acc`. -/
def readDigits? (radix : Nat) (acc : Nat) : List Char → Option Nat
  | [] => some acc
  | c :: rest =>
    match digitValue? radix c with
    | some d => readDigits? radix (acc * radix + d) rest
    | none => none

/-- The value of a non-empty run of digits. -/
def readNat? (radix : Nat) : List Char → Option Nat
  | [] => none
  | digits => readDigits? radix 0 digits

/-- A numeral without minus sign, of value below `bound`. A leading plus is allowed. -/
def readBelow? (bound radix : Nat) (digits : List Char) : Option Nat :=
  let value? := match digits with
    | '+' :: rest => readNat? radix rest
    | _ => readNat? radix digits
  value?.filter (· < bound)

/-- A signed numeral that fits 64 bits in two's complement. -/
def readInt64? (radix : Nat) (digits : List Char) : Option Int :=
  match digits with
  | '-' :: rest => ((readNat? radix rest).filter (· ≤ Nat.pow 2 63)).map fun n => -(n : Int)
  | '+' :: rest => ((readNat? radix rest).filter (· < Nat.pow 2 63)).map Int.ofNat
  | _ => ((readNat? radix digits).filter (· < Nat.pow 2 63)).map Int.ofNat

/-- The 64-bit two's complement reading of a natural number: from `2 ^ 63` on it is negative. -/
def wrap64 (n : Nat) : Int :=
  Int.bmod n (Nat.pow 2 64)

end FactStream.Number
