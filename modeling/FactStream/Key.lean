import FactStream.Failure
import FactStream.Number.Integer

/-!
# Keys

Every fact of a run has a key `trunk_n`. The number `n` counts up from the one the run was started
with, so no key is given twice. A run is started with a trunk key, `trunk` or `trunk_n`.

The numbers have no bound here. A counter of 64 bits has them modulo `2 ^ 64` (`KeyCounter.word`),
which is the same until it has given out the key with the greatest number it can hold.
-/

namespace FactStream

/-- Gives out the keys `trunk_(last + 1)`, `trunk_(last + 2)` and so on. -/
structure KeyCounter where
  /-- The number every key starts with. -/
  trunk : Nat
  /-- The number of the key given out last. -/
  last : Nat
  deriving DecidableEq, Repr

namespace KeyCounter

/-- A non-empty run of decimal digits of a value below `2 ^ 64`. -/
def readPart? (digits : List Char) : Option Nat :=
  (Number.readNat? 10 digits).filter (· < Nat.pow 2 64)

/-- Reads a trunk key: one or two numbers, with an underscore between them. -/
def parse? (trunkKey : String) : Option KeyCounter :=
  let chars := trunkKey.toList
  let stem := chars.takeWhile (· ≠ '_')
  match chars.dropWhile (· ≠ '_') with
  | [] => (readPart? stem).map fun trunk => ⟨trunk, 0⟩
  | _ :: rest =>
    match readPart? stem, readPart? rest with
    | some trunk, some last => some ⟨trunk, last⟩
    | _, _ => none

/-- The counter that a trunk key starts. A failure names the trunk key as it was given. -/
def start (trunkKey : String) : Except Failure KeyCounter :=
  match parse? trunkKey with
  | some keys => .ok keys
  | none => .error (.badTrunk trunkKey)

/-- The key with number `n`. -/
def key (keys : KeyCounter) (n : Nat) : String :=
  keys.trunk.repr ++ "_" ++ n.repr

/-- The next key, and the counter after it was given out. -/
def next (keys : KeyCounter) : String × KeyCounter :=
  (keys.key (keys.last + 1), { keys with last := keys.last + 1 })

/-- The number of the key given out last in a counter of 64 bits, which goes on with zero after the
greatest number. -/
def word (keys : KeyCounter) : UInt64 :=
  UInt64.ofNat keys.last

end KeyCounter

end FactStream
