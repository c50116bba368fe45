import FactStream.Fact

/-!
# Sinks

A sink takes in the facts of a run one after the other, or refuses one. What it has taken in so far
is its state.
-/

namespace FactStream

/-- Why a sink refused a fact. -/
inductive Refusal where
  /-- The fact could not be delivered. -/
  | emit (message : String)
  /-- The record of the fact could not be written. -/
  | record (message : String)
  deriving DecidableEq, Repr

/-- A receiver of facts with states in `σ`. -/
structure Sink (σ : Type) where
  /-- Takes in a fact. The state counts also if the fact is refused. -/
  accept : σ → Fact → σ × Option Refusal

namespace Sink

/-- Keeps the facts. With a limit, it refuses every fact beyond that number. -/
def collect (limit : Option Nat := none) (message : String := "") : Sink (Array Fact) where
  accept facts fact :=
    if limit.any (· ≤ facts.size) then (facts, some (.emit message)) else (facts.push fact, none)

end Sink

end FactStream
