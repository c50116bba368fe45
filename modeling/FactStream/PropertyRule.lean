import FactStream.Dictionary
import FactStream.Json
import FactStream.Notice

/-!
# Rules that change properties

A rule looks at the properties of a fact and asks for changes. Rules are found by the name of the
fact. There are none so far, so nothing is ever changed.
-/

namespace FactStream

/-- A change of a property. -/
structure PropertyChange where
  action : String
  argument : String
  property : String
  deriving DecidableEq, Repr

/-- A change as a JSON object. -/
def PropertyChange.json (c : PropertyChange) : Json :=
  .object [("action", .text c.action), ("arg", .text c.argument), ("prop", .text c.property)]

/-- The changes that a rule asks for, given the properties of a fact. -/
abbrev PropertyRule := Dictionary String → List PropertyChange

namespace PropertyRule

/-- The rules by the names of facts. -/
def all : List (String × PropertyRule) := []

/-- Names and values that take turns, and a name at the end without a value. -/
def pairs : List String → List (String × String) × Option String
  | [] => ([], none)
  | [name] => ([], some name)
  | name :: value :: rest => ((name, value) :: (pairs rest).1, (pairs rest).2)

/-- The changes for a fact whose properties are given as names and values in turn. -/
def changes (fact : String) (properties : List String) : List PropertyChange × List Notice :=
  let (given, dangling) := pairs properties
  (((all.lookup fact).map fun rule => rule (.ofList given)).getD [],
   (dangling.map fun name => .noValue fact name).toList)

end PropertyRule

end FactStream
