import FactStream.Number.Integer
import FactStream.Number.Layout

/-!
# Property values

A property of a fact is written as the name of its type and a text. How the types are called, and
how a number is written, is a matter of the language the fact comes from.
-/

namespace FactStream

open Number

/-- A value before it is written. -/
inductive Value where
  | null
  | bool (b : Bool)
  | int (i : Int)
  | float (f : Double)
  | text (s : String)
  deriving DecidableEq, Repr

instance : Coe Bool Value := ⟨.bool⟩
instance : Coe String Value := ⟨.text⟩

namespace Value

/-- A count, as a signed 64-bit number. -/
def ofNat (n : Nat) : Value := .int (wrap64 n)

/-- A text that may be missing. -/
def ofText? : Option String → Value
  | some s => .text s
  | none => .null

end Value

/-- A property as it is written: the name of its type and its text. -/
structure Property where
  typeName : String
  value : String
  deriving DecidableEq, Repr

/-- How a language calls the types of values and writes numbers. -/
inductive Naming where
  /-- The answers of `typeof`. -/
  | javaScript
  /-- The type names of the common language runtime. -/
  | clr
  /-- Every value is a string. -/
  | php
  deriving DecidableEq, Repr

namespace Naming

/-- Numbers from `1e-6` to below `1e21` are written out. -/
def javaScriptLayout : Layout where
  positional n := -5 ≤ n ∧ n ≤ 21
  mark := 'e'
  exponentWidth := 1
  signedZero := false
  infinity := "Infinity"

/-- Numbers from `1e-4` to below `1e15` are written out, and an exponent has two digits at least. -/
def clrLayout : Layout where
  positional n := -3 ≤ n ∧ n ≤ 15
  mark := 'E'
  exponentWidth := 2
  signedZero := true
  infinity := "∞"

/-- The number format of a language. -/
def layout : Naming → Layout
  | .clr => clrLayout
  | .javaScript | .php => javaScriptLayout

/-- The name of the type of a value. -/
def typeName : Naming → Value → String
  | _, .null => "null"
  | .php, _ => "string"
  | .javaScript, .bool _ => "boolean"
  | .javaScript, .int _ => "number"
  | .javaScript, .float _ => "number"
  | .javaScript, .text _ => "string"
  | .clr, .bool _ => "Boolean"
  | .clr, .int i => if -2147483648 ≤ i ∧ i ≤ 2147483647 then "Int32" else "Int64"
  | .clr, .float _ => "Double"
  | .clr, .text _ => "String"

/-- The text of a value. -/
def render (naming : Naming) : Value → String
  | .null => ""
  | .bool b => if b then "true" else "false"
  | .int i => i.repr
  | .float f => naming.layout.render f
  | .text s => s

/-- A value as a property. -/
def property (naming : Naming) (value : Value) : Property :=
  ⟨naming.typeName value, naming.render value⟩

end Naming

end FactStream
