import FactStream.Number.Decimal
import FactStream.Text.Ascii
import FactStream.Text.Blank
import FactStream.Text.Escape
import FactStream.Value

/-!
# TypeScript literals

The values of number and string literals of TypeScript and JavaScript.
-/

namespace FactStream.TypeScript

open Number Text

/-! ## Numbers -/

/-- The radix a literal is marked with. -/
def radix? : List Char → Option Nat
  | '0' :: mark :: _ =>
    match lowerAscii mark with
    | 'x' => some 16
    | 'o' => some 8
    | 'b' => some 2
    | _ => none
  | _ => none

/-- A double as an integer if it is one of small size. -/
def integerOrFloat (f : Double) : Value :=
  match f.toInt? with
  | some i => if i.natAbs < 9 * Nat.pow 10 15 then .int i else .float f
  | none => .float f

/-- The value of a number literal. One that is too large for its radix, and a big integer, is the
literal without underscores. -/
def numberOfLiteral (raw : List Char) : Value :=
  let digits := raw.filter (· ≠ '_')
  let literal : Value := .text (String.ofList digits)
  if digits.getLast? = some 'n' then literal
  else match radix? digits with
    | some radix => ((readInt64? radix (digits.drop 2)).map Value.int).getD literal
    | none => ((readDouble? digits).map integerOrFloat).getD literal

/-! ## Strings -/

/-- The value of a quoted string. The strings of markup attributes have no escapes. -/
def stringText (inAttribute : Bool) (raw : List Char) : String :=
  let body := (unquote? raw).getD raw
  String.ofList (if inAttribute then body else unescape javaScriptEscapes body)

/-- The two sides of a meta property such as `new.target`; both are empty if there is no point. -/
def metaParts (raw : List Char) : String × String :=
  match raw.dropWhile (· ≠ '.') with
  | [] => ("", "")
  | _ :: property =>
    (String.ofList (trimBlank (raw.takeWhile (· ≠ '.'))), String.ofList (trimBlank property))

end FactStream.TypeScript
