import FactStream.Number.Decimal
import FactStream.Text.Escape
import FactStream.Text.Slice
import FactStream.Value

/-!
# C# literals

The values of number, string and character literals of C#.
-/

namespace FactStream.CSharp

open Number Text

/-! ## Numbers -/

/-- The value of a numeral, or the literal itself if it has none that fits. -/
def integerOr (literal : List Char) (value : Option Int) : Value :=
  match value with
  | some i => .int i
  | none => .text (String.ofList literal)

/-- Whether a literal in lower case is one of a real number: it has a point, an exponent or the
suffix of a real type. -/
def isReal (lower : List Char) : Bool :=
  lower.any (fun c => c = '.' ∨ c = 'e') ||
    lower.getLast?.any (fun c => c = 'f' ∨ c = 'd' ∨ c = 'm')

/-- The value of a number literal: an integer, a real number, or the literal without underscores if
it does not fit. -/
def numberOfLiteral (raw : List Char) : Value :=
  let digits := raw.filter (· ≠ '_')
  let isSuffix (c : Char) : Bool := c = 'u' ∨ c = 'l'
  match digits.map lowerAscii with
  | '0' :: 'x' :: hex => integerOr digits (readInt64? 16 (trimEnd isSuffix hex))
  | '0' :: 'b' :: binary => integerOr digits (readInt64? 2 (trimEnd isSuffix binary))
  | lower =>
    let number := trimEnd (fun c => isSuffix c ∨ c = 'f' ∨ c = 'd' ∨ c = 'm') lower
    if isReal lower then
      match readDouble? number with
      | some f => .float f
      | none => .text (String.ofList digits)
    else integerOr digits (readInt64? 10 number)

/-! ## Strings -/

/-- A multi-line raw string without its first line break, its last line, and the indentation of the
last line in front of every line. Any other body is its own value. -/
def rawLines (body : List Char) : List Char :=
  match (dropStart? ['\n'] body).or (dropStart? ['\r', '\n'] body) with
  | none => body
  | some inner =>
    let indent := (inner.reverse.takeWhile (· ≠ '\n')).reverse
    let content := inner.take (inner.length - indent.length)
    let (content, indent) :=
      if content.isEmpty then (inner, []) else (trimEnd (· = '\r') content.dropLast, indent)
    joinLists ['\n'] ((lines content).map fun line => (dropStart? indent line).getD line)

/-- The literal without an encoding suffix after its closing quote. -/
def dropEncoding (raw : List Char) : List Char :=
  match dropEnd? ['u', '8'] raw with
  | some rest => if rest.getLast? = some '"' then rest else raw
  | none => raw

/-- The value of a string or character literal. Three quotes open a raw string, an at sign a
verbatim one. -/
def textOfLiteral (literal : List Char) : List Char :=
  let raw := dropEncoding literal
  let quotes := (raw.takeWhile (· = '"')).length
  if 3 ≤ quotes then
    rawLines ((takeBytes? (byteLength raw - 2 * quotes) (raw.drop quotes)).getD [])
  else
    match (dropStart? ['@', '"'] raw).bind (dropEnd? ['"']) with
    | some body => undouble body
    | none => unescape cSharpEscapes ((unquote? raw).getD raw)

end FactStream.CSharp
