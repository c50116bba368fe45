import FactStream.Number.Integer

/-!
# Escapes in string literals

The body of a string literal is cooked: each escape sequence is replaced by the character it stands
for. What follows a backslash is read by the rules of a language; if they do not know it, the
backslash stays and reading goes on right after it.
-/

namespace FactStream.Text

/-- What an escape sequence stands for: a character, or nothing for a line continuation. -/
structure Escape where
  char : Option Char
  /-- The number of characters of the sequence after the backslash. -/
  length : Nat

/-- The rules for what follows a backslash. -/
abbrev EscapeRules := List Char → Option Escape

/-- Replaces the escape sequences of a literal body. -/
def unescape (rules : EscapeRules) : List Char → List Char
  | [] => []
  | c :: rest =>
    if c = '\\' ∧ rest ≠ [] then
      match rules rest with
      | some escape => escape.char.toList ++ unescape rules (rest.drop escape.length)
      | none => c :: unescape rules rest
    else c :: unescape rules rest
termination_by cs => cs.length
decreasing_by all_goals simp; try omega

/-! ## Parts of escape sequences -/

/-- The character with a code; the replacement character if there is none. -/
def scalar (code : Nat) : Char :=
  if code.isValidChar then Char.ofNat code else '\ufffd'

/-- Whether a character is a hexadecimal digit. -/
def isHex (c : Char) : Bool := (Number.digitValue? 16 c).isSome

/-- The value and the number of the leading hexadecimal digits, `least` to `most` of them. -/
def hexStart? (least most : Nat) (cs : List Char) : Option (Nat × Nat) :=
  let digits := (cs.take most).takeWhile isHex
  if digits.length < least then none
  else (Number.readDigits? 16 0 digits).map fun code => (code, digits.length)

/-- The character of a code in a given number of hexadecimal digits, after one letter. -/
def hexEscape? (least most : Nat) (cs : List Char) : Option Escape :=
  (hexStart? least most cs).map fun (code, length) => ⟨scalar code, length + 1⟩

/-- The character of a code in braces, after the letter and the opening brace. -/
def bracedEscape? (cs : List Char) : Option Escape :=
  let digits := cs.takeWhile (· ≠ '\x7d')
  if digits.length = cs.length then none
  else (Number.readBelow? (Nat.pow 2 32) 16 digits).map fun code => ⟨scalar code, digits.length + 3⟩

/-- The code of the low half of a surrogate pair, written as `\uXXXX`. -/
def lowSurrogate? : List Char → Option Nat
  | '\\' :: 'u' :: cs =>
    (hexStart? 4 4 cs).bind fun (code, _) =>
      if 0xDC00 ≤ code ∧ code < 0xE000 then some code else none
  | _ => none

/-- The character of four hexadecimal digits after one letter. The high half of a surrogate pair
is joined with a low half that follows it. -/
def unitEscape? (cs : List Char) : Option Escape :=
  (hexStart? 4 4 cs).map fun (high, length) =>
    if 0xD800 ≤ high ∧ high < 0xDC00 then
      match lowSurrogate? (cs.drop length) with
      | some low => ⟨scalar (0x10000 + (high - 0xD800) * 0x400 + (low - 0xDC00)), length + 7⟩
      | none => ⟨scalar high, length + 1⟩
    else ⟨scalar high, length + 1⟩

/-! ## Languages -/

/-- The escapes of ECMAScript string literals. Any other character stands for itself. -/
def javaScriptEscapes : EscapeRules
  | [] => none
  | 'n' :: _ => some ⟨'\n', 1⟩
  | 't' :: _ => some ⟨'\t', 1⟩
  | 'r' :: _ => some ⟨'\r', 1⟩
  | 'b' :: _ => some ⟨'\x08', 1⟩
  | 'f' :: _ => some ⟨'\x0c', 1⟩
  | 'v' :: _ => some ⟨'\x0b', 1⟩
  | 'x' :: rest => hexEscape? 2 2 rest
  | 'u' :: '\x7b' :: rest => bracedEscape? rest
  | 'u' :: rest => unitEscape? rest
  | '\r' :: '\n' :: _ => some ⟨none, 2⟩
  | c :: rest =>
    if c = '0' ∧ !(rest.head?.any fun d => '0' ≤ d ∧ d ≤ '9') then some ⟨'\x00', 1⟩
    else if c = '\n' ∨ c = '\r' ∨ c = '\u2028' ∨ c = '\u2029' then some ⟨none, 1⟩
    else some ⟨c, 1⟩

/-- The escapes of C# strings and characters. -/
def cSharpEscapes : EscapeRules
  | 'a' :: _ => some ⟨'\x07', 1⟩
  | 'b' :: _ => some ⟨'\x08', 1⟩
  | 'e' :: _ => some ⟨'\x1b', 1⟩
  | 'f' :: _ => some ⟨'\x0c', 1⟩
  | 'n' :: _ => some ⟨'\n', 1⟩
  | 'r' :: _ => some ⟨'\r', 1⟩
  | 't' :: _ => some ⟨'\t', 1⟩
  | 'v' :: _ => some ⟨'\x0b', 1⟩
  | '0' :: _ => some ⟨'\x00', 1⟩
  | 'x' :: rest => hexEscape? 1 4 rest
  | 'u' :: rest => unitEscape? rest
  | 'U' :: rest => hexEscape? 8 8 rest
  | c :: _ => if c = '\x27' ∨ c = '"' ∨ c = '\\' then some ⟨c, 1⟩ else none
  | [] => none

/-- The escapes of PHP strings in double quotes. An octal code counts modulo 256. -/
def phpDoubleEscapes : EscapeRules
  | 'n' :: _ => some ⟨'\n', 1⟩
  | 't' :: _ => some ⟨'\t', 1⟩
  | 'r' :: _ => some ⟨'\r', 1⟩
  | 'v' :: _ => some ⟨'\x0b', 1⟩
  | 'e' :: _ => some ⟨'\x1b', 1⟩
  | 'f' :: _ => some ⟨'\x0c', 1⟩
  | 'x' :: rest => hexEscape? 1 2 rest
  | 'u' :: '\x7b' :: rest => bracedEscape? rest
  | c :: rest =>
    if c = '\\' ∨ c = '$' ∨ c = '"' then some ⟨c, 1⟩
    else
      let digits := ((c :: rest).take 3).takeWhile fun d => '0' ≤ d ∧ d ≤ '7'
      if digits.isEmpty then none
      else (Number.readDigits? 8 0 digits).map fun code => ⟨scalar (code % 256), digits.length⟩
  | [] => none

/-- The escapes of PHP strings in single quotes. -/
def phpSingleEscapes : EscapeRules
  | c :: _ => if c = '\\' ∨ c = '\x27' then some ⟨c, 1⟩ else none
  | [] => none

/-! ## Quotes -/

/-- What stands between a pair of equal quotes, single or double. -/
def unquote? : List Char → Option (List Char)
  | [] => none
  | quote :: rest =>
    if (quote = '"' ∨ quote = '\x27') ∧ rest.getLast? = some quote then some rest.dropLast else none

/-- Writes each pair of double quotes as one. -/
def undouble : List Char → List Char
  | '"' :: '"' :: rest => '"' :: undouble rest
  | c :: rest => c :: undouble rest
  | [] => []

end FactStream.Text
