import FactStream.Number.Decimal
import FactStream.Text.Reader
import FactStream.Toml.Value

/-!
# Scalars of TOML

Readers for keys, strings, numbers, dates and times, and for what may stand between them.
-/

namespace FactStream.Toml

open Text Text.Reader

/-! ## Blanks and comments -/

/-- A space or a tab. -/
def isSpace (c : Char) : Bool := c = ' ' ∨ c = '\t'

/-- A character that may stand in a comment: no control character but a tab. -/
def isPrintable (c : Char) : Bool := c = '\t' ∨ (' ' ≤ c ∧ c ≠ '\x7f')

/-- Spaces and tabs. -/
def spaces : Reader Unit := do let _ ← chars isSpace

/-- The end of a line, with or without a carriage return. -/
def newline : Reader Unit := word ['\n'] <|> word ['\r', '\n']

/-- A comment up to the end of its line. -/
def comment : Reader Unit := do
  word ['#']
  let _ ← chars isPrintable

/-- What may follow a statement on its line. -/
def lineEnd : Reader Unit := do
  spaces
  let _ ← optional comment
  newline <|> finished

/-- What may stand between the values of a list: blanks, line ends and comments. -/
def gap : Reader Unit := do
  let _ ← many ((do let _ ← char isSpace) <|> newline <|> comment)

/-! ## Strings -/

/-- A character by a fixed number of hexadecimal digits. -/
def hexChar (count : Nat) : Reader Char := fun cs =>
  let digits := cs.take count
  if digits.length < count then none
  else match Number.readDigits? 16 0 digits with
    | some code => if code.isValidChar then some (Char.ofNat code, cs.drop count) else none
    | none => none

/-- An escape sequence. -/
def escape : Reader Char := do
  word ['\\']
  match ← char fun _ => true with
  | 'b' => pure '\x08'
  | 't' => pure '\t'
  | 'n' => pure '\n'
  | 'f' => pure '\x0c'
  | 'r' => pure '\r'
  | '"' => pure '"'
  | '\\' => pure '\\'
  | 'u' => hexChar 4
  | 'U' => hexChar 8
  | _ => failure

/-- A plain character of a string with the given quotes. -/
def plainChar (quote : Char) (escapes : Bool) : Reader Char :=
  char fun c => isPrintable c && c ≠ quote && !(escapes && c = '\\')

/-- A string on one line. -/
def lineString (quote : Char) (escapes : Bool) : Reader String := do
  word [quote]
  let body ← many (if escapes then plainChar quote escapes <|> escape else plainChar quote escapes)
  word [quote]
  pure (String.ofList body)

/-- A backslash at the end of a line, with all blanks and line ends after it. -/
def continuation : Reader Unit := do
  word ['\\']
  spaces
  newline
  let _ ← many ((do let _ ← char isSpace) <|> newline)

/-- One or two quotes inside a string of several lines. -/
def innerQuotes (quote : Char) : Reader (List Char) := do
  let quotes ← chars (· = quote)
  let _ ← peek
  if 1 ≤ quotes.length ∧ quotes.length ≤ 2 then pure quotes else failure

/-- The quotes that end a string of several lines. Up to two of them belong to the string. -/
def closingQuotes (quote : Char) : Reader (List Char) := do
  let quotes ← chars (· = quote)
  if 3 ≤ quotes.length ∧ quotes.length ≤ 5 then pure (quotes.drop 3) else failure

/-- A part of a string of several lines. -/
def block (quote : Char) (escapes : Bool) : Reader (List Char) :=
  (do pure [← plainChar quote escapes]) <|> (do newline; pure ['\n']) <|> innerQuotes quote <|>
    (do
      if !escapes then failure
      (do continuation; pure []) <|> (do pure [← escape]))

/-- A string of several lines. A line end right after the opening quotes does not count. -/
def blockString (quote : Char) (escapes : Bool) : Reader String := do
  word [quote, quote, quote]
  let _ ← optional newline
  let body ← many (block quote escapes)
  let last ← closingQuotes quote
  pure (String.ofList (body.flatten ++ last))

/-- Any string. -/
def anyString : Reader String :=
  blockString '"' true <|> lineString '"' true <|> blockString '\x27' false <|>
    lineString '\x27' false

/-! ## Keys -/

/-- A character of a key without quotes. -/
def isBare (c : Char) : Bool :=
  isAsciiLetter c || ('0' ≤ c && c ≤ '9') || c = '-' || c = '_'

/-- One part of a key. -/
def simpleKey : Reader String :=
  lineString '"' true <|> lineString '\x27' false <|> (do
    let bare ← chars isBare
    if bare.isEmpty then failure
    pure (String.ofList bare))

/-- The greatest depth of nesting, which no list, table or key may reach. -/
def depthLimit : Nat := 80

/-- A key: its parts have dots between them. -/
def key : Reader (List String) := do
  let parts ← separated (do spaces; let part ← simpleKey; spaces; pure part) (word ['.'])
  if parts.length < depthLimit then pure parts else failure

/-! ## Numbers -/

/-- Digits of a radix; underscores may stand between them. -/
def digitRun (isDigit : Char → Bool) : Reader (List Char) := do
  let first ← char isDigit
  let rest ← many (char isDigit <|> (do word ['_']; char isDigit))
  pure (first :: rest)

/-- A decimal digit. -/
def isDigit (c : Char) : Bool := '0' ≤ c && c ≤ '9'

/-- An optional sign. -/
def sign : Reader (List Char) := do
  pure (← optional (char fun c => c = '+' ∨ c = '-')).toList

/-- A whole number in decimal, without zeros in front. -/
def decimal : Reader (List Char) := do
  let sign ← sign
  let digits ← (do word ['0']; pure ['0']) <|> digitRun isDigit
  pure (sign ++ digits)

/-- A whole number with the mark of its radix. -/
def marked (mark : Char) (radix : Nat) : Reader Value := do
  word ['0', mark]
  let digits ← digitRun fun c => (Number.digitValue? radix c).isSome
  match Number.readInt64? radix digits with
  | some i => pure (.int i)
  | none => failure

/-- A whole number of 64 bits. -/
def integer : Reader Value :=
  marked 'x' 16 <|> marked 'o' 8 <|> marked 'b' 2 <|> (do
    match Number.readInt64? 10 (← decimal) with
    | some i => pure (.int i)
    | none => failure)

/-- The places after the point. -/
def fraction : Reader (List Char) := do
  word ['.']
  pure ('.' :: (← digitRun isDigit))

/-- A power of ten. -/
def exponent : Reader (List Char) := do
  let mark ← char fun c => c = 'e' ∨ c = 'E'
  let sign ← sign
  pure (mark :: (sign ++ (← digitRun isDigit)))

/-- A real number. It must not be too large. -/
def real : Reader Value :=
  (do
    let whole ← decimal
    let rest ← exponent <|> (do
      let fraction ← fraction
      pure (fraction ++ (← optional exponent).getD []))
    match Number.readDouble? (whole ++ rest) with
    | some (.infinite false) | none => failure
    | some _ => pure .real) <|>
  (do
    let _ ← sign
    word ['i', 'n', 'f'] <|> word ['n', 'a', 'n']
    pure .real)

/-! ## Dates and times -/

/-- A number of so many digits within bounds. -/
def bounded (count low high : Nat) : Reader Nat := fun cs =>
  let digits := cs.take count
  if digits.length = count ∧ digits.all isDigit then
    (Number.readNat? 10 digits).bind fun n =>
      if low ≤ n ∧ n ≤ high then some (n, cs.drop count) else none
  else none

/-- The number of days of a month. -/
def daysIn (year month : Nat) : Nat :=
  if month = 2 then
    if year % 4 = 0 ∧ (year % 100 ≠ 0 ∨ year % 400 = 0) then 29 else 28
  else if month = 4 ∨ month = 6 ∨ month = 9 ∨ month = 11 then 30 else 31

/-- A date. -/
def date : Reader Unit := do
  let year ← bounded 4 0 9999
  word ['-']
  let month ← bounded 2 1 12
  word ['-']
  let _ ← bounded 2 1 (daysIn year month)

/-- A time of the day. -/
def time : Reader Unit := do
  let _ ← bounded 2 0 23
  word [':']
  let _ ← bounded 2 0 59
  word [':']
  let _ ← bounded 2 0 60
  let _ ← optional (do word ['.']; let _ ← char isDigit; chars isDigit)

/-- The distance of a time zone. -/
def zone : Reader Unit :=
  (do let _ ← char fun c => c = 'Z' ∨ c = 'z') <|> (do
    let _ ← char fun c => c = '+' ∨ c = '-'
    let _ ← bounded 2 0 23
    word [':']
    let _ ← bounded 2 0 59)

/-- A date, a time or both. -/
def moment : Reader Value := do
  (do
    date
    let _ ← optional (do
      let _ ← char fun c => c = 'T' ∨ c = 't' ∨ c = ' '
      time
      optional zone)) <|> time
  pure .moment

/-- A truth value. -/
def boolean : Reader Value :=
  (do word ['t', 'r', 'u', 'e']; pure (.bool true)) <|>
    (do word ['f', 'a', 'l', 's', 'e']; pure (.bool false))

/-- A value that is neither a list nor a table. -/
def scalar : Reader Value :=
  (do pure (.text (← anyString))) <|> boolean <|> moment <|> real <|> integer

end FactStream.Toml
