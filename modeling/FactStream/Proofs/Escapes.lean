import FactStream.Proofs.Numerals
import FactStream.Proofs.RawStrings

/-!
# Cooking

A language has several forms of writing a character in a string literal: as itself, by name, by its
code in some radix. `Text.Spells` says which string a literal body spells, form by form. Some forms
depend on what comes next, as a code of any length ends where the digits end.

Cooking undoes one form after the other (`Text.Spells.unescape_eq`), so each language needs only a
lemma on what its rules do with a single form.

Main statement: `quoted_strings`.
-/

namespace FactStream

open Number

namespace Text

/-! ## Spelling -/

/-- The forms of a language: a text, the character it stands for, if any, and what comes next. -/
abbrev Forms := List Char → Option Char → List Char → Prop

/-- The literal body spells the string, each character in one of the forms. -/
inductive Spells (forms : Forms) : List Char → List Char → Prop where
  | nil : Spells forms [] []
  | cons {text rest s : List Char} {char : Option Char} : forms text char rest →
      Spells forms rest s → Spells forms (text ++ rest) (char.toList ++ s)

theorem Spells.unescape_eq {forms : Forms} {rules : EscapeRules} {body s : List Char}
    (h : Spells forms body s)
    (hforms : ∀ {text char rest}, forms text char rest →
      unescape rules (text ++ rest) = char.toList ++ unescape rules rest) :
    unescape rules body = s := by
  induction h with
  | nil => rw [unescape]
  | cons hform _ ih => rw [hforms hform, ih]

/-! ## One form -/

section Unescape

variable {rules : EscapeRules} {rest : List Char}

theorem unescape_raw {c : Char} (hc : c ≠ '\\') :
    unescape rules ([c] ++ rest) = (some c).toList ++ unescape rules rest := by
  rw [List.singleton_append, unescape, if_neg fun h => hc h.1]
  rfl

theorem unescape_escape {text : List Char} {char : Option Char} (hne : text ≠ [])
    (h : rules (text ++ rest) = some ⟨char, text.length⟩) :
    unescape rules (('\\' :: text) ++ rest) = char.toList ++ unescape rules rest := by
  have hcons : text ++ rest ≠ [] := List.append_ne_nil_of_left_ne_nil hne rest
  rw [List.cons_append, unescape, if_pos ⟨rfl, hcons⟩, h]
  dsimp only
  rw [List.drop_left]

theorem unescape_kept (hne : rest ≠ []) (h : rules rest = none) :
    unescape rules (['\\'] ++ rest) = (some '\\').toList ++ unescape rules rest := by
  rw [List.singleton_append, unescape, if_pos ⟨rfl, hne⟩, h]
  rfl

end Unescape

/-! ## Codes -/

/-- The digits write the number, and there are `least` to `most` of them. Where one more would be
allowed, none follows. -/
structure Code (radix least most : Nat) (digits : List Char) (n : Nat) (rest : List Char) :
    Prop where
  writes : Writes radix digits n
  least_le : least ≤ digits.length
  le_most : digits.length ≤ most
  ends : digits.length < most → ∀ c ∈ rest.head?, digitValue? radix c = none

/-- The code of a character in four digits, or in two times four as a surrogate pair. -/
inductive UnitText : List Char → Char → Prop where
  | single {digits : List Char} {c : Char} : digits.length = 4 → Writes 16 digits c.toNat →
      UnitText digits c
  | pair {high low : List Char} {c : Char} {n : Nat} : c.toNat = 0x10000 + n →
      high.length = 4 → Writes 16 high (0xD800 + n / 0x400) →
      low.length = 4 → Writes 16 low (0xDC00 + n % 0x400) →
      UnitText (high ++ '\\' :: 'u' :: low) c

theorem scalar_toNat (c : Char) : scalar c.toNat = c := by
  have hvalid : c.toNat.isValidChar := c.valid
  rw [scalar, if_pos hvalid, Char.ofNat_toNat]

/-- The digits of a code are all the digits there are, up to the greatest number allowed. -/
theorem Code.takeWhile_take {radix least most n : Nat} {digits rest : List Char}
    (h : Code radix least most digits n rest) (hr : radix ≤ 16) {p : Char → Bool}
    (hp : ∀ c, p c = (digitValue? radix c).isSome) :
    ((digits ++ rest).take most).takeWhile p = digits := by
  have hdigits : ∀ c ∈ digits, p c = true := by
    intro c hc
    obtain ⟨d, hd⟩ := h.writes.exists_isDigit c hc
    rw [hp, hd.digitValue? hr, Option.isSome_some]
  have hrest : (rest.take (most - digits.length)).takeWhile p = [] := by
    cases rest with
    | nil => rw [List.take_nil, List.takeWhile_nil]
    | cons c rest =>
      cases hk : most - digits.length with
      | zero => rfl
      | succ k =>
        have hc : p c = false := by
          rw [hp, h.ends (by omega) c rfl, Option.isSome_none]
        rw [List.take_succ_cons, List.takeWhile_cons_of_neg (by simp [hc])]
  rw [List.take_append, List.take_of_length_le h.le_most,
    List.takeWhile_append_of_pos hdigits, hrest, List.append_nil]

theorem hexStart?_code {least most n : Nat} {digits rest : List Char}
    (h : Code 16 least most digits n rest) :
    hexStart? least most (digits ++ rest) = some (n, digits.length) := by
  have hdigits : ((digits ++ rest).take most).takeWhile isHex = digits :=
    h.takeWhile_take (Nat.le_refl 16) fun _ => rfl
  rw [hexStart?, hdigits, if_neg (Nat.not_lt.2 h.least_le), h.writes.readDigits? (Nat.le_refl 16),
    Option.map_some]

theorem hexEscape?_code {least most : Nat} {digits rest : List Char} {c : Char}
    (h : Code 16 least most digits c.toNat rest) :
    hexEscape? least most (digits ++ rest) = some ⟨c, digits.length + 1⟩ := by
  rw [hexEscape?, hexStart?_code h, Option.map_some]
  dsimp only
  rw [scalar_toNat]

theorem hexStart?_four {digits : List Char} {n : Nat} (hlength : digits.length = 4)
    (h : Writes 16 digits n) (rest : List Char) :
    hexStart? 4 4 (digits ++ rest) = some (n, 4) := by
  have hcode : Code 16 4 4 digits n rest :=
    ⟨h, Nat.le_of_eq hlength.symm, Nat.le_of_eq hlength, fun hlt => by omega⟩
  rw [hexStart?_code hcode, hlength]

theorem bracedEscape?_code {digits : List Char} {c : Char} (h : Writes 16 digits c.toNat)
    (rest : List Char) :
    bracedEscape? (digits ++ '\x7d' :: rest) = some ⟨c, digits.length + 3⟩ := by
  have htake : (digits ++ '\x7d' :: rest).takeWhile (· ≠ '\x7d') = digits := by
    have hne : ∀ d ∈ digits, decide (d ≠ '\x7d') = true := by
      intro d hd
      refine decide_eq_true ?_
      rintro rfl
      exact h.not_mem (Nat.le_refl 16) rfl hd
    rw [List.takeWhile_append_of_pos hne, List.takeWhile_cons_of_neg (by simp), List.append_nil]
  have hread : readBelow? (Nat.pow 2 32) 16 digits = some c.toNat := by
    have hlt : c.toNat < Nat.pow 2 32 := c.val.toNat_lt
    unfold readBelow?
    split
    case h_1 => exact absurd List.mem_cons_self (h.not_mem (Nat.le_refl 16) rfl)
    case h_2 => rw [h.readNat? (Nat.le_refl 16), Option.filter_some, if_pos (decide_eq_true hlt)]
  rw [bracedEscape?, htake, if_neg (by simp), hread, Option.map_some, scalar_toNat]

/-- A code in one unit is no half of a pair, and the two halves of a pair are put together. -/
theorem UnitText.unitEscape? {text : List Char} {c : Char} (h : UnitText text c)
    (rest : List Char) : Text.unitEscape? (text ++ rest) = some ⟨c, text.length + 1⟩ := by
  cases h with
  | single hlength h =>
    have hscalar : ¬(0xD800 ≤ c.toNat ∧ c.toNat < 0xDC00) := by
      have hvalid : c.toNat.isValidChar := c.valid
      unfold Nat.isValidChar at hvalid
      omega
    rw [Text.unitEscape?, hexStart?_four hlength h, Option.map_some]
    dsimp only
    rw [if_neg hscalar, scalar_toNat, hlength]
  | @pair high low _ n hc hhigh h hlow h' =>
    have hn : n < 0x100000 := by
      have hvalid : c.toNat.isValidChar := c.valid
      unfold Nat.isValidChar at hvalid
      omega
    have hlast : lowSurrogate? ('\\' :: 'u' :: (low ++ rest)) = some (0xDC00 + n % 0x400) := by
      rw [lowSurrogate?, hexStart?_four hlow h', Option.bind_some]
      exact if_pos (by omega)
    have hdrop : (high ++ '\\' :: 'u' :: (low ++ rest)).drop 4 = '\\' :: 'u' :: (low ++ rest) :=
      List.drop_left' hhigh
    have hcode : 0x10000 + (0xD800 + n / 0x400 - 0xD800) * 0x400 +
        (0xDC00 + n % 0x400 - 0xDC00) = c.toNat := by omega
    rw [List.append_assoc, List.cons_append, List.cons_append, Text.unitEscape?,
      hexStart?_four hhigh h, Option.map_some]
    dsimp only
    rw [if_pos (by omega), hdrop, hlast]
    dsimp only
    rw [hcode, scalar_toNat]
    simp [hhigh, hlow]

/-! ## JavaScript -/

/-- The letters that name characters. -/
def javaScriptNames : List (Char × Char) :=
  [('n', '\n'), ('t', '\t'), ('r', '\r'), ('b', '\x08'), ('f', '\x0c'), ('v', '\x0b')]

/-- The ends of lines, all of which may be escaped to have no meaning. -/
def lineEnds : List (List Char) :=
  [['\n'], ['\r'], ['\r', '\n'], ['\u2028'], ['\u2029']]

/-- The forms of JavaScript strings. -/
inductive JavaScriptForm : Forms where
  | raw {c : Char} {rest : List Char} : c ≠ '\\' → JavaScriptForm [c] (some c) rest
  | named {letter c : Char} {rest : List Char} : (letter, c) ∈ javaScriptNames →
      JavaScriptForm ['\\', letter] (some c) rest
  | zero {rest : List Char} : (∀ c ∈ rest.head?, c.isDigit = false) →
      JavaScriptForm ['\\', '0'] (some '\x00') rest
  | hex {digits rest : List Char} {c : Char} : Code 16 2 2 digits c.toNat rest →
      JavaScriptForm ('\\' :: 'x' :: digits) (some c) rest
  | unit {text rest : List Char} {c : Char} : UnitText text c →
      JavaScriptForm ('\\' :: 'u' :: text) (some c) rest
  | braced {digits rest : List Char} {c : Char} : Writes 16 digits c.toNat →
      JavaScriptForm ('\\' :: 'u' :: '\x7b' :: (digits ++ ['\x7d'])) (some c) rest
  | itself {c : Char} {rest : List Char} : c ∉ javaScriptNames.map (·.1) → c ≠ 'x' → c ≠ 'u' →
      c.isDigit = false → [c] ∉ lineEnds → JavaScriptForm ['\\', c] (some c) rest
  | continued {lineEnd rest : List Char} : lineEnd ∈ lineEnds →
      (lineEnd = ['\r'] → rest.head? ≠ some '\n') → JavaScriptForm ('\\' :: lineEnd) none rest

theorem UnitText.head?_ne {text : List Char} {c : Char} (h : UnitText text c) (rest : List Char) :
    (text ++ rest).head? ≠ some '\x7b' := by
  have hdigits {digits : List Char} {n : Nat} (h : Writes 16 digits n) (rest : List Char) :
      (digits ++ rest).head? ≠ some '\x7b' := by
    obtain ⟨d, tail, rfl⟩ := List.exists_cons_of_ne_nil h.ne_nil
    rintro hhead
    obtain rfl : d = '\x7b' := Option.some.inj hhead
    exact h.not_mem (Nat.le_refl 16) rfl List.mem_cons_self
  cases h with
  | single _ h => exact hdigits h rest
  | pair _ _ h =>
    rw [List.append_assoc]
    exact hdigits h _

theorem isDigit_iff {c : Char} : c.isDigit = true ↔ '0' ≤ c ∧ c ≤ '9' := by
  rw [Char.isDigit, Bool.and_eq_true, decide_eq_true_iff, decide_eq_true_iff]
  rfl

theorem javaScriptEscapes_unit {cs : List Char} (h : cs.head? ≠ some '\x7b') :
    javaScriptEscapes ('u' :: cs) = unitEscape? cs := by
  rw [javaScriptEscapes]
  rintro rest rfl
  exact h rfl

theorem javaScriptEscapes_return {cs : List Char} (h : cs.head? ≠ some '\n') :
    javaScriptEscapes ('\r' :: cs) = some ⟨none, 1⟩ := by
  cases cs with
  | nil => rfl
  | cons d tail =>
    have hd : d ≠ '\n' := fun heq => h (congrArg some heq)
    rw [javaScriptEscapes]
    all_goals simp [hd]

theorem JavaScriptForm.unescape_eq {text rest : List Char} {char : Option Char}
    (h : JavaScriptForm text char rest) :
    unescape javaScriptEscapes (text ++ rest) =
      char.toList ++ unescape javaScriptEscapes rest := by
  cases h with
  | raw hc => exact unescape_raw hc
  | named hname =>
    refine unescape_escape (List.cons_ne_nil _ _) ?_
    simp only [javaScriptNames, List.mem_cons, Prod.mk.injEq, List.not_mem_nil, or_false] at hname
    rcases hname with ⟨rfl, rfl⟩ | ⟨rfl, rfl⟩ | ⟨rfl, rfl⟩ | ⟨rfl, rfl⟩ | ⟨rfl, rfl⟩ |
      ⟨rfl, rfl⟩ <;> rfl
  | zero hrest =>
    refine unescape_escape (List.cons_ne_nil _ _) ?_
    have hnone : rest.head?.any (fun d => '0' ≤ d ∧ d ≤ '9') = false := by
      rw [Option.any_eq_false]
      intro d hd
      refine decide_eq_false fun hdigit => ?_
      exact Bool.eq_false_iff.1 (hrest d hd) (isDigit_iff.2 hdigit)
    rw [List.singleton_append, javaScriptEscapes, hnone]
    all_goals simp
  | hex h => exact unescape_escape (List.cons_ne_nil _ _) (hexEscape?_code h)
  | unit h =>
    refine unescape_escape (List.cons_ne_nil _ _) ?_
    rw [List.cons_append, javaScriptEscapes_unit (h.head?_ne rest), h.unitEscape?, List.length_cons]
  | @braced digits _ _ h =>
    refine unescape_escape (List.cons_ne_nil _ _) ?_
    rw [List.cons_append, List.cons_append, List.append_assoc, List.singleton_append,
      javaScriptEscapes, bracedEscape?_code h]
    simp
  | @itself c _ hname hx hu hdigit hend =>
    refine unescape_escape (List.cons_ne_nil _ _) ?_
    have hzero : c ≠ '0' := by
      rintro rfl
      exact absurd hdigit (by decide)
    simp only [javaScriptNames, lineEnds, List.map_cons, List.map_nil, List.mem_cons,
      List.not_mem_nil, or_false, not_or, List.cons.injEq, and_true] at hname hend
    rw [List.singleton_append, javaScriptEscapes]
    all_goals simp_all
  | continued hend hreturn =>
    refine unescape_escape (by rintro rfl; simp [lineEnds] at hend) ?_
    simp only [lineEnds, List.mem_cons, List.not_mem_nil, or_false] at hend
    rcases hend with rfl | rfl | rfl | rfl | rfl
    · rfl
    · exact javaScriptEscapes_return (hreturn rfl)
    all_goals rfl

/-! ## C# -/

/-- The characters that stand for others, or for themselves, after a backslash. -/
def cSharpNames : List (Char × Char) :=
  [('\x27', '\x27'), ('"', '"'), ('\\', '\\'), ('0', '\x00'), ('a', '\x07'), ('b', '\x08'),
   ('e', '\x1b'), ('f', '\x0c'), ('n', '\n'), ('r', '\r'), ('t', '\t'), ('v', '\x0b')]

/-- The forms of C# strings and characters between two quotes. -/
inductive CSharpForm (quote : Char) : Forms where
  | raw {c : Char} {rest : List Char} : c ≠ '\\' → c ≠ quote → CSharpForm quote [c] (some c) rest
  | named {letter c : Char} {rest : List Char} : (letter, c) ∈ cSharpNames →
      CSharpForm quote ['\\', letter] (some c) rest
  | hex {digits rest : List Char} {c : Char} : Code 16 1 4 digits c.toNat rest →
      CSharpForm quote ('\\' :: 'x' :: digits) (some c) rest
  | unit {text rest : List Char} {c : Char} : UnitText text c →
      CSharpForm quote ('\\' :: 'u' :: text) (some c) rest
  | long {digits rest : List Char} {c : Char} : Code 16 8 8 digits c.toNat rest →
      CSharpForm quote ('\\' :: 'U' :: digits) (some c) rest

theorem CSharpForm.unescape_eq {quote : Char} {text rest : List Char} {char : Option Char}
    (h : CSharpForm quote text char rest) :
    unescape cSharpEscapes (text ++ rest) = char.toList ++ unescape cSharpEscapes rest := by
  cases h with
  | raw hc _ => exact unescape_raw hc
  | named hname =>
    refine unescape_escape (List.cons_ne_nil _ _) ?_
    simp only [cSharpNames, List.mem_cons, Prod.mk.injEq, List.not_mem_nil, or_false] at hname
    rcases hname with ⟨rfl, rfl⟩ | ⟨rfl, rfl⟩ | ⟨rfl, rfl⟩ | ⟨rfl, rfl⟩ | ⟨rfl, rfl⟩ | ⟨rfl, rfl⟩ |
      ⟨rfl, rfl⟩ | ⟨rfl, rfl⟩ | ⟨rfl, rfl⟩ | ⟨rfl, rfl⟩ | ⟨rfl, rfl⟩ | ⟨rfl, rfl⟩ <;> rfl
  | hex h => exact unescape_escape (List.cons_ne_nil _ _) (hexEscape?_code h)
  | unit h => exact unescape_escape (List.cons_ne_nil _ _) (h.unitEscape? rest)
  | long h => exact unescape_escape (List.cons_ne_nil _ _) (hexEscape?_code h)

/-- A verbatim string has each quote twice. -/
def doubled (s : List Char) : List Char :=
  s.flatMap fun c => if c = '"' then ['"', '"'] else [c]

theorem undouble_doubled (s : List Char) : undouble (doubled s) = s := by
  induction s with
  | nil => rfl
  | cons c s ih =>
    have hcons : doubled (c :: s) = (if c = '"' then ['"', '"'] else [c]) ++ doubled s :=
      List.flatMap_cons
    rw [hcons]
    split
    case isTrue hc => rw [List.cons_append, List.singleton_append, undouble, ih, hc]
    case isFalse hc =>
      rw [List.singleton_append, undouble, ih]
      exact fun _ heq _ => hc heq

/-! ## PHP -/

/-- The characters that stand for others, or for themselves, after a backslash in double quotes. -/
def phpNames : List (Char × Char) :=
  [('n', '\n'), ('t', '\t'), ('r', '\r'), ('v', '\x0b'), ('e', '\x1b'), ('f', '\x0c'),
   ('\\', '\\'), ('$', '$'), ('"', '"')]

/-- The forms of PHP strings in double quotes. A backslash stands for itself where it opens no
escape. -/
inductive PhpDoubleForm : Forms where
  | raw {c : Char} {rest : List Char} : c ≠ '\\' → PhpDoubleForm [c] (some c) rest
  | named {letter c : Char} {rest : List Char} : (letter, c) ∈ phpNames →
      PhpDoubleForm ['\\', letter] (some c) rest
  | octal {digits rest : List Char} {n : Nat} {c : Char} : Code 8 1 3 digits n rest →
      c.toNat = n % 256 → PhpDoubleForm ('\\' :: digits) (some c) rest
  | hex {digits rest : List Char} {c : Char} : Code 16 1 2 digits c.toNat rest →
      PhpDoubleForm ('\\' :: 'x' :: digits) (some c) rest
  | braced {digits rest : List Char} {c : Char} : Writes 16 digits c.toNat →
      PhpDoubleForm ('\\' :: 'u' :: '\x7b' :: (digits ++ ['\x7d'])) (some c) rest
  | kept {c : Char} {rest : List Char} : c ∉ phpNames.map (·.1) → digitValue? 8 c = none →
      (c = 'x' → ∀ d ∈ rest.head?, digitValue? 16 d = none) →
      (c = 'u' → rest.head? ≠ some '\x7b') → PhpDoubleForm ['\\'] (some '\\') (c :: rest)

/-- The forms of PHP strings in single quotes. -/
inductive PhpSingleForm : Forms where
  | raw {c : Char} {rest : List Char} : c ≠ '\\' → PhpSingleForm [c] (some c) rest
  | escaped {c : Char} {rest : List Char} : c = '\\' ∨ c = '\x27' →
      PhpSingleForm ['\\', c] (some c) rest
  | kept {c : Char} {rest : List Char} : c ≠ '\\' → c ≠ '\x27' →
      PhpSingleForm ['\\'] (some '\\') (c :: rest)

theorem isOctal_eq (c : Char) : decide ('0' ≤ c ∧ c ≤ '7') = (digitValue? 8 c).isSome := by
  have hle (a b : Char) : a ≤ b ↔ a.toNat ≤ b.toNat := Iff.rfl
  have h0 : '0'.toNat = 48 := rfl
  have h7 : '7'.toNat = 55 := rfl
  have h9 : '9'.toNat = 57 := rfl
  rw [Bool.eq_iff_iff, decide_eq_true_iff, Option.isSome_iff_exists]
  unfold digitValue?
  simp only [Option.filter_eq_some_iff, decide_eq_true_iff, hle]
  repeat' split
  all_goals
    simp
    omega

/-- After a backslash, what starts with no letter of an escape is a code or stands for itself. -/
theorem phpDoubleEscapes_other {c : Char} {rest : List Char}
    (hletter : c ∉ ['n', 't', 'r', 'v', 'e', 'f', 'x'])
    (hu : c = 'u' → rest.head? ≠ some '\x7b') :
    phpDoubleEscapes (c :: rest) =
      if c = '\\' ∨ c = '$' ∨ c = '"' then some ⟨c, 1⟩
      else
        let digits := ((c :: rest).take 3).takeWhile fun d => '0' ≤ d ∧ d ≤ '7'
        if digits.isEmpty then none
        else (readDigits? 8 0 digits).map fun code => ⟨scalar (code % 256), digits.length⟩ := by
  simp only [List.mem_cons, List.not_mem_nil, or_false, not_or] at hletter
  cases rest with
  | nil =>
    unfold phpDoubleEscapes
    split <;> simp_all
  | cons d tail =>
    have hbrace : ¬ (c = 'u' ∧ d = '\x7b') := fun ⟨hc, hd⟩ => hu hc (congrArg some hd)
    unfold phpDoubleEscapes
    split <;> simp_all

/-- An octal code goes on as long as there are digits, up to three of them. -/
theorem phpDoubleEscapes_octal {digits rest : List Char} {n : Nat} {c : Char}
    (h : Code 8 1 3 digits n rest) (hc : c.toNat = n % 256) :
    phpDoubleEscapes (digits ++ rest) = some ⟨c, digits.length⟩ := by
  have htake : ((digits ++ rest).take 3).takeWhile (fun d => '0' ≤ d ∧ d ≤ '7') = digits :=
    h.takeWhile_take (by decide) isOctal_eq
  obtain ⟨d, tail, rfl⟩ := List.exists_cons_of_ne_nil h.writes.ne_nil
  have hne {x : Char} (hx : digitValue? 8 x = none) : d ≠ x := by
    rintro rfl
    exact h.writes.not_mem (by decide) hx List.mem_cons_self
  rw [List.cons_append] at htake ⊢
  have hletter : d ∉ ['n', 't', 'r', 'v', 'e', 'f', 'x'] := by
    simp [hne (x := 'n') rfl, hne (x := 't') rfl, hne (x := 'r') rfl, hne (x := 'v') rfl,
      hne (x := 'e') rfl, hne (x := 'f') rfl, hne (x := 'x') rfl]
  rw [phpDoubleEscapes_other hletter fun heq => absurd heq (hne rfl),
    if_neg (not_or.2 ⟨hne rfl, not_or.2 ⟨hne rfl, hne rfl⟩⟩)]
  dsimp only
  rw [htake, if_neg (by simp), h.writes.readDigits? (by decide), Option.map_some, ← hc,
    scalar_toNat]

theorem phpDoubleEscapes_kept {c : Char} {rest : List Char} (hname : c ∉ phpNames.map (·.1))
    (hoctal : digitValue? 8 c = none) (hx : c = 'x' → ∀ d ∈ rest.head?, digitValue? 16 d = none)
    (hu : c = 'u' → rest.head? ≠ some '\x7b') : phpDoubleEscapes (c :: rest) = none := by
  by_cases hc : c = 'x'
  · subst hc
    have htake : (rest.take 2).takeWhile isHex = [] := by
      cases rest with
      | nil => rfl
      | cons d tail =>
        have hd : isHex d = false := by rw [isHex, hx rfl d rfl, Option.isSome_none]
        rw [List.take_succ_cons, List.takeWhile_cons_of_neg (by simp [hd])]
    have hstart : hexStart? 1 2 rest = none := by
      rw [hexStart?, htake]
      rfl
    rw [phpDoubleEscapes, hexEscape?, hstart, Option.map_none]
  · have htake : ((c :: rest).take 3).takeWhile (fun d => '0' ≤ d ∧ d ≤ '7') = [] := by
      rw [List.take_succ_cons, List.takeWhile_cons_of_neg (by rw [isOctal_eq, hoctal]; simp)]
    simp only [phpNames, List.map_cons, List.map_nil, List.mem_cons, List.not_mem_nil, or_false,
      not_or] at hname
    rw [phpDoubleEscapes_other (by simp_all) hu, htake]
    simp_all

theorem PhpDoubleForm.unescape_eq {text rest : List Char} {char : Option Char}
    (h : PhpDoubleForm text char rest) :
    unescape phpDoubleEscapes (text ++ rest) =
      char.toList ++ unescape phpDoubleEscapes rest := by
  cases h with
  | raw hc => exact unescape_raw hc
  | named hname =>
    refine unescape_escape (List.cons_ne_nil _ _) ?_
    simp only [phpNames, List.mem_cons, Prod.mk.injEq, List.not_mem_nil, or_false] at hname
    rcases hname with ⟨rfl, rfl⟩ | ⟨rfl, rfl⟩ | ⟨rfl, rfl⟩ | ⟨rfl, rfl⟩ | ⟨rfl, rfl⟩ | ⟨rfl, rfl⟩ |
      ⟨rfl, rfl⟩ | ⟨rfl, rfl⟩ | ⟨rfl, rfl⟩ <;> rfl
  | octal h hc => exact unescape_escape h.writes.ne_nil (phpDoubleEscapes_octal h hc)
  | hex h => exact unescape_escape (List.cons_ne_nil _ _) (hexEscape?_code h)
  | braced h =>
    refine unescape_escape (List.cons_ne_nil _ _) ?_
    rw [List.cons_append, List.cons_append, List.append_assoc, List.singleton_append,
      phpDoubleEscapes, bracedEscape?_code h]
    simp
  | kept hname hoctal hx hu =>
    exact unescape_kept (List.cons_ne_nil _ _) (phpDoubleEscapes_kept hname hoctal hx hu)

theorem PhpSingleForm.unescape_eq {text rest : List Char} {char : Option Char}
    (h : PhpSingleForm text char rest) :
    unescape phpSingleEscapes (text ++ rest) =
      char.toList ++ unescape phpSingleEscapes rest := by
  cases h with
  | raw hc => exact unescape_raw hc
  | escaped hc => exact unescape_escape (List.cons_ne_nil _ _) (if_pos hc)
  | kept hslash hquote =>
    exact unescape_kept (List.cons_ne_nil _ _) (if_neg (not_or.2 ⟨hslash, hquote⟩))

/-! ## Literals -/

theorem unquote?_quoted {quote : Char} (hquote : quote = '"' ∨ quote = '\x27')
    (body : List Char) : unquote? (quote :: body ++ [quote]) = some body := by
  rw [List.cons_append, unquote?, if_pos ⟨hquote, List.getLast?_concat⟩, List.dropLast_concat]

end Text

open Text

namespace CSharp

/-- What may stand behind a string to tell its encoding. -/
def encodings : List (List Char) := [[], ['u', '8']]

theorem dropEncoding_quoted {encoding : List Char} (h : encoding ∈ encodings)
    (text : List Char) : dropEncoding (text ++ '"' :: encoding) = text ++ ['"'] := by
  simp only [encodings, List.mem_cons, List.not_mem_nil, or_false] at h
  rcases h with rfl | rfl
  · exact dropEncoding_of_getLast? List.getLast?_concat (by decide)
  · have hsplit : text ++ ['"', 'u', '8'] = (text ++ ['"']) ++ ['u', '8'] := by simp
    rw [hsplit, dropEncoding, dropEnd?_append]
    exact if_pos List.getLast?_concat

/-- One quote does not open a raw string. -/
theorem textOfLiteral_quoted {quote : Char} (hquote : quote = '"' ∨ quote = '\x27')
    {literal body : List Char} (hraw : dropEncoding literal = quote :: body ++ [quote])
    (hhead : body.head? ≠ some quote) :
    textOfLiteral literal = unescape cSharpEscapes body := by
  have hquotes : ((quote :: body ++ [quote]).takeWhile (· = '"')).length < 3 := by
    rcases hquote with rfl | rfl
    · cases body with
      | nil => decide
      | cons c rest =>
        have hc : c ≠ '"' := fun hc => hhead (congrArg some hc)
        simp [hc]
    · simp
  have hverbatim : dropStart? ['@', '"'] (quote :: body ++ [quote]) = none := by
    refine dropStart?_cons_of_ne ?_ _ _
    rcases hquote with rfl | rfl <;> decide
  rw [textOfLiteral, hraw, if_neg (Nat.not_le.2 hquotes), hverbatim, unquote?_quoted hquote]
  rfl

theorem textOfLiteral_verbatim {literal body : List Char}
    (hraw : dropEncoding literal = '@' :: '"' :: body ++ ['"']) :
    textOfLiteral literal = undouble body := by
  have hstart : dropStart? ['@', '"'] ('@' :: '"' :: body ++ ['"']) = some (body ++ ['"']) :=
    dropStart?_append ['@', '"'] (body ++ ['"'])
  rw [textOfLiteral, hraw, if_neg (by simp), hstart, Option.bind_some, dropEnd?_append]

theorem head?_of_spells {quote : Char} (hquote : quote = '"' ∨ quote = '\x27')
    {body s : List Char} (h : Spells (CSharpForm quote) body s) : body.head? ≠ some quote := by
  have hslash : some '\\' ≠ some quote := by rcases hquote with rfl | rfl <;> decide
  cases h with
  | nil => simp
  | cons hform _ =>
    cases hform with
    | raw _ hc => exact fun heq => hc (Option.some.inj heq)
    | named | hex | unit | long => exact hslash

end CSharp

theorem Php.stringText_quoted {mark : List Char} (hmark : ∀ c ∈ mark, c = 'b' ∨ c = 'B')
    {quote : Char} (hquote : quote = '"' ∨ quote = '\x27') (body : List Char) :
    stringText (mark ++ quote :: body ++ [quote]) = String.ofList
      (unescape (if quote = '\x27' then phpSingleEscapes else phpDoubleEscapes) body) := by
  have hdrop : (mark ++ quote :: body ++ [quote]).dropWhile (fun c => c = 'b' ∨ c = 'B') =
      quote :: body ++ [quote] := by
    have hfirst : ¬(quote = 'b' ∨ quote = 'B') := by rcases hquote with rfl | rfl <;> decide
    rw [List.append_assoc, List.dropWhile_append_of_pos fun c hc => decide_eq_true (hmark c hc),
      List.cons_append, List.dropWhile_cons_of_neg (by simpa using hfirst)]
  rw [stringText, hdrop, unquote?_quoted hquote]
  simp only [List.cons_append, List.head?_cons, Option.some.injEq]

/-- The value of a string literal is what its body spells, in each language and between all its
quotes. -/
theorem quoted_strings (body s : List Char) :
    (∀ quote, quote = '"' ∨ quote = '\x27' → Spells JavaScriptForm body s →
      TypeScript.stringText false (quote :: body ++ [quote]) = String.ofList s) ∧
    (∀ encoding ∈ CSharp.encodings,
      (Spells (CSharpForm '"') body s →
        CSharp.textOfLiteral ('"' :: body ++ '"' :: encoding) = s) ∧
      CSharp.textOfLiteral ('@' :: '"' :: doubled s ++ '"' :: encoding) = s) ∧
    (Spells (CSharpForm '\x27') body s →
      CSharp.textOfLiteral ('\x27' :: body ++ ['\x27']) = s) ∧
    (∀ mark : List Char, (∀ c ∈ mark, c = 'b' ∨ c = 'B') →
      (Spells PhpDoubleForm body s →
        Php.stringText (mark ++ '"' :: body ++ ['"']) = String.ofList s) ∧
      (Spells PhpSingleForm body s →
        Php.stringText (mark ++ '\x27' :: body ++ ['\x27']) = String.ofList s)) := by
  refine ⟨fun quote hquote h => ?_, fun encoding hencoding => ⟨fun h => ?_, ?_⟩, fun h => ?_,
    fun mark hmark => ⟨fun h => ?_, fun h => ?_⟩⟩
  · rw [TypeScript.stringText, unquote?_quoted hquote, Option.getD_some,
      h.unescape_eq JavaScriptForm.unescape_eq]
    rfl
  · rw [CSharp.textOfLiteral_quoted (.inl rfl) (CSharp.dropEncoding_quoted hencoding _)
      (CSharp.head?_of_spells (.inl rfl) h), h.unescape_eq CSharpForm.unescape_eq]
  · rw [CSharp.textOfLiteral_verbatim (CSharp.dropEncoding_quoted hencoding _), undouble_doubled]
  · rw [CSharp.textOfLiteral_quoted (.inr rfl)
      (CSharp.dropEncoding_of_getLast? List.getLast?_concat (by decide))
      (CSharp.head?_of_spells (.inr rfl) h), h.unescape_eq CSharpForm.unescape_eq]
  · rw [Php.stringText_quoted hmark (.inl rfl), if_neg (by decide),
      h.unescape_eq PhpDoubleForm.unescape_eq]
  · rw [Php.stringText_quoted hmark (.inr rfl), if_pos rfl,
      h.unescape_eq PhpSingleForm.unescape_eq]

/-- A surrogate pair and a continued line in JavaScript, a code that ends before a letter and a
doubled quote in C#, an octal code and a backslash that is kept in PHP. -/
theorem quoted_strings_mixed :
    TypeScript.stringText false
        ['"', '\\', 'u', 'D', '8', '3', 'D', '\\', 'u', 'D', 'E', '0', '0', '\\', '\n', 'a', '"'] =
      String.ofList ['😀', 'a'] ∧
    CSharp.textOfLiteral ['"', '\\', 'x', '4', '1', 'g', '"', 'u', '8'] = ['A', 'g'] ∧
    CSharp.textOfLiteral ['@', '"', 'a', '"', '"', '"'] = ['a', '"'] ∧
    Php.stringText ['b', '"', '\\', '1', '0', '1', '8', '"'] = String.ofList ['A', '8'] ∧
    Php.stringText ['\x27', '\\', '\x27', '\\', 'n', '\x27'] =
      String.ofList ['\x27', '\\', 'n'] := by
  have hhigh : Writes 16 ['D', '8', '3', 'D'] 0xD83D :=
    @Writes.snoc 16 ['D', '8', '3'] 0xD83 'D' 13
      (@Writes.snoc 16 ['D', '8'] 0xD8 '3' 3
        (@Writes.snoc 16 ['D'] 0xD '8' 8 (.digit ⟨by decide, by decide⟩) ⟨by decide, by decide⟩)
        ⟨by decide, by decide⟩) ⟨by decide, by decide⟩
  have hlow : Writes 16 ['D', 'E', '0', '0'] 0xDE00 :=
    @Writes.snoc 16 ['D', 'E', '0'] 0xDE0 '0' 0
      (@Writes.snoc 16 ['D', 'E'] 0xDE '0' 0
        (@Writes.snoc 16 ['D'] 0xD 'E' 14 (.digit ⟨by decide, by decide⟩) ⟨by decide, by decide⟩)
        ⟨by decide, by decide⟩) ⟨by decide, by decide⟩
  have hpair : UnitText ['D', '8', '3', 'D', '\\', 'u', 'D', 'E', '0', '0'] '😀' :=
    @UnitText.pair ['D', '8', '3', 'D'] ['D', 'E', '0', '0'] '😀' 0xF600 rfl rfl hhigh rfl hlow
  have hends : ∀ c ∈ ['g'].head?, digitValue? 16 c = none := by
    intro c hc
    obtain rfl : 'g' = c := Option.some.inj hc
    decide
  have hhex : Code 16 1 4 ['4', '1'] 'A'.toNat ['g'] :=
    ⟨@Writes.snoc 16 ['4'] 4 '1' 1 (.digit ⟨by decide, by decide⟩) ⟨by decide, by decide⟩,
      by decide, by decide, fun _ => hends⟩
  have hoctal : Code 8 1 3 ['1', '0', '1'] 65 ['8'] :=
    ⟨@Writes.snoc 8 ['1', '0'] 8 '1' 1
        (@Writes.snoc 8 ['1'] 1 '0' 0 (.digit ⟨by decide, by decide⟩) ⟨by decide, by decide⟩)
        ⟨by decide, by decide⟩,
      by decide, by decide, by decide⟩
  have hline : Spells JavaScriptForm ['\\', '\n', 'a'] ['a'] :=
    @Spells.cons _ ['\\', '\n'] ['a'] ['a'] none
      (JavaScriptForm.continued (by decide) (by decide))
      (@Spells.cons _ ['a'] [] [] (some 'a') (JavaScriptForm.raw (by decide)) .nil)
  have hletter : Spells (CSharpForm '"') ['g'] ['g'] :=
    @Spells.cons _ ['g'] [] [] (some 'g') (CSharpForm.raw (by decide) (by decide)) .nil
  have hdigit : Spells PhpDoubleForm ['8'] ['8'] :=
    @Spells.cons _ ['8'] [] [] (some '8') (PhpDoubleForm.raw (by decide)) .nil
  have hkept : Spells PhpSingleForm ['\\', 'n'] ['\\', 'n'] :=
    @Spells.cons _ ['\\'] ['n'] ['n'] (some '\\') (PhpSingleForm.kept (by decide) (by decide))
      (@Spells.cons _ ['n'] [] [] (some 'n') (PhpSingleForm.raw (by decide)) .nil)
  exact ⟨(quoted_strings _ _).1 '"' (.inl rfl) (.cons (.unit hpair) hline),
    ((quoted_strings _ _).2.1 ['u', '8'] (by decide)).1 (.cons (.hex hhex) hletter),
    ((quoted_strings [] ['a', '"']).2.1 [] (by decide)).2,
    ((quoted_strings _ _).2.2.2 ['b'] (by simp)).1 (.cons (.octal hoctal rfl) hdigit),
    ((quoted_strings _ _).2.2.2 [] (by simp)).2 (.cons (.escaped (.inr rfl)) hkept)⟩

end FactStream
