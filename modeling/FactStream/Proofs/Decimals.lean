import FactStream.Number.Decimal
import FactStream.Proofs.Key
import FactStream.Proofs.Layout
import Mathlib.Algebra.Order.Field.Power
import Mathlib.Data.Rat.Cast.Order
import Mathlib.Tactic.FieldSimp
import Mathlib.Tactic.Ring

/-!
# Decimal numerals

A `Number.Numeral` is a decimal numeral in its parts. It has digits before the point, a point only
if there are digits after it, and perhaps an exponent. Reading the text of a numeral gives the
rational number it denotes (`Number.readDecimal?_text`).

The layouts write numerals: each text of significant digits is one, whether it is written out
(`Number.Layout.exists_numeral_fixed`) or has an exponent
(`Number.Layout.exists_numeral_scientific`), and it denotes the number that the digits stand for.
-/

namespace FactStream.Number

open Text (lowerAscii)

/-! ## Numerals -/

/-- The number `whole.fraction * 10 ^ exponent`. -/
def rationalOf (whole fraction : List Char) (exponent : Int) : ℚ :=
  (Nat.ofDigitChars 10 whole 0 + Nat.ofDigitChars 10 fraction 0 / 10 ^ fraction.length) *
    10 ^ exponent

/-- An exponent as it is written: a mark, a sign and digits. -/
structure Exponent where
  mark : Char
  negative : Bool
  digits : List Char
  isMark : mark = 'e' ∨ mark = 'E'
  ne_nil : digits ≠ []
  isDigit : ∀ c ∈ digits, c.isDigit

namespace Exponent

def text (e : Exponent) : List Char :=
  e.mark :: (if e.negative then '-' else '+') :: e.digits

def value (e : Exponent) : Int :=
  if e.negative then -(Nat.ofDigitChars 10 e.digits 0 : Int) else Nat.ofDigitChars 10 e.digits 0

end Exponent

/-- A decimal numeral. Its parts are digits, and the digits before the point start with a zero only
if it stands alone. -/
structure Numeral where
  /-- The digits before the point. -/
  whole : List Char
  /-- The digits after the point. If there are none, no point is written. -/
  fraction : List Char
  exponent? : Option Exponent
  whole_ne_nil : whole ≠ []
  isDigit_whole : ∀ c ∈ whole, c.isDigit
  plain : whole.head? = some '0' → whole = ['0']
  isDigit_fraction : ∀ c ∈ fraction, c.isDigit

namespace Numeral

def exponentText (m : Numeral) : List Char :=
  match m.exponent? with
  | some e => e.text
  | none => []

/-- The point and the digits after it, if there are any. -/
def fractionText (m : Numeral) : List Char :=
  if m.fraction = [] then [] else '.' :: m.fraction

def text (m : Numeral) : List Char :=
  m.whole ++ (m.fractionText ++ m.exponentText)

def exponent (m : Numeral) : Int :=
  match m.exponent? with
  | some e => e.value
  | none => 0

def value (m : Numeral) : ℚ :=
  rationalOf m.whole m.fraction m.exponent

end Numeral

/-- Splits off a point and the digits after it. -/
def spanFraction : List Char → List Char × List Char
  | '.' :: rest => spanDigits rest
  | rest => ([], rest)

/-- Reads a decimal numeral without a sign as the number it denotes. -/
def readDecimal? (cs : List Char) : Option ℚ :=
  let (whole, rest) := spanDigits cs
  let (fraction, rest) := spanFraction rest
  if whole.isEmpty ∧ fraction.isEmpty then none
  else (readExponent? rest).map (rationalOf whole fraction)

/-! ## Reading numerals -/

theorem spanDigits_append {digits rest : List Char} (h : ∀ c ∈ digits, c.isDigit)
    (hrest : ∀ c ∈ rest.head?, c.isDigit = false) :
    spanDigits (digits ++ rest) = (digits, rest) := by
  have hiff (c : Char) : decide ('0' ≤ c ∧ c ≤ '9') = c.isDigit := by
    rw [Bool.eq_iff_iff, decide_eq_true_iff, Char.isDigit, Bool.and_eq_true, decide_eq_true_iff,
      decide_eq_true_iff]
    exact Iff.rfl
  simp only [spanDigits, hiff]
  rw [List.takeWhile_append_of_pos h, List.dropWhile_append_of_pos h]
  cases rest with
  | nil => simp
  | cons c rest =>
    have hc : c.isDigit = false := hrest c rfl
    simp [hc]

theorem Exponent.readExponent?_text (e : Exponent) : readExponent? e.text = some e.value := by
  have hmark : lowerAscii e.mark = 'e' := by
    rcases e.isMark with h | h <;> rw [h] <;> decide
  have hread := readNat?_eq_some_iff.2 ⟨e.ne_nil, e.isDigit, rfl⟩
  unfold text value readExponent?
  dsimp only
  rw [if_pos hmark]
  cases e.negative with
  | true => simp [hread]
  | false => simp [hread]

namespace Numeral

theorem readExponent?_exponentText (m : Numeral) :
    readExponent? m.exponentText = some m.exponent := by
  unfold exponentText exponent
  cases m.exponent? with
  | none => rfl
  | some e => exact e.readExponent?_text

theorem head?_exponentText (m : Numeral) {c : Char} (h : c ∈ m.exponentText.head?) :
    c.isDigit = false ∧ c ≠ '.' := by
  unfold exponentText at h
  cases hm : m.exponent? with
  | none => simp [hm] at h
  | some e =>
    obtain rfl : e.mark = c := by simpa [hm, Exponent.text] using h
    rcases e.isMark with hmark | hmark <;> rw [hmark] <;> decide

theorem spanFraction_text (m : Numeral) :
    spanFraction (m.fractionText ++ m.exponentText) = (m.fraction, m.exponentText) := by
  unfold fractionText
  split
  case isTrue hnil =>
    rw [List.nil_append, hnil]
    unfold spanFraction
    split
    case h_1 rest htext =>
      have hpoint : '.' ∈ m.exponentText.head? := by rw [htext]; rfl
      exact absurd rfl (m.head?_exponentText hpoint).2
    case h_2 => rfl
  case isFalse =>
    exact spanDigits_append m.isDigit_fraction fun c hc => (m.head?_exponentText hc).1

theorem head?_tail (m : Numeral) {c : Char} (h : c ∈ (m.fractionText ++ m.exponentText).head?) :
    c.isDigit = false := by
  unfold fractionText at h
  split at h
  case isTrue => exact (m.head?_exponentText h).1
  case isFalse =>
    obtain rfl : '.' = c := by simpa using h
    decide

theorem spanDigits_text (m : Numeral) :
    spanDigits m.text = (m.whole, m.fractionText ++ m.exponentText) :=
  spanDigits_append m.isDigit_whole fun _ hc => m.head?_tail hc

end Numeral

theorem readDecimal?_text (m : Numeral) : readDecimal? m.text = some m.value := by
  have hwhole : m.whole.isEmpty = false := List.isEmpty_eq_false_iff.2 m.whole_ne_nil
  simp [readDecimal?, m.spanDigits_text, m.spanFraction_text, hwhole, m.readExponent?_exponentText,
    Numeral.value]

/-! ## Points and zeros -/

/-- There is one point at most, and it stands between two digits. A zero in front of the text is
not followed by a digit. -/
structure IsPlain (text : List Char) : Prop where
  point : ∀ before after, text = before ++ '.' :: after → '.' ∉ before ∧ '.' ∉ after ∧
    (∃ c ∈ before.getLast?, c.isDigit) ∧ ∃ c ∈ after.head?, c.isDigit
  zero : ∀ c rest, text = '0' :: c :: rest → c.isDigit = false

theorem point_not_mem {digits : List Char} (h : ∀ c ∈ digits, c.isDigit) : '.' ∉ digits :=
  fun hmem => absurd (h _ hmem) (by decide)

namespace Numeral

theorem point_not_mem_exponentText (m : Numeral) : '.' ∉ m.exponentText := by
  unfold exponentText
  cases m.exponent? with
  | none => simp
  | some e =>
    have hmark : '.' ≠ e.mark := by
      rcases e.isMark with h | h <;> rw [h] <;> decide
    have hsign : '.' ≠ if e.negative then '-' else '+' := by
      cases e.negative <;> decide
    simp [Exponent.text, hmark, hsign, point_not_mem e.isDigit]

theorem isPlain_text (m : Numeral) : IsPlain m.text where
  point before after h := by
    have hwhole := point_not_mem m.isDigit_whole
    have htail := m.point_not_mem_exponentText
    unfold text fractionText at h
    split at h
    case isTrue =>
      have hmem : '.' ∈ before ++ '.' :: after := by simp
      rw [← h] at hmem
      simp [hwhole, htail] at hmem
    case isFalse hne =>
      have hrest : '.' ∉ m.fraction ++ m.exponentText := by
        simp [point_not_mem m.isDigit_fraction, htail]
      rw [List.cons_append] at h
      obtain ⟨rfl, -, rfl⟩ := (List.append_cons_inj_of_notMem hwhole hrest).1 h
      obtain ⟨c, rest, hcons⟩ := List.exists_cons_of_ne_nil hne
      refine ⟨hwhole, hrest, ⟨_, List.getLast?_eq_some_getLast m.whole_ne_nil, ?_⟩, c, ?_, ?_⟩
      · exact m.isDigit_whole _ (List.getLast_mem _)
      · rw [hcons]
        rfl
      · exact m.isDigit_fraction c (by rw [hcons]; exact List.mem_cons_self)
  zero c rest h := by
    obtain ⟨first, more, hcons⟩ := List.exists_cons_of_ne_nil m.whole_ne_nil
    unfold text at h
    have hfirst : first = '0' := by
      rw [hcons] at h
      exact (List.cons.inj h).1
    rw [m.plain (by rw [hcons, hfirst]; rfl)] at h
    have htail : m.fractionText ++ m.exponentText = c :: rest := (List.cons.inj h).2
    refine m.head?_tail ?_
    rw [htail]
    rfl

end Numeral

/-! ## Significant digits -/

namespace Digits

/-- The number that significant digits stand for, `0.digits * 10 ^ point`. -/
def value (d : Digits) : ℚ :=
  Nat.ofDigitChars 10 d.digits 0 / 10 ^ d.digits.length * 10 ^ d.point

/-- There are digits, and the first of them is not zero. -/
structure IsSignificant (d : Digits) : Prop where
  ne_nil : d.digits ≠ []
  isDigit : ∀ c ∈ d.digits, c.isDigit
  head : d.digits.head? ≠ some '0'

theorem value_append (l r : List Char) (point : Int) :
    value ⟨l ++ r, l.length + point⟩ = rationalOf l r point := by
  unfold value rationalOf
  dsimp only
  rw [Nat.ofDigitChars_append, Nat.ofDigitChars_eq_ofDigitChars_zero, List.length_append, pow_add,
    zpow_add₀ (by norm_num), zpow_natCast]
  push_cast
  field_simp

theorem value_append_zeros (digits : List Char) (k : Nat) (point : Int) :
    value ⟨digits ++ List.replicate k '0', point⟩ = value ⟨digits, point⟩ := by
  unfold value
  dsimp only
  rw [Nat.ofDigitChars_append, Nat.ofDigitChars_replicate_zero, List.length_append,
    List.length_replicate, pow_add]
  push_cast
  field_simp

theorem value_zeros_append (digits : List Char) (k : Nat) (point : Int) :
    value ⟨List.replicate k '0' ++ digits, k + point⟩ = value ⟨digits, point⟩ := by
  unfold value
  dsimp only
  rw [Nat.ofDigitChars_append, Nat.ofDigitChars_replicate_zero, List.length_append,
    List.length_replicate, pow_add, Nat.mul_zero, zpow_add₀ (by norm_num), zpow_natCast]
  field_simp

end Digits

theorem Numeral.value_eq (m : Numeral) :
    m.value = Digits.value ⟨m.whole ++ m.fraction, m.whole.length + m.exponent⟩ :=
  (Digits.value_append _ _ _).symm

theorem isDigit_zeros {k : Nat} {c : Char} (h : c ∈ List.replicate k '0') : c.isDigit := by
  rw [List.eq_of_mem_replicate h]
  decide

namespace Digits.IsSignificant

variable {d : Digits}

theorem append_zeros (hd : d.IsSignificant) (k : Nat) (point : Int) :
    IsSignificant ⟨d.digits ++ List.replicate k '0', point⟩ where
  ne_nil := List.append_ne_nil_of_left_ne_nil hd.ne_nil _
  isDigit c hc := (List.mem_append.1 hc).elim (hd.isDigit c) isDigit_zeros
  head := by
    rw [List.head?_append_of_ne_nil _ hd.ne_nil]
    exact hd.head

/-- The numeral with the point after the first `n` digits. -/
def splitAt (hd : d.IsSignificant) {n : Nat} (hn : 0 < n) (exponent? : Option Exponent) :
    Numeral where
  whole := d.digits.take n
  fraction := d.digits.drop n
  exponent?
  whole_ne_nil := by simp [hd.ne_nil, Nat.ne_of_gt hn]
  isDigit_whole c hc := hd.isDigit c (List.mem_of_mem_take hc)
  plain h := by
    rw [List.head?_take, if_neg (Nat.ne_of_gt hn)] at h
    exact absurd h hd.head
  isDigit_fraction c hc := hd.isDigit c (List.mem_of_mem_drop hc)

/-- The numeral with a zero before the point, and `k` zeros and the digits after it. -/
def afterZeros (hd : d.IsSignificant) (k : Nat) : Numeral where
  whole := ['0']
  fraction := List.replicate k '0' ++ d.digits
  exponent? := none
  whole_ne_nil := List.cons_ne_nil _ _
  isDigit_whole := by simp
  plain _ := rfl
  isDigit_fraction c hc := (List.mem_append.1 hc).elim isDigit_zeros (hd.isDigit c)

variable (hd : d.IsSignificant)

theorem value_splitAt {n : Nat} (hn : 0 < n) (hle : n ≤ d.digits.length)
    (exponent? : Option Exponent) :
    (hd.splitAt hn exponent?).value = value ⟨d.digits, n + (hd.splitAt hn exponent?).exponent⟩ := by
  rw [Numeral.value_eq]
  simp only [splitAt, List.take_append_drop, List.length_take, Nat.min_eq_left hle]

theorem value_afterZeros (k : Nat) : (hd.afterZeros k).value = value ⟨d.digits, -(k : Int)⟩ := by
  rw [Numeral.value_eq, ← value_zeros_append d.digits (k + 1)]
  congr 1
  simp [afterZeros, Numeral.exponent, List.replicate_succ]

theorem text_afterZeros (k : Nat) :
    (hd.afterZeros k).text = '0' :: '.' :: (List.replicate k '0' ++ d.digits) := by
  have hfraction : List.replicate k '0' ++ d.digits ≠ [] :=
    List.append_ne_nil_of_right_ne_nil _ hd.ne_nil
  have htext : (hd.afterZeros k).fractionText = '.' :: (List.replicate k '0' ++ d.digits) :=
    if_neg hfraction
  rw [Numeral.text, htext, show (hd.afterZeros k).exponentText = [] from rfl, List.append_nil]
  rfl

end Digits.IsSignificant

/-! ## Layouts -/

namespace Layout

theorem fixed_of_lt {digits : List Char} {n : Nat} (hn : 0 < n) (h : n < digits.length) :
    fixed ⟨digits, n⟩ = digits.take n ++ '.' :: digits.drop n := by
  cases n with
  | zero => exact absurd hn (Nat.lt_irrefl 0)
  | succ n => exact if_neg (Nat.not_le.2 h)

theorem fixed_neg (digits : List Char) (k : Nat) :
    fixed ⟨digits, -(k : Int)⟩ = '0' :: '.' :: (List.replicate k '0' ++ digits) := by
  cases k <;> rfl

theorem exists_numeral_fixed {d : Digits} (hd : d.IsSignificant) :
    ∃ m : Numeral, m.text = fixed d ∧ m.value = d.value ∧ m.exponent? = none := by
  obtain ⟨digits, point⟩ := d
  rcases Int.lt_or_le 0 point with hpos | hneg
  · obtain ⟨n, rfl⟩ := Int.eq_ofNat_of_zero_le (Int.le_of_lt hpos)
    have hn : 0 < n := by omega
    rcases Nat.lt_or_ge n digits.length with hlt | hge
    · refine ⟨hd.splitAt hn none, ?_, ?_, rfl⟩
      · have hdrop : digits.drop n ≠ [] := by simpa using hlt
        rw [fixed_of_lt hn hlt]
        simp [Numeral.text, Numeral.fractionText, Numeral.exponentText,
          Digits.IsSignificant.splitAt, hdrop]
      · rw [hd.value_splitAt hn (Nat.le_of_lt hlt)]
        simp [Numeral.exponent, Digits.IsSignificant.splitAt]
    · -- With the zeros up to the point, the digits are just those before it.
      have hlength : (digits ++ List.replicate (n - digits.length) '0').length = n := by
        rw [List.length_append, List.length_replicate]
        omega
      refine ⟨(hd.append_zeros (n - digits.length) n).splitAt hn none, ?_, ?_, rfl⟩
      · rw [fixed_of_le hn hge]
        simp [Numeral.text, Numeral.fractionText, Numeral.exponentText,
          Digits.IsSignificant.splitAt, hlength, List.take_of_length_le]
      · rw [Digits.IsSignificant.value_splitAt _ hn (Nat.le_of_eq hlength.symm)]
        simp [Numeral.exponent, Digits.IsSignificant.splitAt, Digits.value_append_zeros]
  · obtain ⟨k, rfl⟩ : ∃ k : Nat, point = -(k : Int) := ⟨point.natAbs, by omega⟩
    exact ⟨hd.afterZeros k, by rw [hd.text_afterZeros, fixed_neg], hd.value_afterZeros k, rfl⟩

/-- The exponent of a number, with the mark and the width of a layout. -/
def exponentOf (layout : Layout) (hmark : layout.mark = 'e' ∨ layout.mark = 'E') (n : Int) :
    Exponent where
  mark := layout.mark
  negative := n < 0
  digits := padded layout.exponentWidth n.natAbs
  isMark := hmark
  ne_nil := List.append_ne_nil_of_right_ne_nil _ Nat.toDigits_ne_nil
  isDigit c hc := (List.mem_append.1 hc).elim isDigit_zeros
    (Nat.isDigit_of_mem_toDigits (by decide) (by decide))

variable {layout : Layout} (hmark : layout.mark = 'e' ∨ layout.mark = 'E')

theorem value_exponentOf (n : Int) : (layout.exponentOf hmark n).value = n := by
  have hdigits : Nat.ofDigitChars 10 (padded layout.exponentWidth n.natAbs) 0 = n.natAbs := by
    rw [padded, Nat.ofDigitChars_append, Nat.ofDigitChars_replicate_zero, Nat.mul_zero,
      Nat.ofDigitChars_ten_toDigits]
  simp only [Exponent.value, exponentOf, hdigits, decide_eq_true_eq]
  split <;> omega

/-- An exponent has at least as many digits as the layout asks for, and zeros in front only up to
that many. -/
theorem padded_spec {width : Nat} (hwidth : 0 < width) (n : Nat) :
    width ≤ (padded width n).length ∧
      (width < (padded width n).length → (padded width n).head? ≠ some '0') := by
  have hlength : (padded width n).length =
      width - (Nat.toDigits 10 n).length + (Nat.toDigits 10 n).length := by
    simp [padded]
  refine ⟨by omega, fun hlt => ?_⟩
  have hpos : 0 < n := by
    refine Nat.pos_of_ne_zero ?_
    rintro rfl
    rw [Nat.toDigits_zero, List.length_singleton] at hlength
    omega
  have hnone : width - (Nat.toDigits 10 n).length = 0 := by omega
  rw [padded, hnone]
  exact head?_toDigits hpos

theorem exists_numeral_scientific {d : Digits} (hd : d.IsSignificant) :
    ∃ m : Numeral, m.text = layout.scientific d ∧ m.value = d.value ∧ m.whole.length = 1 ∧
      m.exponent? = some (layout.exponentOf hmark (d.point - 1)) := by
  obtain ⟨digits, point⟩ := d
  have hexponent : (hd.splitAt Nat.one_pos (some (layout.exponentOf hmark (point - 1)))).exponent =
      point - 1 := value_exponentOf hmark _
  obtain ⟨first, rest, rfl⟩ := List.exists_cons_of_ne_nil hd.ne_nil
  refine ⟨hd.splitAt Nat.one_pos (some (layout.exponentOf hmark (point - 1))), ?_, ?_, rfl, rfl⟩
  · unfold scientific Numeral.text Numeral.fractionText Numeral.exponentText
    cases rest <;> simp [Digits.IsSignificant.splitAt, Exponent.text, exponentOf]
  · rw [hd.value_splitAt Nat.one_pos (by simp), hexponent]
    congr 2
    omega

end Layout

/-- The text is a format's numeral for significant digits. It denotes their number. The number is
written out if the point stands at `least` to `most`. Otherwise there is one digit before the point,
and an exponent with the given mark and `width` digits. Only an exponent without zeros in front has
more of them. -/
structure Digits.WrittenAs (d : Digits) (least most : Int) (mark : Char) (width : Nat)
    (text : List Char) : Prop where
  reads : readDecimal? text = some d.value
  plain : IsPlain text
  numeral : ∃ m : Numeral, m.text = text ∧
    if least ≤ d.point ∧ d.point ≤ most then m.exponent? = none
    else m.whole.length = 1 ∧ ∃ e, m.exponent? = some e ∧ e.mark = mark ∧ e.value = d.point - 1 ∧
      width ≤ e.digits.length ∧ (width < e.digits.length → e.digits.head? ≠ some '0')

namespace Layout

variable {layout : Layout} (hmark : layout.mark = 'e' ∨ layout.mark = 'E')

include hmark

/-- A layout writes significant digits as a numeral of their number. -/
theorem exists_numeral_digits {d : Digits} (hd : d.IsSignificant) :
    ∃ m : Numeral, m.text = layout.digits d ∧ m.value = d.value ∧
      if layout.positional d.point then m.exponent? = none
      else m.whole.length = 1 ∧ m.exponent? = some (layout.exponentOf hmark (d.point - 1)) := by
  unfold digits
  split
  · exact exists_numeral_fixed hd
  · exact exists_numeral_scientific hmark hd

theorem readDecimal?_digits {d : Digits} (hd : d.IsSignificant) :
    readDecimal? (layout.digits d) = some d.value := by
  obtain ⟨m, htext, hvalue, -⟩ := exists_numeral_digits hmark hd
  rw [← htext, readDecimal?_text, hvalue]

theorem writtenAs_digits {least most : Int}
    (hpositional : ∀ n, layout.positional n = decide (least ≤ n ∧ n ≤ most))
    (hwidth : 0 < layout.exponentWidth) {d : Digits} (hd : d.IsSignificant) :
    d.WrittenAs least most layout.mark layout.exponentWidth (layout.digits d) := by
  obtain ⟨m, htext, -, hform⟩ := exists_numeral_digits hmark hd
  refine ⟨readDecimal?_digits hmark hd, htext ▸ m.isPlain_text, m, htext, ?_⟩
  rw [hpositional] at hform
  split
  case isTrue hwindow => rwa [if_pos (decide_eq_true hwindow)] at hform
  case isFalse hwindow =>
    rw [if_neg (by simpa using hwindow)] at hform
    obtain ⟨hwhole, hexponent⟩ := hform
    exact ⟨hwhole, _, hexponent, rfl, value_exponentOf hmark _, padded_spec hwidth _⟩

end Layout

end FactStream.Number
