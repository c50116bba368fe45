import FactStream.Proofs.Decimals
import FactStream.Proofs.RealTexts
import Mathlib.Tactic.NormNum

/-!
# Doubles are told apart by their texts

The shortest digits of a double stand for a number that rounds to it
(`Number.rounds_shortest`). Greater doubles have greater such numbers
(`Number.value_shortest_lt`), since the intervals of numbers that round to two doubles have no point
in common. A layout keeps these numbers, so the texts of two doubles are different.

Main statement: `Naming.numbers_kept`.
-/

namespace FactStream

namespace Number

/-! ## Rounding intervals -/

/-- How far the numbers that round to a double reach below it, in quarters of its last bit. The
double below a power of two is half as far away as the one above. -/
def reachBelow (significand : Nat) (exponent : Int) : Nat :=
  if significand = Nat.pow 2 52 ∧ -1074 < exponent then 1 else 2

/-- The number rounds to `significand * 2 ^ exponent`. It may lie half way to another double only
if the significand is even. -/
structure Rounds (significand : Nat) (exponent : Int) (q : ℚ) : Prop where
  low : (4 * significand - reachBelow significand exponent : Nat) * 2 ^ (exponent - 2) ≤ q
  high : q ≤ (4 * significand + 2 : Nat) * 2 ^ (exponent - 2)
  inside : significand % 2 ≠ 0 →
    (4 * significand - reachBelow significand exponent : Nat) * 2 ^ (exponent - 2) < q ∧
      q < (4 * significand + 2 : Nat) * 2 ^ (exponent - 2)

namespace Rounding

/-- A number of quarters of the last bit, in the units of the interval. -/
def unit (exponent : Int) (n : Nat) : Nat :=
  match exponent - 2 with
  | .ofNat e => n * Nat.pow 2 e
  | .negSucc e => n * Nat.pow 5 (e + 1)

theorem ofDouble_eq (significand : Nat) (exponent : Int) :
    ofDouble significand exponent =
      { value := unit exponent (4 * significand)
        low := unit exponent (4 * significand - reachBelow significand exponent)
        high := unit exponent (4 * significand + 2)
        closed := significand % 2 = 0
        places := (2 - exponent).toNat } := rfl

variable {significand n x : Nat} {exponent : Int}

theorem unit_lt_unit {m : Nat} (h : n < m) : unit exponent n < unit exponent m := by
  unfold unit
  split
  · exact Nat.mul_lt_mul_of_pos_right h (Nat.pow_pos (by decide))
  · exact Nat.mul_lt_mul_of_pos_right h (Nat.pow_pos (by decide))

theorem unit_zero : unit exponent 0 = 0 := by
  unfold unit
  split <;> exact Nat.zero_mul _

theorem cast_unit (exponent : Int) (n : Nat) :
    (unit exponent n : ℚ) = n * 2 ^ (exponent - 2) * 10 ^ (2 - exponent).toNat := by
  unfold unit
  cases hexp : exponent - 2 with
  | ofNat e =>
    have hexp' : exponent - 2 = (e : Int) := hexp
    rw [show (2 - exponent).toNat = 0 by omega]
    simp
  | negSucc e =>
    have hten : (10 : ℚ) ^ (e + 1) = 5 ^ (e + 1) * 2 ^ (e + 1) := by
      rw [← mul_pow]
      norm_num
    rw [show (2 - exponent).toNat = e + 1 by omega, zpow_negSucc, hten]
    simp only [Nat.pow_eq]
    push_cast
    field_simp

theorem unit_lt_iff :
    unit exponent n < x ↔ n * 2 ^ (exponent - 2) < (x : ℚ) / 10 ^ (2 - exponent).toNat := by
  rw [lt_div_iff₀ (pow_pos (by norm_num) _), ← cast_unit, Nat.cast_lt]

theorem lt_unit_iff :
    x < unit exponent n ↔ (x : ℚ) / 10 ^ (2 - exponent).toNat < n * 2 ^ (exponent - 2) := by
  rw [div_lt_iff₀ (pow_pos (by norm_num) _), ← cast_unit, Nat.cast_lt]

theorem rounds_of_contains (h : (ofDouble significand exponent).contains x = true) :
    Rounds significand exponent (x / 10 ^ (ofDouble significand exponent).places) := by
  rw [ofDouble_eq] at h ⊢
  unfold contains at h
  dsimp only at h ⊢
  split at h
  case isTrue heven =>
    obtain ⟨hlow, hhigh⟩ := of_decide_eq_true h
    refine ⟨?_, ?_, fun hodd => absurd (of_decide_eq_true heven) hodd⟩
    · exact not_lt.1 (mt lt_unit_iff.2 (Nat.not_lt.2 hlow))
    · exact not_lt.1 (mt unit_lt_iff.2 (Nat.not_lt.2 hhigh))
  case isFalse =>
    obtain ⟨hlow, hhigh⟩ := of_decide_eq_true h
    have hinside := And.intro (unit_lt_iff.1 hlow) (lt_unit_iff.1 hhigh)
    exact ⟨hinside.1.le, hinside.2.le, fun _ => hinside⟩

theorem contains_of_onGrid? {r : Rounding} {grid x : Nat} (h : r.onGrid? grid = some x) :
    r.contains x = true := by
  unfold onGrid? at h
  dsimp only at h
  split at h
  case h_1 hfloor hceiling =>
    obtain rfl := Option.some.inj h
    split
    · exact hceiling
    · exact hfloor
  case h_2 hfloor _ => rwa [← Option.some.inj h]
  case h_3 _ hceiling => rwa [← Option.some.inj h]
  case h_4 => simp at h

section Positive

variable (hsig : 0 < significand)

include hsig

theorem contains_value :
    (ofDouble significand exponent).contains (ofDouble significand exponent).value = true := by
  have hreach : 0 < reachBelow significand exponent := by
    unfold reachBelow
    split <;> decide
  have hlow : (ofDouble significand exponent).low < (ofDouble significand exponent).value := by
    rw [ofDouble_eq]
    exact unit_lt_unit (by omega)
  have hhigh : (ofDouble significand exponent).value < (ofDouble significand exponent).high := by
    rw [ofDouble_eq]
    exact unit_lt_unit (by omega)
  unfold contains
  split
  · exact decide_eq_true ⟨Nat.le_of_lt hlow, Nat.le_of_lt hhigh⟩
  · exact decide_eq_true ⟨hlow, hhigh⟩

theorem pos_of_contains (h : (ofDouble significand exponent).contains x = true) : 0 < x := by
  have hreach : reachBelow significand exponent < 4 * significand := by
    unfold reachBelow
    split <;> omega
  have hlow : 0 < (ofDouble significand exponent).low := by
    rw [ofDouble_eq, ← @unit_zero exponent]
    exact unit_lt_unit (by omega)
  exact Nat.lt_of_lt_of_le hlow (le_of_contains h).1

end Positive

end Rounding

/-! ## Shortest digits -/

section Shortest

variable {significand : Nat} (hsig : 0 < significand) (exponent : Int)

include hsig

theorem exists_shortest :
    ∃ x, (Rounding.ofDouble significand exponent).contains x = true ∧
      shortest significand exponent =
        ⟨dropTrailingZeros (Nat.toDigits 10 x),
          (Nat.toDigits 10 x).length - (Rounding.ofDouble significand exponent).places⟩ := by
  refine ⟨_, ?_, rfl⟩
  cases hhit : (List.range 17).findSome? _ with
  | none => exact Rounding.contains_value hsig
  | some x =>
    obtain ⟨n, -, hx⟩ := List.exists_of_findSome?_eq_some hhit
    exact Rounding.contains_of_onGrid? hx

theorem rounds_shortest : Rounds significand exponent (shortest significand exponent).value := by
  obtain ⟨x, hx, heq⟩ := exists_shortest hsig exponent
  obtain ⟨k, hk⟩ := exists_zeros (Nat.toDigits 10 x)
  have hvalue : (shortest significand exponent).value =
      x / 10 ^ (Rounding.ofDouble significand exponent).places := by
    rw [heq, ← Digits.value_append_zeros _ k, ← hk, Digits.value]
    dsimp only
    rw [Nat.ofDigitChars_ten_toDigits, zpow_sub₀ (by norm_num), zpow_natCast, zpow_natCast]
    field_simp
  rw [hvalue]
  exact Rounding.rounds_of_contains hx

theorem isSignificant_shortest : (shortest significand exponent).IsSignificant := by
  obtain ⟨x, hx, heq⟩ := exists_shortest hsig exponent
  obtain ⟨k, hk⟩ := exists_zeros (Nat.toDigits 10 x)
  have hhead := head?_toDigits (Rounding.pos_of_contains hsig hx)
  rw [hk] at hhead
  -- Not all digits are zeros, since the first one is not.
  have hne : dropTrailingZeros (Nat.toDigits 10 x) ≠ [] := by
    intro hnil
    rw [hnil, List.nil_append] at hk hhead
    have hzero : k ≠ 0 := by
      rintro rfl
      exact Nat.toDigits_ne_nil hk
    simp [List.head?_replicate, hzero] at hhead
  rw [List.head?_append_of_ne_nil _ hne] at hhead
  exact ⟨by rwa [heq], fun c hc => isDigit_of_mem_shortest hc, by rwa [heq]⟩

end Shortest

/-! ## The order of doubles -/

/-- One double comes before another: with the same exponent it has the smaller significand, and
with a smaller exponent the other one has all its bits. -/
def Precedes (s : Nat) (e : Int) (s' : Nat) (e' : Int) : Prop :=
  (e = e' ∧ s < s') ∨ (-1074 ≤ e ∧ e < e' ∧ s < Nat.pow 2 53 ∧ Nat.pow 2 52 ≤ s')

/-- The interval of a double ends before that of a later one begins. Where the two meet, one of the
significands is odd. -/
theorem Precedes.quarters {s s' : Nat} {e e' : Int} (h : Precedes s e s' e') :
    ∃ k : Nat, e' = e + k ∧ 4 * s + 2 ≤ (4 * s' - reachBelow s' e') * 2 ^ k ∧
      (4 * s + 2 = (4 * s' - reachBelow s' e') * 2 ^ k → s % 2 ≠ 0 ∨ s' % 2 ≠ 0) := by
  rcases h with ⟨rfl, hlt⟩ | ⟨hleast, hlt, hs, hs'⟩
  · refine ⟨0, by omega, ?_⟩
    unfold reachBelow
    split <;> omega
  · obtain ⟨k, rfl⟩ : ∃ k : Nat, e' = e + (k + 1 : Nat) := ⟨(e' - e - 1).toNat, by omega⟩
    -- A power of two reaches down by one quarter only, just to the end of the largest significand.
    have hreach : 4 * 2 ^ 52 - 1 ≤ 4 * s' - reachBelow s' (e + (k + 1 : Nat)) := by
      unfold reachBelow
      rw [Nat.pow_eq] at hs' ⊢
      split <;> omega
    have hpow : (4 * s' - reachBelow s' (e + (k + 1 : Nat))) * 2 ≤
        (4 * s' - reachBelow s' (e + (k + 1 : Nat))) * 2 ^ (k + 1) := by
      refine Nat.mul_le_mul_left _ ?_
      rw [Nat.pow_succ]
      have := Nat.two_pow_pos k
      omega
    rw [Nat.pow_eq] at hs
    exact ⟨k + 1, rfl, by omega, by omega⟩

theorem Rounds.lt {s s' : Nat} {e e' : Int} {q q' : ℚ} (h : Rounds s e q) (h' : Rounds s' e' q')
    (hprecedes : Precedes s e s' e') : q < q' := by
  obtain ⟨k, rfl, hle, hmeet⟩ := hprecedes.quarters
  have hunit : (0 : ℚ) < 2 ^ (e - 2) := zpow_pos (by norm_num) _
  have hscale : ((4 * s' - reachBelow s' (e + k) : Nat) : ℚ) * 2 ^ (e + k - 2) =
      ((4 * s' - reachBelow s' (e + k)) * 2 ^ k : Nat) * 2 ^ (e - 2) := by
    rw [show e + k - 2 = k + (e - 2) by omega, zpow_add₀ (by norm_num), zpow_natCast]
    push_cast
    ring
  obtain ⟨-, hhigh, hinside⟩ := h
  obtain ⟨hlow, -, hinside'⟩ := h'
  rw [hscale] at hlow hinside'
  rcases Nat.lt_or_eq_of_le hle with hlt | heq
  · have hends : ((4 * s + 2 : Nat) : ℚ) * 2 ^ (e - 2) <
        ((4 * s' - reachBelow s' (e + k)) * 2 ^ k : Nat) * 2 ^ (e - 2) :=
      mul_lt_mul_of_pos_right (by exact_mod_cast hlt) hunit
    exact lt_of_le_of_lt hhigh (lt_of_lt_of_le hends hlow)
  · rw [← heq] at hlow hinside'
    rcases hmeet heq with hodd | hodd
    · exact lt_of_lt_of_le (hinside hodd).2 hlow
    · exact lt_of_le_of_lt hhigh (hinside' hodd).1

namespace Double

/-- The significand of a positive double with the given bits. -/
def significandOf (bits : Nat) : Nat :=
  if bits < Nat.pow 2 52 then bits else Nat.pow 2 52 + bits % Nat.pow 2 52

/-- The exponent of a positive double with the given bits. -/
def exponentOf (bits : Nat) : Int :=
  if bits < Nat.pow 2 52 then -1074 else (bits / Nat.pow 2 52 : Nat) - 1075

theorem ofBits_eq {bits : Nat} (h : bits < 2047 * Nat.pow 2 52) :
    ofBits bits = .finite false (significandOf bits) (exponentOf bits) := by
  rw [Nat.pow_eq] at h
  have hsign : bits / 2 ^ 63 % 2 = 0 := by omega
  have hbiased : bits / 2 ^ 52 % 2048 = bits / 2 ^ 52 := by omega
  unfold ofBits significandOf exponentOf leastExponent
  simp only [Nat.pow_eq, hsign, hbiased]
  rw [if_neg (by omega)]
  by_cases hsmall : bits < 2 ^ 52
  · rw [if_pos (by omega), if_pos hsmall, if_pos hsmall, Nat.mod_eq_of_lt hsmall]
    rfl
  · rw [if_neg (by omega), if_neg hsmall, if_neg hsmall]
    rfl

theorem significandOf_pos {bits : Nat} (h : 0 < bits) : 0 < significandOf bits := by
  unfold significandOf
  rw [Nat.pow_eq]
  split <;> omega

theorem precedes_of_lt {b b' : Nat} (h : b < b') :
    Precedes (significandOf b) (exponentOf b) (significandOf b') (exponentOf b') := by
  unfold Precedes significandOf exponentOf
  simp only [Nat.pow_eq]
  split <;> split <;> omega

end Double

theorem Rounding.unit_le (exponent : Int) (n : Nat) :
    unit exponent n ≤ n * 10 ^ (exponent - 2).natAbs := by
  unfold unit
  cases exponent - 2 with
  | ofNat e => exact Nat.mul_le_mul_left n (Nat.pow_le_pow_left (by decide) e)
  | negSucc e => exact Nat.mul_le_mul_left n (Nat.pow_le_pow_left (by decide) (e + 1))

/-- The digits of a double and the place of its point are so few that numbers of 32 bits hold
them. -/
theorem bounds_shortest {bits : Nat} (hpos : 0 < bits) (h : bits < 2047 * Nat.pow 2 52) :
    let d := shortest (Double.significandOf bits) (Double.exponentOf bits)
    d.digits.length ≤ 1093 ∧ -1076 ≤ d.point ∧ d.point ≤ 1093 := by
  have hrange : 4 * Double.significandOf bits + 2 < 10 ^ 17 ∧
      -1074 ≤ Double.exponentOf bits ∧ Double.exponentOf bits ≤ 971 := by
    unfold Double.significandOf Double.exponentOf
    rw [Nat.pow_eq] at h ⊢
    split <;> omega
  obtain ⟨hsig, hleast, hmost⟩ := hrange
  obtain ⟨x, hx, heq⟩ := exists_shortest (Double.significandOf_pos hpos) (Double.exponentOf bits)
  have hbelow : x < 10 ^ (17 + (Double.exponentOf bits - 2).natAbs) :=
    calc x ≤ Rounding.unit (Double.exponentOf bits) (4 * Double.significandOf bits + 2) :=
          (Rounding.le_of_contains hx).2
      _ ≤ (4 * Double.significandOf bits + 2) * 10 ^ (Double.exponentOf bits - 2).natAbs :=
          Rounding.unit_le _ _
      _ < 10 ^ 17 * 10 ^ (Double.exponentOf bits - 2).natAbs :=
          Nat.mul_lt_mul_of_pos_right hsig (Nat.pow_pos (by decide))
      _ = 10 ^ (17 + (Double.exponentOf bits - 2).natAbs) := (Nat.pow_add ..).symm
  have hlength : (Nat.toDigits 10 x).length ≤ 17 + (Double.exponentOf bits - 2).natAbs :=
    (Nat.length_toDigits_le_iff (by decide) (by omega)).2 hbelow
  obtain ⟨k, hk⟩ := exists_zeros (Nat.toDigits 10 x)
  have hzeros := congrArg List.length hk
  rw [List.length_append] at hzeros
  have hplaces : (Rounding.ofDouble (Double.significandOf bits) (Double.exponentOf bits)).places =
      (2 - Double.exponentOf bits).toNat := rfl
  rw [heq]
  dsimp only
  omega

/-- The shortest digits of greater doubles stand for greater numbers. -/
theorem value_shortest_lt {b b' : Nat} (hpos : 0 < b) (h : b < b') :
    (shortest (Double.significandOf b) (Double.exponentOf b)).value <
      (shortest (Double.significandOf b') (Double.exponentOf b')).value :=
  Rounds.lt (rounds_shortest (Double.significandOf_pos hpos) _)
    (rounds_shortest (Double.significandOf_pos (Nat.lt_trans hpos h)) _) (Double.precedes_of_lt h)

end Number

/-! ## Texts -/

namespace Naming

open Number

theorem mark_layout (naming : Naming) :
    naming.layout.mark = 'e' ∨ naming.layout.mark = 'E' := by
  cases naming <;> decide

theorem digits_ne (naming : Naming) {d d' : Digits} (hd : d.IsSignificant)
    (hd' : d'.IsSignificant) (h : d.value ≠ d'.value) :
    naming.layout.digits d ≠ naming.layout.digits d' := by
  intro heq
  have hread := Layout.readDecimal?_digits naming.mark_layout hd
  rw [heq, Layout.readDecimal?_digits naming.mark_layout hd'] at hread
  exact h (Option.some.inj hread).symm

theorem render_ofBits (naming : Naming) {bits : Nat} (hpos : 0 < bits)
    (h : bits < 2047 * Nat.pow 2 52) :
    naming.render (.float (.ofBits bits)) =
      String.ofList (naming.layout.digits
        (shortest (Double.significandOf bits) (Double.exponentOf bits))) := by
  rw [Double.ofBits_eq h, render, Layout.render,
    if_neg (Nat.ne_of_gt (Double.significandOf_pos hpos))]
  rfl

/-- Formats keep the value of numbers. The text of significant digits is a numeral of their number,
written out or with an exponent as the format has it. So digits that stand for different numbers
have different texts, and this is the case for the shortest digits of any two positive doubles. -/
theorem numbers_kept :
    (∀ d : Digits, d.IsSignificant →
      d.WrittenAs (-5) 21 'e' 1 (javaScript.layout.digits d) ∧
      d.WrittenAs (-5) 21 'e' 1 (php.layout.digits d) ∧
      d.WrittenAs (-3) 15 'E' 2 (clr.layout.digits d)) ∧
    ∀ naming : Naming,
      (∀ d d' : Digits, d.IsSignificant → d'.IsSignificant → d.value ≠ d'.value →
        naming.layout.digits d ≠ naming.layout.digits d') ∧
      ∀ b b' : Nat, 0 < b → b < 2047 * Nat.pow 2 52 → 0 < b' → b' < 2047 * Nat.pow 2 52 → b ≠ b' →
        naming.render (.float (.ofBits b)) ≠ naming.render (.float (.ofBits b')) := by
  refine ⟨fun d hd => ?_, fun naming => ⟨fun d d' hd hd' => naming.digits_ne hd hd', ?_⟩⟩
  · exact ⟨Layout.writtenAs_digits javaScript.mark_layout (fun _ => rfl) (by decide) hd,
      Layout.writtenAs_digits php.mark_layout (fun _ => rfl) (by decide) hd,
      Layout.writtenAs_digits clr.mark_layout (fun _ => rfl) (by decide) hd⟩
  · intro b b' hpos hb hpos' hb' hne heq
    rw [naming.render_ofBits hpos hb, naming.render_ofBits hpos' hb', String.ofList_inj] at heq
    refine naming.digits_ne (isSignificant_shortest (Double.significandOf_pos hpos) _)
      (isSignificant_shortest (Double.significandOf_pos hpos') _) ?_ heq
    rcases Nat.lt_or_gt_of_ne hne with hlt | hlt
    · exact ne_of_lt (value_shortest_lt hpos hlt)
    · exact ne_of_gt (value_shortest_lt hpos' hlt)

/-- The digits `125` with the point six places in front of them have an exponent in both formats,
one place more makes another text, and so does the double next to 0.1. -/
theorem numbers_kept_small :
    let d : Digits := ⟨['1', '2', '5'], -6⟩
    let d' : Digits := ⟨['1', '2', '5'], -7⟩
    (d.IsSignificant ∧ d'.IsSignificant ∧ d.value = 1 / 8000000 ∧ d'.value = 1 / 80000000) ∧
      (javaScript.layout.digits d = "1.25e-7".toList ∧
        readDecimal? "1.25e-7".toList = some (1 / 8000000)) ∧
      (clr.layout.digits d = "1.25E-07".toList ∧
        readDecimal? "1.25E-07".toList = some (1 / 8000000)) ∧
      clr.layout.digits d ≠ clr.layout.digits d' ∧
      javaScript.render (.float (.ofBits 4591870180066957722)) = "0.1" ∧
      javaScript.render (.float (.ofBits 4591870180066957723)) = "0.10000000000000002" ∧
      javaScript.render (.float (.ofBits 4591870180066957722)) ≠
        javaScript.render (.float (.ofBits 4591870180066957723)) := by
  intro d d'
  have hsig (point : Int) : (⟨['1', '2', '5'], point⟩ : Digits).IsSignificant :=
    ⟨by simp, by simp, by simp⟩
  have hdigits : Nat.ofDigitChars 10 ['1', '2', '5'] 0 = 125 := by decide
  have hvalue : d.value = 1 / 8000000 := by
    rw [Digits.value, hdigits]
    norm_num [d]
  have hvalue' : d'.value = 1 / 80000000 := by
    rw [Digits.value, hdigits]
    norm_num [d']
  obtain ⟨hwritten, hapart⟩ := numbers_kept
  obtain ⟨hjs, -, hclr⟩ := hwritten d (hsig _)
  have hjsText : javaScript.layout.digits d = "1.25e-7".toList := by decide
  have hclrText : clr.layout.digits d = "1.25E-07".toList := by decide
  refine ⟨⟨hsig _, hsig _, hvalue, hvalue'⟩, ⟨hjsText, ?_⟩, ⟨hclrText, ?_⟩, ?_,
    by decide +kernel, by decide +kernel, ?_⟩
  · rw [← hjsText, hjs.reads, hvalue]
  · rw [← hclrText, hclr.reads, hvalue]
  · refine (hapart clr).1 d d' (hsig _) (hsig _) ?_
    rw [hvalue, hvalue']
    norm_num
  · exact (hapart javaScript).2 _ _ (by decide) (by decide) (by decide) (by decide) (by decide)

end Naming

end FactStream
