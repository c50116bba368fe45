import FactStream.Number.Double
import Mathlib.Algebra.Order.Ring.Nat
import Mathlib.Tactic.Ring

/-!
# Whole numbers as doubles

`Number.RoundsTo v n` says that `n` is the double nearest to the whole number `v`, and of two
equally near ones the one with the even significand. There is one such `n` at most
(`Number.RoundsTo.unique`), and reading `v` as a double gives the same as reading `n`
(`Number.RoundsTo.ofFraction_eq`).
-/

namespace FactStream.Number

open Double

def gap (m n : Nat) : Nat := (m - n) + (n - m)

/-- The whole number has at most 53 significant bits. -/
def IsDouble (n : Nat) : Prop :=
  ∃ s e, s < 2 ^ 53 ∧ n = s * 2 ^ e

theorem isDouble_of_lt {n : Nat} (h : n < 2 ^ 53) : IsDouble n :=
  ⟨n, 0, h, by simp⟩

/-- As a double, the whole number `v` is `n`, if exponents are not bounded. From `2 ^ 1024` on, `n`
is out of the range of doubles. -/
structure RoundsTo (v n : Nat) : Prop where
  isDouble : IsDouble n
  nearest : ∀ m, IsDouble m → gap v n ≤ gap v m
  /-- Of two neighbours just one is a multiple of twice the way between them. -/
  even : ∀ m, IsDouble m → m ≠ n → gap v m = gap v n → 2 * gap m n ∣ n

/-! ## Rounding -/

theorem roundEven_one (v : Nat) : roundEven v 1 = v := by
  simp [roundEven, Nat.mod_one]

theorem roundEven_mul (s : Nat) {u : Nat} (hu : 0 < u) : roundEven (s * u) u = s := by
  simp [roundEven, Nat.mul_mod_left, hu]

/-- A rounded quotient is off by a half at most, and even if it is off by just a half. -/
theorem roundEven_spec (v : Nat) {u : Nat} (hu : 0 < u) :
    (roundEven v u = v / u ∨ roundEven v u = v / u + 1) ∧ 2 * gap v (roundEven v u * u) ≤ u ∧
      (2 * gap v (roundEven v u * u) = u → 2 ∣ roundEven v u) := by
  have hv := Nat.div_add_mod v u
  have hr := Nat.mod_lt v hu
  rw [Nat.mul_comm] at hv
  have hup : (v / u + 1) * u = v / u * u + u := by ring
  unfold roundEven gap
  dsimp only
  split
  · refine ⟨.inl rfl, ?_, ?_⟩ <;> omega
  · split
    · rw [hup]
      refine ⟨.inr rfl, ?_, ?_⟩ <;> omega
    · split
      · refine ⟨.inl rfl, ?_, ?_⟩ <;> omega
      · rw [hup]
        refine ⟨.inr rfl, ?_, ?_⟩ <;> omega

/-! ## Neighbours -/

/-- The unit of the last of the 53 bits of a number. -/
def lastBit (v : Nat) : Nat := 2 ^ (v.log2 - 52)

theorem lastBit_pos (v : Nat) : 0 < lastBit v := Nat.two_pow_pos _

theorem lastBit_dvd {v m : Nat} (hm : IsDouble m) (hle : 2 ^ 52 * lastBit v ≤ m) :
    lastBit v ∣ m := by
  obtain ⟨s, e, hs, rfl⟩ := hm
  refine Dvd.dvd.mul_left (Nat.pow_dvd_pow 2 ?_) s
  rw [lastBit, ← Nat.pow_add] at hle
  have hlt : s * 2 ^ e < 2 ^ (53 + e) := by
    rw [Nat.pow_add]
    exact Nat.mul_lt_mul_of_pos_right hs (Nat.two_pow_pos e)
  have := (Nat.pow_lt_pow_iff_right (by decide)).1 (Nat.lt_of_le_of_lt hle hlt)
  omega

section Large

variable {v : Nat} (h : 2 ^ 53 ≤ v)

include h

theorem fiftyThree_le_log2 : 53 ≤ v.log2 :=
  (Nat.le_log2 (by omega)).2 h

theorem div_lastBit : 2 ^ 52 ≤ v / lastBit v ∧ v / lastBit v < 2 ^ 53 := by
  have hlog := fiftyThree_le_log2 h
  have hlow : 2 ^ 52 * lastBit v ≤ v := by
    rw [lastBit, ← Nat.pow_add, show 52 + (v.log2 - 52) = v.log2 by omega]
    exact Nat.log2_self_le (by omega)
  have hhigh : v < 2 ^ 53 * lastBit v := by
    rw [lastBit, ← Nat.pow_add, show 53 + (v.log2 - 52) = v.log2 + 1 by omega]
    exact Nat.lt_log2_self
  exact ⟨(Nat.le_div_iff_mul_le (lastBit_pos v)).2 hlow,
    (Nat.div_lt_iff_lt_mul (lastBit_pos v)).2 hhigh⟩

theorem not_between {m : Nat} (hm : IsDouble m) :
    m ≤ v / lastBit v * lastBit v ∨ (v / lastBit v + 1) * lastBit v ≤ m := by
  have hu := lastBit_pos v
  by_contra hnot
  obtain ⟨hlow, hhigh⟩ := not_or.1 hnot
  have hbits := Nat.mul_le_mul_right (lastBit v) (div_lastBit h).1
  obtain ⟨t, rfl⟩ := lastBit_dvd (v := v) hm (by omega)
  rw [Nat.mul_comm (lastBit v) t] at hlow hhigh
  have h1 := Nat.lt_of_mul_lt_mul_right (Nat.lt_of_not_le hlow)
  have h2 := Nat.lt_of_mul_lt_mul_right (Nat.lt_of_not_le hhigh)
  omega

theorem isDouble_round : IsDouble (roundEven v (lastBit v) * lastBit v) := by
  obtain ⟨hcase, -, -⟩ := roundEven_spec v (lastBit_pos v)
  have hbits := (div_lastBit h).2
  rcases Nat.lt_or_ge (roundEven v (lastBit v)) (2 ^ 53) with hlt | hge
  · exact ⟨_, _, hlt, rfl⟩
  · have heq : roundEven v (lastBit v) = 2 ^ 53 := by omega
    refine ⟨1, 53 + (v.log2 - 52), by decide, ?_⟩
    rw [heq, lastBit, Nat.pow_add, Nat.one_mul]

theorem nearest_round {m : Nat} (hm : IsDouble m) :
    gap v (roundEven v (lastBit v) * lastBit v) ≤ gap v m := by
  have hv := Nat.div_add_mod v (lastBit v)
  have hup : (v / lastBit v + 1) * lastBit v = v / lastBit v * lastBit v + lastBit v := by ring
  have hr := Nat.mod_lt v (lastBit_pos v)
  obtain ⟨hcase, hhalf, -⟩ := roundEven_spec v (lastBit_pos v)
  rw [Nat.mul_comm] at hv
  unfold gap at hhalf ⊢
  rcases hcase with hcase | hcase <;> rw [hcase] at hhalf ⊢ <;>
    rcases not_between h hm with hle | hle <;> omega

theorem even_round {m : Nat} (hm : IsDouble m) (hne : m ≠ roundEven v (lastBit v) * lastBit v)
    (htie : gap v m = gap v (roundEven v (lastBit v) * lastBit v)) :
    2 * gap m (roundEven v (lastBit v) * lastBit v) ∣ roundEven v (lastBit v) * lastBit v := by
  have hv := Nat.div_add_mod v (lastBit v)
  have hup : (v / lastBit v + 1) * lastBit v = v / lastBit v * lastBit v + lastBit v := by ring
  have hr := Nat.mod_lt v (lastBit_pos v)
  obtain ⟨hcase, hhalf, heven⟩ := roundEven_spec v (lastBit_pos v)
  rw [Nat.mul_comm] at hv
  -- The other one is the other neighbour, and the number is half way between them.
  have hway : gap m (roundEven v (lastBit v) * lastBit v) = lastBit v ∧
      2 * gap v (roundEven v (lastBit v) * lastBit v) = lastBit v := by
    unfold gap at htie hhalf ⊢
    rcases hcase with hcase | hcase <;> rw [hcase] at hne htie hhalf ⊢ <;>
      rcases not_between h hm with hle | hle <;> omega
  rw [hway.1]
  exact Nat.mul_dvd_mul_right (heven hway.2) _

end Large

/-! ## Reading a whole number as a double -/

theorem RoundsTo.unique {v m n : Nat} (hm : RoundsTo v m) (hn : RoundsTo v n) : m = n := by
  by_contra hne
  have heq : gap v m = gap v n :=
    Nat.le_antisymm (hm.nearest n hn.isDouble) (hn.nearest m hm.isDouble)
  have hdvdn := hn.even m hm.isDouble hne heq
  have hdvdm := hm.even n hn.isDouble (Ne.symm hne) heq.symm
  rw [show gap n m = gap m n from Nat.add_comm _ _] at hdvdm
  -- Twice the way between the two cannot divide both.
  have hdvd : 2 * gap m n ∣ gap m n := by
    have hsub := Nat.dvd_add (Nat.dvd_sub hdvdm hdvdn) (Nat.dvd_sub hdvdn hdvdm)
    exact hsub
  have hle := Nat.le_of_dvd (by unfold gap; omega) hdvd
  unfold gap at hle
  omega

theorem roundsTo_self {v : Nat} (h : IsDouble v) : RoundsTo v v where
  isDouble := h
  nearest m _ := by
    unfold gap
    omega
  even m _ hne htie := by
    unfold gap at htie
    omega

theorem roundsTo_round {v : Nat} (h : 2 ^ 53 ≤ v) :
    RoundsTo v (roundEven v (lastBit v) * lastBit v) where
  isDouble := isDouble_round h
  nearest _ hm := nearest_round h hm
  even _ hm hne htie := even_round h hm hne htie

namespace Double

/-- A double from its parts. A significand that has grown by one bit is cut again. -/
def ofParts (negative : Bool) (significand : Nat) (exponent : Int) : Double :=
  let (significand, exponent) :=
    if significand = 2 ^ 53 then (2 ^ 52, exponent + 1) else (significand, exponent)
  if greatestExponent < exponent then .infinite negative
  else .finite negative significand exponent

theorem scaled_neg (v e : Nat) : scaled v 1 (-(e : Int)) = (v * 2 ^ e, 1) := by
  cases e with
  | zero => simp [scaled]
  | succ e => rfl

theorem scaled_ofNat (v e : Nat) : scaled v 1 (e : Int) = (v, 2 ^ e) := by
  show (v, 1 * 2 ^ e) = _
  rw [Nat.one_mul]

theorem ofFraction_small (negative : Bool) {v : Nat} (h0 : v ≠ 0) (h : v < 2 ^ 53) :
    ofFraction negative v 1 =
      .finite negative (v * 2 ^ (52 - v.log2)) (-((52 - v.log2 : Nat) : Int)) := by
  have hlog : v.log2 < 53 := (Nat.log2_lt h0).2 h
  have hbits : 2 ^ v.log2 * 2 ^ (53 - v.log2) = 2 ^ 53 := by
    rw [← Nat.pow_add, Nat.add_sub_cancel' (by omega)]
  have hlow : max leastExponent ((v.log2 : Int) - (1 : Nat).log2 - 53) =
      -((53 - v.log2 : Nat) : Int) := by
    rw [show (1 : Nat).log2 = 0 from rfl, leastExponent]
    omega
  have hfloor : ¬ v * 2 ^ (53 - v.log2) / 1 < Nat.pow 2 53 := by
    rw [Nat.div_one, Nat.pow_eq, Nat.not_lt, ← hbits]
    exact Nat.mul_le_mul_right _ (Nat.log2_self_le h0)
  have hexp : -((53 - v.log2 : Nat) : Int) + 1 = -((52 - v.log2 : Nat) : Int) := by omega
  have hsig : v * 2 ^ (52 - v.log2) < 2 ^ 53 := by
    have hlt := Nat.mul_lt_mul_of_pos_right (@Nat.lt_log2_self v) (Nat.two_pow_pos (52 - v.log2))
    rwa [← Nat.pow_add, show v.log2 + 1 + (52 - v.log2) = 53 by omega] at hlt
  unfold ofFraction
  rw [if_neg h0]
  dsimp only
  rw [hlow]
  simp only [scaled_neg, if_neg hfloor, hexp, roundEven_one, Nat.pow_eq]
  rw [if_neg (Nat.ne_of_lt hsig)]
  dsimp only
  rw [if_neg]
  unfold greatestExponent
  omega

theorem ofFraction_large (negative : Bool) {v : Nat} (h : 2 ^ 53 ≤ v) :
    ofFraction negative v 1 =
      ofParts negative (roundEven v (lastBit v)) ((v.log2 - 52 : Nat) : Int) := by
  have hlog := fiftyThree_le_log2 h
  have h0 : v ≠ 0 := by omega
  have hlow : max leastExponent ((v.log2 : Int) - (1 : Nat).log2 - 53) =
      ((v.log2 - 53 : Nat) : Int) := by
    rw [show (1 : Nat).log2 = 0 from rfl, leastExponent]
    omega
  have hfloor : ¬ v / 2 ^ (v.log2 - 53) < Nat.pow 2 53 := by
    rw [Nat.pow_eq, Nat.not_lt, Nat.le_div_iff_mul_le (Nat.two_pow_pos _), ← Nat.pow_add,
      Nat.add_sub_cancel' hlog]
    exact Nat.log2_self_le h0
  have hexp : ((v.log2 - 53 : Nat) : Int) + 1 = ((v.log2 - 52 : Nat) : Int) := by omega
  unfold ofFraction ofParts
  rw [if_neg h0]
  dsimp only
  rw [hlow]
  simp only [scaled_ofNat, if_neg hfloor, hexp, Nat.pow_eq]
  rfl

/-- A number with 53 bits, or with one more after rounding, is read as it is. -/
theorem ofFraction_parts (negative : Bool) {s e : Nat} (hlow : 2 ^ 52 ≤ s) (hhigh : s ≤ 2 ^ 53)
    (he : 0 < e) : ofFraction negative (s * 2 ^ e) 1 = ofParts negative s e := by
  have hexact {s e : Nat} (hlow : 2 ^ 52 ≤ s) (hhigh : s < 2 ^ 53) (he : 0 < e) :
      ofFraction negative (s * 2 ^ e) 1 = ofParts negative s e := by
    have hbig : 2 ^ (52 + e) ≤ s * 2 ^ e := by
      rw [Nat.pow_add]
      exact Nat.mul_le_mul_right _ hlow
    have hlog : (s * 2 ^ e).log2 = 52 + e := by
      refine (Nat.log2_eq_iff (by have := Nat.two_pow_pos (52 + e); omega)).2 ⟨hbig, ?_⟩
      rw [show 52 + e + 1 = 53 + e by omega, Nat.pow_add]
      exact Nat.mul_lt_mul_of_pos_right hhigh (Nat.two_pow_pos e)
    replace hbig := Nat.le_trans (Nat.pow_le_pow_right (by decide) (show 53 ≤ 52 + e by omega)) hbig
    rw [ofFraction_large negative hbig, lastBit, hlog, Nat.add_sub_cancel_left,
      roundEven_mul s (Nat.two_pow_pos e)]
  rcases Nat.lt_or_eq_of_le hhigh with hlt | rfl
  · exact hexact hlow hlt he
  · rw [show 2 ^ 53 * 2 ^ e = 2 ^ 52 * 2 ^ (e + 1) by ring,
      hexact (Nat.le_refl _) (by decide) (Nat.succ_pos e)]
    simp [ofParts]

end Double

theorem RoundsTo.ofFraction_eq (negative : Bool) {v n : Nat} (h : RoundsTo v n) :
    ofFraction negative v 1 = ofFraction negative n 1 := by
  rcases Nat.lt_or_ge v (2 ^ 53) with hlt | hge
  · rw [h.unique (roundsTo_self (isDouble_of_lt hlt))]
  · obtain ⟨hcase, -, -⟩ := roundEven_spec v (lastBit_pos v)
    obtain ⟨hlow, hhigh⟩ := div_lastBit hge
    have hlog := fiftyThree_le_log2 hge
    rw [h.unique (roundsTo_round hge), ofFraction_large negative hge]
    exact (ofFraction_parts negative (by omega) (by omega) (by omega)).symm

end FactStream.Number
