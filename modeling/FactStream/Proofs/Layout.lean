import FactStream.Proofs.Nearest
import FactStream.Value

/-!
# Texts of numbers

The shortest digits of a whole number below `2 ^ 53` are its own, since no other whole number and
nothing with fewer digits rounds to it (`Number.shortest_whole`). So a layout that writes such
numbers out gives their decimal digits (`Number.Layout.render_whole`).
-/

namespace FactStream.Number

open Double

/-! ## Zeros at the end -/

theorem toDigits_mul_pow {n : Nat} (h : 0 < n) (p : Nat) :
    Nat.toDigits 10 (n * 10 ^ p) = Nat.toDigits 10 n ++ List.replicate p '0' := by
  induction p with
  | zero => simp
  | succ p ih =>
    have hpos : 0 < n * 10 ^ p := Nat.mul_pos h (Nat.pow_pos (by decide))
    have hsucc : n * 10 ^ (p + 1) = 10 * (n * 10 ^ p) + 0 := by ring
    rw [hsucc, ← Nat.toDigits_append_toDigits (by decide) hpos (by decide), ih,
      List.replicate_succ', List.append_assoc]
    rfl

theorem exists_zeros (digits : List Char) :
    ∃ k, digits = dropTrailingZeros digits ++ List.replicate k '0' := by
  refine ⟨(digits.reverse.takeWhile (· = '0')).length, ?_⟩
  have hzeros : digits.reverse.takeWhile (· = '0') =
      List.replicate (digits.reverse.takeWhile (· = '0')).length '0' := by
    refine List.eq_replicate_iff.2 ⟨rfl, fun c hc => ?_⟩
    exact of_decide_eq_true (List.all_eq_true.1 List.all_takeWhile c hc)
  have hsplit := congrArg List.reverse
    (@List.takeWhile_append_dropWhile _ (fun c => decide (c = '0')) digits.reverse)
  rw [List.reverse_append, List.reverse_reverse, hzeros, List.reverse_replicate] at hsplit
  exact hsplit.symm

theorem dropTrailingZeros_zeros (digits : List Char) (p : Nat) :
    dropTrailingZeros (digits ++ List.replicate p '0') = dropTrailingZeros digits := by
  unfold dropTrailingZeros
  rw [List.reverse_append, List.reverse_replicate, List.dropWhile_append]
  simp

/-! ## Shortest digits -/

namespace Rounding

/-- In units of `u` the double is the whole number `n`, and everything that rounds to it is less
than one unit away. -/
structure Whole (r : Rounding) (n u : Nat) : Prop where
  value : r.value = n * u
  contains : r.contains (n * u) = true
  near : ∀ x, r.contains x = true → x < n * u + u ∧ n * u < x + u

variable {r : Rounding} {n u : Nat} (h : r.Whole n u)

include h

/-- Of the multiples of the unit, just the double itself rounds to it. -/
theorem Whole.contains_mul {m : Nat} (hm : r.contains (m * u) = true) : m = n := by
  obtain ⟨hlow, hhigh⟩ := h.near _ hm
  rw [← Nat.succ_mul] at hlow hhigh
  have h1 := Nat.lt_of_mul_lt_mul_right hlow
  have h2 := Nat.lt_of_mul_lt_mul_right hhigh
  omega

theorem Whole.onGrid? (hu : 0 < u) (j : Nat) :
    r.onGrid? (u * 10 ^ j) = if 10 ^ j ∣ n then some (n * u) else none := by
  have hfloor : r.value / (u * 10 ^ j) * (u * 10 ^ j) = n / 10 ^ j * 10 ^ j * u := by
    rw [h.value, Nat.mul_comm n u, Nat.mul_div_mul_left _ _ hu]
    ring
  have hceiling : n / 10 ^ j * 10 ^ j * u + u * 10 ^ j = (n / 10 ^ j * 10 ^ j + 10 ^ j) * u := by
    ring
  have hbeyond : r.contains ((n / 10 ^ j * 10 ^ j + 10 ^ j) * u) = false := by
    refine Bool.eq_false_iff.2 fun hc => ?_
    have heq := h.contains_mul hc
    have hlt := Nat.lt_div_mul_add (a := n) (Nat.pow_pos (n := j) (show 0 < 10 by decide))
    omega
  unfold Rounding.onGrid?
  dsimp only
  rw [hfloor, hceiling, hbeyond]
  by_cases hdvd : 10 ^ j ∣ n
  · rw [if_pos hdvd, Nat.div_mul_cancel hdvd, h.contains]
  · have hnot : r.contains (n / 10 ^ j * 10 ^ j * u) = false := by
      refine Bool.eq_false_iff.2 fun hc => hdvd ?_
      rw [← h.contains_mul hc]
      exact Nat.dvd_mul_left _ _
    rw [if_neg hdvd, hnot]

theorem Whole.findSome?_eq (hu : 0 < u) {count : Nat} (hcount : 0 < count) (more : Nat)
    {f : Nat → Option Nat} (hf : ∀ i < count, f i = r.onGrid? (u * 10 ^ (count - (i + 1)))) :
    (List.range (count + more)).findSome? f = some (n * u) := by
  have hlast : f (count - 1) = some (n * u) := by
    rw [hf _ (by omega), h.onGrid? hu, show count - (count - 1 + 1) = 0 by omega]
    simp
  have hfound : (List.range count).findSome? f = some (n * u) := by
    cases hfind : (List.range count).findSome? f with
    | none =>
      rw [List.findSome?_eq_none_iff.1 hfind _ (List.mem_range.2 (by omega))] at hlast
      simp at hlast
    | some x =>
      obtain ⟨i, hi, hx⟩ := List.exists_of_findSome?_eq_some hfind
      rw [hf i (List.mem_range.1 hi), h.onGrid? hu] at hx
      split at hx
      · exact hx.symm
      · simp at hx
  rw [List.range_add, List.findSome?_append, hfound]
  rfl

omit h

theorem le_of_contains {r : Rounding} {x : Nat} (hx : r.contains x = true) :
    r.low ≤ x ∧ x ≤ r.high := by
  unfold contains at hx
  split at hx <;> simp only [decide_eq_true_eq] at hx <;> omega

theorem ofDouble_neg (significand e : Nat) :
    ∃ below, (1 ≤ below ∧ below ≤ 2) ∧
      ofDouble significand (-(e : Int)) =
        { value := 4 * significand * 5 ^ (e + 2)
          low := (4 * significand - below) * 5 ^ (e + 2)
          high := (4 * significand + 2) * 5 ^ (e + 2)
          closed := significand % 2 = 0
          places := e + 2 } := by
  have hexp : -(e : Int) - 2 = .negSucc (e + 1) := by omega
  have hplaces : (2 - -(e : Int)).toNat = e + 2 := by omega
  refine ⟨if significand = Nat.pow 2 52 ∧ -1074 < -(e : Int) then 1 else 2, ?_, ?_⟩
  · split <;> decide
  · unfold ofDouble
    rw [hexp, hplaces]
    rfl

/-- The rounding interval of a whole number that is written with `e` more bits. -/
theorem whole_ofDouble {n : Nat} (h : 0 < n) (e : Nat) :
    (ofDouble (n * 2 ^ e) (-(e : Int))).Whole n (10 ^ (e + 2)) := by
  obtain ⟨below, hbelow, hr⟩ := ofDouble_neg (n * 2 ^ e) e
  have hvalue : n * 10 ^ (e + 2) = 4 * (n * 2 ^ e) * 5 ^ (e + 2) := by
    rw [show 10 = 2 * 5 from rfl, Nat.mul_pow]
    ring
  have hunit : 4 * 5 ^ (e + 2) ≤ 10 ^ (e + 2) := by
    have hpow : 10 ^ (e + 2) = 2 ^ e * (4 * 5 ^ (e + 2)) := by
      rw [show 10 = 2 * 5 from rfl, Nat.mul_pow]
      ring
    rw [hpow]
    exact Nat.le_mul_of_pos_left _ (Nat.two_pow_pos e)
  have hfive : 0 < 5 ^ (e + 2) := Nat.pow_pos (by decide)
  have hbits : 0 < n * 2 ^ e := Nat.mul_pos h (Nat.two_pow_pos e)
  have hlow : (4 * (n * 2 ^ e) - below) * 5 ^ (e + 2) + below * 5 ^ (e + 2) =
      4 * (n * 2 ^ e) * 5 ^ (e + 2) := by
    rw [← Nat.add_mul, Nat.sub_add_cancel (by omega)]
  have hhigh : (4 * (n * 2 ^ e) + 2) * 5 ^ (e + 2) =
      4 * (n * 2 ^ e) * 5 ^ (e + 2) + 2 * 5 ^ (e + 2) := by ring
  have hone := Nat.mul_le_mul_right (5 ^ (e + 2)) hbelow.1
  have htwo := Nat.mul_le_mul_right (5 ^ (e + 2)) hbelow.2
  refine ⟨by rw [hr, hvalue], ?_, fun x hx => ?_⟩
  · rw [hr, hvalue, contains]
    dsimp only
    split <;> simp only [decide_eq_true_eq] <;> omega
  · have hx := le_of_contains hx
    rw [hr] at hx
    dsimp only at hx
    omega

end Rounding

/-- The shortest digits of a whole number are its digits without the zeros at their end. -/
theorem shortest_whole {n : Nat} (h : 0 < n) (hn : n < 10 ^ 17) (e : Nat) :
    shortest (n * 2 ^ e) (-(e : Int)) =
      ⟨dropTrailingZeros (Nat.toDigits 10 n), (Nat.toDigits 10 n).length⟩ := by
  have hwhole := Rounding.whole_ofDouble h e
  have hplaces : (Rounding.ofDouble (n * 2 ^ e) (-(e : Int))).places = e + 2 := by
    obtain ⟨below, -, hr⟩ := Rounding.ofDouble_neg (n * 2 ^ e) e
    rw [hr]
  have hcount : (Nat.toDigits 10 n).length ≤ 17 :=
    (Nat.length_toDigits_le_iff (by decide) (by decide)).2 hn
  have hdigits := toDigits_mul_pow h (e + 2)
  -- The grids of the first digits are multiples of the unit.
  have hhit : (List.range 17).findSome? (fun i =>
      (Rounding.ofDouble (n * 2 ^ e) (-(e : Int))).onGrid?
        (Nat.pow 10 ((Nat.toDigits 10 n).length + (e + 2) - (i + 1)))) =
      some (n * 10 ^ (e + 2)) := by
    rw [← Nat.add_sub_cancel' hcount]
    refine hwhole.findSome?_eq (Nat.pow_pos (by decide)) Nat.length_toDigits_pos _ fun i hi => ?_
    rw [Nat.pow_eq, ← Nat.pow_add]
    congr 2
    omega
  unfold shortest
  dsimp only
  rw [hwhole.value, hplaces, hdigits, List.length_append, List.length_replicate, hhit,
    Option.getD_some, hdigits, dropTrailingZeros_zeros, List.length_append, List.length_replicate]
  simp

namespace Layout

theorem fixed_of_le {digits : List Char} {n : Nat} (hn : 0 < n) (h : digits.length ≤ n) :
    fixed ⟨digits, n⟩ = digits ++ List.replicate (n - digits.length) '0' := by
  cases n with
  | zero => exact absurd hn (Nat.lt_irrefl 0)
  | succ n => exact if_pos h

theorem fixed_dropTrailingZeros {digits : List Char} (h : 0 < digits.length) :
    fixed ⟨dropTrailingZeros digits, digits.length⟩ = digits := by
  obtain ⟨k, hk⟩ := exists_zeros digits
  have hlength := congrArg List.length hk
  rw [List.length_append, List.length_replicate] at hlength
  rw [fixed_of_le h (by omega), show digits.length - (dropTrailingZeros digits).length = k by omega,
    ← hk]

theorem render_whole {layout : Layout} (hlayout : ∀ k : Nat, k ≤ 17 → layout.positional k = true)
    {n : Nat} (h : n < 2 ^ 53) : layout.render (ofFraction false n 1) = n.repr := by
  rw [Nat.repr_eq_ofList_toDigits]
  rcases Nat.eq_zero_or_pos n with rfl | hpos
  · rfl
  have hbig : n < 10 ^ 17 := Nat.lt_trans h (by decide)
  have hsig : n * 2 ^ (52 - n.log2) ≠ 0 :=
    Nat.ne_of_gt (Nat.mul_pos hpos (Nat.two_pow_pos _))
  have hcount : (Nat.toDigits 10 n).length ≤ 17 :=
    (Nat.length_toDigits_le_iff (by decide) (by decide)).2 hbig
  rw [ofFraction_small false (Nat.ne_of_gt hpos) h]
  unfold render
  dsimp only
  rw [if_neg hsig, shortest_whole hpos hbig, digits, hlayout _ hcount, if_pos rfl,
    fixed_dropTrailingZeros Nat.length_toDigits_pos]
  rfl

end Layout

end FactStream.Number
