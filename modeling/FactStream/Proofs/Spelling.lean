import FactStream.Proofs.Layout
import FactStream.Proofs.Numerals
import Mathlib.Data.List.TakeWhile

/-!
# Spellings of whole numbers

A whole number can be spelled in several ways in JavaScript. `TypeScript.Spells` says which number a
literal stands for, and `Number.RoundsTo` which double that is. Decimal digits are read as the
nearest double (`Number.Writes.readDouble?`), and whether a double is taken as an integer makes no
difference to its text (`TypeScript.property_integerOrFloat`).

Main statement: `TypeScript.number_spellings` says for which spellings the property depends on the
double alone. It does not for all of them, as `TypeScript.spellings_apart` shows.
-/

namespace FactStream

open Number Text

namespace Number

open Double

/-! ## Reading decimal digits -/

theorem le_of_readDigits? {digits : List Char} {acc v : Nat}
    (h : readDigits? 10 acc digits = some v) : acc * 10 ^ digits.length ≤ v := by
  induction digits generalizing acc with
  | nil => simpa using Nat.le_of_eq (Option.some.inj h)
  | cons c rest ih =>
    rw [readDigits?] at h
    split at h
    case h_1 d _ =>
      calc acc * 10 ^ (rest.length + 1) = acc * 10 * 10 ^ rest.length := by ring
        _ ≤ (acc * 10 + d) * 10 ^ rest.length := Nat.mul_le_mul_right _ (Nat.le_add_right _ _)
        _ ≤ v := ih h
    case h_2 => simp at h

theorem readDigits?_dropWhile (digits : List Char) :
    readDigits? 10 0 (digits.dropWhile (· = '0')) = readDigits? 10 0 digits := by
  induction digits with
  | nil => rfl
  | cons c rest ih =>
    by_cases hc : c = '0'
    · subst hc
      exact ih
    · rw [List.dropWhile_cons_of_neg (by simpa using hc)]

theorem digitValue?_eq_zero {c : Char} (h : digitValue? 10 c = some 0) : c = '0' := by
  unfold digitValue? at h
  obtain ⟨hvalue, -⟩ := Option.filter_eq_some_iff.1 h
  split at hvalue
  case isTrue hc =>
    have hlow : 48 ≤ c.toNat := hc.1
    have hzero : c.toNat - 48 = 0 := Option.some.inj hvalue
    rw [← Char.ofNat_toNat c, show c.toNat = 48 by omega]
  case isFalse =>
    split at hvalue
    · simp at hvalue
    · split at hvalue <;> simp at hvalue

theorem pow_le_of_readDigits? {digits : List Char} {v : Nat} (hv : v ≠ 0)
    (h : readDigits? 10 0 (digits.dropWhile (· = '0')) = some v) :
    10 ^ ((digits.dropWhile (· = '0')).length - 1) ≤ v := by
  have hfirst := List.head?_dropWhile_not (fun c => decide (c = '0')) digits
  cases hs : digits.dropWhile (· = '0') with
  | nil => exact Nat.pos_of_ne_zero hv
  | cons c rest =>
    rw [hs] at h hfirst
    rw [readDigits?] at h
    split at h
    case h_1 d hd =>
      have hpos : 1 ≤ d := by
        refine Nat.pos_of_ne_zero fun hzero => ?_
        have hc := digitValue?_eq_zero (hzero ▸ hd)
        simp [hc] at hfirst
      calc 10 ^ rest.length ≤ (0 * 10 + d) * 10 ^ rest.length :=
            Nat.le_mul_of_pos_left _ (by omega)
        _ ≤ v := le_of_readDigits? h
    case h_2 => simp at h

namespace Double

theorem ofFraction_of_huge (negative : Bool) {v k : Nat} (hk : 1024 ≤ k) (h : 2 ^ k ≤ v) :
    ofFraction negative v 1 = .infinite negative := by
  have hpos := Nat.lt_of_lt_of_le (Nat.two_pow_pos k) h
  have hlog : k ≤ v.log2 := (Nat.le_log2 (Nat.ne_of_gt hpos)).2 h
  have hbig := Nat.le_trans (Nat.pow_le_pow_right (by decide) (show 53 ≤ k by omega)) h
  rw [ofFraction_large negative hbig]
  unfold ofParts greatestExponent
  dsimp only
  split <;> exact if_pos (by dsimp only; omega)

/-- A whole number with its digits is read as the nearest double, also if there are so many digits
that they need not be looked at. -/
theorem ofDecimal_whole (negative : Bool) {v count : Nat} (h : v ≠ 0 → 10 ^ (count - 1) ≤ v) :
    ofDecimal negative v count 0 = ofFraction negative v 1 := by
  unfold ofDecimal
  split
  case isTrue hzero => rw [hzero]; rfl
  case isFalse hzero =>
    split
    case isTrue hcount =>
      have hpow : 2 ^ (3 * (count - 1)) ≤ v := by
        rw [Nat.pow_mul]
        exact Nat.le_trans (Nat.pow_le_pow_left (by decide) _) (h hzero)
      exact (ofFraction_of_huge negative (by omega) hpow).symm
    case isFalse hcount =>
      rw [if_neg (by omega)]
      exact congrArg (ofFraction negative · 1) (Nat.mul_one v)

end Double

theorem IsDigit.decimal {c : Char} {d : Nat} (h : IsDigit 10 c d) : '0' ≤ c ∧ c ≤ '9' := by
  have hall : ∀ d < 10, ('0' ≤ Nat.digitChar d ∧ Nat.digitChar d ≤ '9') ∧
      '0' ≤ upperAscii (Nat.digitChar d) ∧ upperAscii (Nat.digitChar d) ≤ '9' := by decide
  rcases h.2 with rfl | rfl
  · exact (hall d h.1).1
  · exact (hall d h.1).2

theorem Writes.spanDigits {digits : List Char} {v : Nat} (h : Writes 10 digits v) :
    Number.spanDigits digits = (digits, []) := by
  have hdigit : ∀ c ∈ digits, decide ('0' ≤ c ∧ c ≤ '9') = true := fun c hc =>
    let ⟨_, hd⟩ := h.exists_isDigit c hc
    decide_eq_true hd.decimal
  exact Prod.ext (List.takeWhile_eq_self_iff.2 hdigit) (List.dropWhile_eq_nil_iff.2 hdigit)

theorem Writes.zeros {radix : Nat} {digits : List Char} {n : Nat} (h : Writes radix digits n)
    (hr : 0 < radix) (k : Nat) : Writes radix (digits ++ List.replicate k '0') (n * radix ^ k) := by
  induction k with
  | zero => simpa using h
  | succ k ih =>
    rw [List.replicate_succ', ← List.append_assoc]
    have hsucc := ih.snoc ⟨hr, .inl rfl⟩
    rwa [Nat.add_zero, Nat.mul_assoc, ← Nat.pow_succ] at hsucc

theorem Writes.readDouble? {digits : List Char} {v : Nat} (h : Writes 10 digits v) :
    Number.readDouble? digits = some (ofFraction false v 1) := by
  have hnot {x : Char} {rest : List Char} (hx : digitValue? 10 x = none) : digits ≠ x :: rest := by
    rintro rfl
    exact h.not_mem (by decide) hx List.mem_cons_self
  have hunsigned : Number.readDouble? digits = readUnsigned? false digits := by
    unfold Number.readDouble?
    split
    · exact absurd rfl (hnot (by decide))
    · exact absurd rfl (hnot (by decide))
    · rfl
  have hread : Number.readDigits? 10 0 (digits.dropWhile (· = '0')) = some v := by
    rw [readDigits?_dropWhile, h.readDigits? (by decide)]
  have hvalue : decimalValue false digits [] 0 = ofFraction false v 1 := by
    unfold decimalValue
    dsimp only
    rw [List.append_nil, hread]
    exact ofDecimal_whole false fun hv => pow_le_of_readDigits? hv hread
  rw [hunsigned]
  unfold readUnsigned?
  dsimp only
  rw [h.map_lower, if_neg (hnot (by decide)),
    if_neg (not_or.2 ⟨hnot (by decide), hnot (by decide)⟩), h.spanDigits]
  dsimp only
  rw [if_neg (by simp [h.ne_nil])]
  exact congrArg some hvalue

end Number

namespace TypeScript

open Double

/-! ## Integers and doubles -/

theorem toInt?_neg (v e : Nat) :
    (Double.finite false (v * 2 ^ e) (-(e : Int))).toInt? = some (v : Int) := by
  cases e with
  | zero => simp [toInt?]
  | succ e =>
    rw [show -((e + 1 : Nat) : Int) = .negSucc e from rfl]
    unfold toInt?
    dsimp only
    rw [Nat.pow_eq, if_pos (Nat.mul_mod_left _ _), Nat.mul_div_cancel _ (Nat.two_pow_pos _)]
    rfl

theorem toInt?_small {v : Nat} (h : v < 2 ^ 53) :
    (ofFraction false v 1).toInt? = some (v : Int) := by
  rcases Nat.eq_zero_or_pos v with rfl | hpos
  · decide +kernel
  · rw [ofFraction_small false (Nat.ne_of_gt hpos) h, toInt?_neg]

/-- A double with 53 bits before the point is too large to be taken as an integer. -/
theorem integerOrFloat_ofParts {s e : Nat} (hs : 2 ^ 52 ≤ s) (he : 1 ≤ e) :
    integerOrFloat (ofParts false s e) = .float (ofParts false s e) := by
  have hfinite {s e : Nat} (hs : 2 ^ 52 ≤ s) (he : 1 ≤ e) :
      integerOrFloat (.finite false s e) = .float (.finite false s e) := by
    have hvalue : (Double.finite false s e).toInt? = some ((s * 2 ^ e : Nat) : Int) := rfl
    have hbig : 2 ^ 52 * 2 ^ 1 ≤ s * 2 ^ e :=
      Nat.mul_le_mul hs (Nat.pow_le_pow_right (by decide) he)
    unfold integerOrFloat
    rw [hvalue]
    refine if_neg (Nat.not_lt.2 ?_)
    rw [Int.natAbs_natCast]
    exact Nat.le_trans (by decide) hbig
  unfold ofParts
  dsimp only
  split
  · split
    · rfl
    · exact hfinite (s := 2 ^ 52) (e := e + 1) (by decide) (by omega)
  · split
    · rfl
    · exact hfinite hs he

theorem property_float {n : Nat} (h : n < 2 ^ 53) :
    Naming.javaScript.property (.float (ofFraction false n 1)) = ⟨"number", n.repr⟩ := by
  refine congrArg (Property.mk "number") (Layout.render_whole (fun k hk => decide_eq_true ?_) h)
  omega

/-- Whether a whole number is taken as an integer or as a double makes no difference. -/
theorem property_integerOrFloat (v : Nat) :
    Naming.javaScript.property (integerOrFloat (ofFraction false v 1)) =
      Naming.javaScript.property (.float (ofFraction false v 1)) := by
  rcases Nat.lt_or_ge v (2 ^ 53) with hlt | hge
  · unfold integerOrFloat
    rw [toInt?_small hlt]
    dsimp only
    split
    · exact (property_float hlt).symm
    · rfl
  · have hbits := (div_lastBit hge).1
    have hlog := fiftyThree_le_log2 hge
    obtain ⟨hround, -, -⟩ := roundEven_spec v (lastBit_pos v)
    rw [ofFraction_large false hge, integerOrFloat_ofParts (by omega) (by omega)]

/-! ## Literals -/

theorem number_of_decimal {raw : List Char} {v : Nat} (h : Writes 10 (bare raw) v) :
    numberOfLiteral raw = integerOrFloat (ofFraction false v 1) := by
  have hlast : (bare raw).getLast? ≠ some 'n' := fun hn =>
    h.not_mem (by decide) (by decide) (List.mem_of_getLast? hn)
  have hradix : radix? (bare raw) = none := by
    unfold radix?
    split
    case h_1 mark rest heq =>
      have hmem : mark ∈ bare raw := heq ▸ List.mem_cons_of_mem _ List.mem_cons_self
      have hnot {x : Char} (hx : digitValue? 10 x = none) : lowerAscii mark ≠ x := by
        rintro rfl
        exact (h.lower (by decide)).not_mem (by decide) hx (List.mem_map_of_mem hmem)
      split
      case h_1 heq => exact absurd heq (hnot (by decide))
      case h_2 heq => exact absurd heq (hnot (by decide))
      case h_3 heq => exact absurd heq (hnot (by decide))
      case h_4 => rfl
    case h_2 => rfl
  unfold numberOfLiteral
  dsimp only
  rw [← bare, if_neg hlast, hradix]
  dsimp only
  rw [h.readDouble?]
  rfl

/-- The forms of literals of whole numbers. -/
inductive Form where
  | decimal
  /-- With a mark of the radix. -/
  | marked
  /-- Octal digits after a zero. -/
  | octal
  deriving DecidableEq, Repr

/-- The literal has the form and stands for the number. Decimal digits start with a zero only if it
is the only one, or if one of them is not octal. Only octal digits after a zero must not have
underscores between them. -/
inductive Spells : Form → List Char → Nat → Prop where
  | decimal {raw : List Char} {v : Nat} : Writes 10 (bare raw) v →
      ((bare raw).head? = some '0' → bare raw = ['0'] ∨ '8' ∈ bare raw ∨ '9' ∈ bare raw) →
      Spells .decimal raw v
  | marked {mark raw : List Char} {radix v : Nat} : (mark, radix) ∈ radixMarks →
      Writes radix (bare raw) v → Spells .marked (mark ++ raw) v
  | octal {digits : List Char} {v : Nat} : Writes 8 digits v → Spells .octal ('0' :: digits) v

/-- Octal digits stand for a greater number if they are read as decimal ones, unless there is only
one of them apart from zeros. -/
theorem exists_decimal_of_octal {digits : List Char} {v : Nat} (h : Writes 8 digits v) :
    ∃ u, Writes 10 ('0' :: digits) u ∧ (v < 8 → u = v) ∧ (8 ≤ v → v < u) := by
  induction h with
  | @digit c d hd =>
    have hzero : Writes 10 ['0'] 0 := .digit ⟨by decide, .inl rfl⟩
    refine ⟨0 * 10 + d, @Writes.snoc 10 ['0'] 0 c d hzero ⟨?_, hd.2⟩, ?_, ?_⟩
    · exact Nat.lt_trans hd.1 (by decide)
    · omega
    · have := hd.1
      omega
  | @snoc digits n c d hn hd ih =>
    obtain ⟨u, hu, hsmall, hlarge⟩ := ih
    refine ⟨u * 10 + d, hu.snoc ⟨Nat.lt_trans hd.1 (by decide), hd.2⟩, ?_, ?_⟩
    · intro hlt
      have := hsmall (by omega)
      omega
    · intro hle
      have hd := hd.1
      rcases Nat.lt_or_ge n 8 with hlt | hge
      · have := hsmall hlt
        omega
      · have := hlarge hge
        omega

/-- The property of a literal is the one of the double that it stands for, if the literal is decimal
or the number is small. A greater number with a mark of its radix keeps all its digits as long as it
fits 64 bits, and is no number otherwise. Octal digits after a zero are read as decimal ones. -/
theorem number_spellings {form : Form} {literal : List Char} {v n : Nat}
    (hv : Spells form literal v) (hn : RoundsTo v n) :
    (form = .decimal ∨ form = .marked ∧ v < 2 ^ 53 ∨ form = .octal ∧ v < 8 →
      Naming.javaScript.property (numberOfLiteral literal) =
        Naming.javaScript.property (.float (ofFraction false n 1))) ∧
    (v < 2 ^ 53 →
      Naming.javaScript.property (.float (ofFraction false n 1)) = ⟨"number", n.repr⟩) ∧
    (form = .marked → 2 ^ 53 ≤ v →
      Naming.javaScript.property (numberOfLiteral literal) =
        if v < 2 ^ 63 then ⟨"number", v.repr⟩ else ⟨"string", String.ofList (bare literal)⟩) ∧
    (form = .octal → 8 ≤ v → ∃ u, v < u ∧ Writes 10 literal u ∧
      Naming.javaScript.property (numberOfLiteral literal) =
        Naming.javaScript.property (.float (ofFraction false u 1))) := by
  have hsmall (hlt : v < 2 ^ 53) : n = v := hn.unique (roundsTo_self (isDouble_of_lt hlt))
  have hproperty (hlt : v < 2 ^ 53) :
      Naming.javaScript.property (.float (ofFraction false n 1)) = ⟨"number", n.repr⟩ :=
    property_float (hsmall hlt ▸ hlt)
  have hdecimal {digits : List Char} {u : Nat} (hwrites : Writes 10 (bare digits) u) :
      Naming.javaScript.property (numberOfLiteral digits) =
        Naming.javaScript.property (.float (ofFraction false u 1)) := by
    rw [number_of_decimal hwrites, property_integerOrFloat]
  cases hv with
  | decimal hwrites _ =>
    refine ⟨fun _ => ?_, hproperty, fun h => absurd h (by decide), fun h => absurd h (by decide)⟩
    rw [hdecimal hwrites, hn.ofFraction_eq]
  | @marked mark raw radix v hmark hwrites =>
    have hnumber := number_of_marked hmark hwrites
    refine ⟨fun hcase => ?_, hproperty, fun _ _ => ?_, fun h => absurd h (by decide)⟩
    · have hlt : v < 2 ^ 53 := by simpa using hcase
      rw [hnumber, if_pos (Nat.lt_trans hlt (by decide)), hproperty hlt, hsmall hlt]
      rfl
    · rw [hnumber, Nat.pow_eq]
      split <;> rfl
  | @octal digits v hwrites =>
    obtain ⟨u, hu, hlow, hhigh⟩ := exists_decimal_of_octal hwrites
    have hread := hdecimal ((bare_of_not_mem (hu.not_mem (by decide) (by decide))).symm ▸ hu)
    refine ⟨fun hcase => ?_, hproperty, fun h => absurd h (by decide), fun _ hge => ?_⟩
    · have hlt : v < 8 := by simpa using hcase
      rw [hread, hlow hlt, hsmall (Nat.lt_trans hlt (by decide))]
    · exact ⟨u, hhigh hge, hu, hread⟩

/-- The literals `3_1`, `0X1f` and `07` have the properties of 31 and 7. -/
theorem number_spellings_small :
    Spells .decimal ['3', '_', '1'] 31 ∧ Spells .marked ['0', 'X', '1', 'f'] 31 ∧
      Spells .octal ['0', '7'] 7 ∧ RoundsTo 31 31 ∧ RoundsTo 7 7 ∧
      Naming.javaScript.property (numberOfLiteral ['3', '_', '1']) = ⟨"number", "31"⟩ ∧
      Naming.javaScript.property (numberOfLiteral ['0', 'X', '1', 'f']) = ⟨"number", "31"⟩ ∧
      Naming.javaScript.property (numberOfLiteral ['0', '7']) = ⟨"number", "7"⟩ := by
  have hdecimal : Spells .decimal ['3', '_', '1'] 31 :=
    .decimal (@Writes.snoc 10 ['3'] 3 '1' 1 (.digit ⟨by decide, by decide⟩) ⟨by decide, by decide⟩)
      (by decide)
  have hmarked : Spells .marked ['0', 'X', '1', 'f'] 31 :=
    @Spells.marked ['0', 'X'] ['1', 'f'] 16 31 (by decide)
      (@Writes.snoc 16 ['1'] 1 'f' 15 (.digit ⟨by decide, by decide⟩) ⟨by decide, by decide⟩)
  have hoctal : Spells .octal ['0', '7'] 7 := .octal (.digit ⟨by decide, by decide⟩)
  have hthirtyOne : RoundsTo 31 31 := roundsTo_self (isDouble_of_lt (by decide))
  have hseven : RoundsTo 7 7 := roundsTo_self (isDouble_of_lt (by decide))
  obtain ⟨h1, hvalue, -, -⟩ := number_spellings hdecimal hthirtyOne
  obtain ⟨h2, -, -, -⟩ := number_spellings hmarked hthirtyOne
  obtain ⟨h3, hvalue', -, -⟩ := number_spellings hoctal hseven
  exact ⟨hdecimal, hmarked, hoctal, hthirtyOne, hseven,
    (h1 (by decide)).trans (hvalue (by decide)), (h2 (by decide)).trans (hvalue (by decide)),
    (h3 (by decide)).trans (hvalue' (by decide))⟩

/-- The literal `010` stands for 8, but has the property of 10. The literals `0x20000000000000` and
`0x20000000000001` are the same double, but have different properties. -/
theorem spellings_apart :
    let zeros := List.replicate 12 '0'
    let even := '0' :: 'x' :: '2' :: zeros ++ ['0']
    let odd := '0' :: 'x' :: '2' :: zeros ++ ['1']
    (Spells .octal ['0', '1', '0'] 8 ∧ Spells .decimal ['8'] 8 ∧ RoundsTo 8 8 ∧
      Naming.javaScript.property (numberOfLiteral ['0', '1', '0']) = ⟨"number", "10"⟩ ∧
      Naming.javaScript.property (numberOfLiteral ['8']) = ⟨"number", "8"⟩) ∧
    Spells .marked even (2 ^ 53) ∧ RoundsTo (2 ^ 53) (2 ^ 53) ∧
      Spells .marked odd (2 ^ 53 + 1) ∧ RoundsTo (2 ^ 53 + 1) (2 ^ 53) ∧
      Naming.javaScript.property (numberOfLiteral even) = ⟨"number", "9007199254740992"⟩ ∧
      Naming.javaScript.property (numberOfLiteral odd) = ⟨"number", "9007199254740993"⟩ := by
  have hdigit {radix d : Nat} (h : d < radix) : IsDigit radix (Nat.digitChar d) d := ⟨h, .inl rfl⟩
  have hzeros : Writes 16 ('2' :: List.replicate 12 '0') (2 * 16 ^ 12) :=
    (Writes.digit (hdigit (d := 2) (by decide))).zeros (by decide) 12
  have hround := roundsTo_round (v := 2 ^ 53 + 1) (by decide)
  rw [show roundEven (2 ^ 53 + 1) (lastBit (2 ^ 53 + 1)) * lastBit (2 ^ 53 + 1) = 2 ^ 53 by
    decide +kernel] at hround
  refine ⟨⟨.octal ?_, .decimal (.digit (hdigit (d := 8) (by decide))) (by decide),
    roundsTo_self (isDouble_of_lt (by decide)), by decide +kernel, by decide +kernel⟩,
    @Spells.marked ['0', 'x'] _ 16 _ (by decide) ?_, roundsTo_self ⟨1, 53, by decide, by decide⟩,
    @Spells.marked ['0', 'x'] _ 16 _ (by decide) ?_, hround, by decide +kernel, by decide +kernel⟩
  · exact (Writes.digit (hdigit (d := 1) (by decide))).snoc (hdigit (d := 0) (by decide))
  · exact hzeros.snoc (hdigit (d := 0) (by decide))
  · exact hzeros.snoc (hdigit (d := 1) (by decide))

end TypeScript

end FactStream
