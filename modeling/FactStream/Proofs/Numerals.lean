import FactStream.Language.CSharp.Literal
import FactStream.Language.Php.Literal
import FactStream.Language.TypeScript.Literal
import FactStream.Proofs.Slice

/-!
# Integer literals

`Number.Writes` says which number some digits write: a digit writes its value, and one more digit
makes `radix` times as much and the value of the digit. The readers know these numbers
(`Number.Writes.readInt64?`), as long as they fit 64 bits.

A literal has a mark of its radix in front of the digits, underscores between them, and in C# a
suffix behind them. Each language takes these away in its own way, and what is left are the digits.

Main statement: `Number.integer_literals`.
-/

namespace FactStream

open Text

namespace Number

/-! ## Digits -/

/-- The character writes a digit of the radix. Letters may be in either case. -/
def IsDigit (radix : Nat) (c : Char) (d : Nat) : Prop :=
  d < radix ∧ (c = Nat.digitChar d ∨ c = upperAscii (Nat.digitChar d))

/-- The digits write the number. -/
inductive Writes (radix : Nat) : List Char → Nat → Prop where
  | digit {c : Char} {d : Nat} : IsDigit radix c d → Writes radix [c] d
  | snoc {digits : List Char} {n : Nat} {c : Char} {d : Nat} : Writes radix digits n →
      IsDigit radix c d → Writes radix (digits ++ [c]) (n * radix + d)

variable {radix : Nat}

theorem IsDigit.digitValue? {c : Char} {d : Nat} (h : IsDigit radix c d) (hr : radix ≤ 16) :
    Number.digitValue? radix c = some d := by
  have hall : ∀ d < 16, Number.digitValue? 16 (Nat.digitChar d) = some d ∧
      Number.digitValue? 16 (upperAscii (Nat.digitChar d)) = some d := by decide
  have hvalue : Number.digitValue? 16 c = some d := by
    rcases h.2 with rfl | rfl
    · exact (hall d (Nat.lt_of_lt_of_le h.1 hr)).1
    · exact (hall d (Nat.lt_of_lt_of_le h.1 hr)).2
  unfold Number.digitValue? at hvalue ⊢
  exact Option.filter_eq_some_iff.2
    ⟨(Option.filter_eq_some_iff.1 hvalue).1, decide_eq_true h.1⟩

theorem digitValue?_eq_none {x : Char} (hr : radix ≤ 16) (hx : digitValue? 16 x = none) :
    digitValue? radix x = none := by
  unfold digitValue? at hx ⊢
  rw [Option.filter_eq_none_iff] at hx ⊢
  intro d hd hlt
  exact hx d hd (decide_eq_true (Nat.lt_of_lt_of_le (of_decide_eq_true hlt) hr))

theorem IsDigit.lower {c : Char} {d : Nat} (h : IsDigit radix c d) (hr : radix ≤ 16) :
    IsDigit radix (lowerAscii c) d := by
  have hall : ∀ d < 16, lowerAscii (Nat.digitChar d) = Nat.digitChar d ∧
      lowerAscii (upperAscii (Nat.digitChar d)) = Nat.digitChar d := by decide
  obtain ⟨hd, rfl | rfl⟩ := h
  · exact ⟨hd, .inl (hall d (Nat.lt_of_lt_of_le hd hr)).1⟩
  · exact ⟨hd, .inl (hall d (Nat.lt_of_lt_of_le hd hr)).2⟩

theorem readDigits?_append (acc : Nat) (l r : List Char) :
    readDigits? radix acc (l ++ r) =
      (readDigits? radix acc l).bind fun n => readDigits? radix n r := by
  induction l generalizing acc with
  | nil => rfl
  | cons c rest ih =>
    rw [List.cons_append, readDigits?, readDigits?]
    cases digitValue? radix c with
    | none => rfl
    | some d => exact ih _

namespace Writes

variable {digits : List Char} {n : Nat} (h : Writes radix digits n)

include h

theorem ne_nil : digits ≠ [] := by
  cases h with
  | digit _ => exact List.cons_ne_nil _ _
  | snoc _ _ => exact List.append_ne_nil_of_right_ne_nil _ (List.cons_ne_nil _ _)

theorem exists_isDigit : ∀ c ∈ digits, ∃ d, IsDigit radix c d := by
  induction h with
  | digit hd =>
    intro c hc
    exact ⟨_, List.mem_singleton.1 hc ▸ hd⟩
  | snoc _ hd ih =>
    intro c hc
    rcases List.mem_append.1 hc with hc | hc
    · exact ih c hc
    · exact ⟨_, List.mem_singleton.1 hc ▸ hd⟩

variable (hr : radix ≤ 16)

include hr

theorem not_mem {x : Char} (hx : digitValue? radix x = none) : x ∉ digits := by
  intro hmem
  obtain ⟨d, hd⟩ := h.exists_isDigit x hmem
  rw [hd.digitValue? hr] at hx
  simp at hx

theorem lower : Writes radix (digits.map lowerAscii) n := by
  induction h with
  | digit hd => exact .digit (hd.lower hr)
  | snoc _ hd ih =>
    rw [List.map_append]
    exact ih.snoc (hd.lower hr)

theorem readDigits? : Number.readDigits? radix 0 digits = some n := by
  induction h with
  | digit hd =>
    simp only [Number.readDigits?, hd.digitValue? hr, Nat.zero_mul, Nat.zero_add]
  | snoc _ hd ih =>
    rw [readDigits?_append, ih, Option.bind_some]
    simp only [Number.readDigits?, hd.digitValue? hr]

theorem readNat? : Number.readNat? radix digits = some n := by
  have hread := h.readDigits? hr
  cases digits with
  | nil => exact absurd rfl h.ne_nil
  | cons c rest => exact hread

theorem readInt64? :
    Number.readInt64? radix digits = if n < Nat.pow 2 63 then some (n : Int) else none := by
  unfold Number.readInt64?
  split
  case h_1 => exact absurd List.mem_cons_self (h.not_mem hr rfl)
  case h_2 => exact absurd List.mem_cons_self (h.not_mem hr rfl)
  case h_3 =>
    rw [h.readNat? hr, Option.filter_some]
    by_cases hn : n < Nat.pow 2 63
    · simp only [hn, decide_true, if_true]
      rfl
    · simp only [hn, decide_false, if_false]
      rfl

/-- What is made of the number that is read. -/
theorem apply_readInt64? {β : Type} (f : Option Int → β) :
    f (Number.readInt64? radix digits) = if n < Nat.pow 2 63 then f (some n) else f none := by
  rw [h.readInt64? hr]
  exact apply_ite f _ _ _

end Writes

theorem Writes.map_lower {digits : List Char} {n : Nat} (h : Writes 10 digits n) :
    digits.map lowerAscii = digits := by
  have hall : ∀ d < 10, lowerAscii (Nat.digitChar d) = Nat.digitChar d ∧
      upperAscii (Nat.digitChar d) = Nat.digitChar d := by decide
  refine (List.map_congr_left fun c hc => ?_).trans (List.map_id digits)
  obtain ⟨d, hd, hchar⟩ := h.exists_isDigit c hc
  obtain ⟨hlower, hupper⟩ := hall d hd
  rw [hupper, or_self] at hchar
  rw [hchar, hlower, id]

/-! ## Literals -/

/-- A literal without its underscores. -/
def bare (literal : List Char) : List Char :=
  literal.filter (· ≠ '_')

@[simp] theorem bare_append (l r : List Char) : bare (l ++ r) = bare l ++ bare r :=
  List.filter_append ..

theorem bare_of_not_mem {text : List Char} (h : '_' ∉ text) : bare text = text := by
  refine List.filter_eq_self.2 fun c hc => decide_eq_true ?_
  rintro rfl
  exact h hc

end Number

open Number

namespace Php

/-- The marks in front of the digits of integer literals, with the radix. -/
def radixMarks : List (List Char × Nat) :=
  [([], 10), (['0', 'x'], 16), (['0', 'X'], 16), (['0', 'b'], 2), (['0', 'B'], 2),
   (['0', 'o'], 8), (['0', 'O'], 8), (['0'], 8)]

/-- The digits after a mark are found. Without a mark, a zero in front must stand alone. -/
theorem radixOf_marked {mark digits : List Char} {radix n : Nat}
    (hmark : (mark, radix) ∈ radixMarks) (h : Writes radix digits n)
    (hzero : mark = [] → digits.head? = some '0' → digits = ['0']) :
    radixOf (mark.map lowerAscii ++ digits) = (digits, radix) := by
  simp only [radixMarks, List.mem_cons, Prod.mk.injEq, List.not_mem_nil, or_false] at hmark
  rcases hmark with ⟨rfl, rfl⟩ | ⟨rfl, rfl⟩ | ⟨rfl, rfl⟩ | ⟨rfl, rfl⟩ | ⟨rfl, rfl⟩ | ⟨rfl, rfl⟩ |
    ⟨rfl, rfl⟩ | ⟨rfl, rfl⟩
  · by_cases hhead : digits.head? = some '0'
    · rw [hzero rfl hhead]
      rfl
    · rw [List.map_nil, List.nil_append]
      unfold radixOf
      split <;> simp_all
  all_goals try rfl
  -- After a single zero comes an octal digit.
  have hnot (x : Char) (rest : List Char) (hx : digitValue? 8 x = none) : digits ≠ x :: rest := by
    rintro rfl
    exact h.not_mem (by decide) hx List.mem_cons_self
  show radixOf ('0' :: digits) = _
  unfold radixOf
  split
  case h_1 heq => exact absurd (List.cons.inj heq).2 (hnot _ _ (by decide))
  case h_2 heq => exact absurd (List.cons.inj heq).2 (hnot _ _ (by decide))
  case h_3 heq => exact absurd (List.cons.inj heq).2 (hnot _ _ (by decide))
  case h_4 heq => exact absurd (List.cons.inj heq).2 h.ne_nil
  case h_5 heq => rw [(List.cons.inj heq).2]
  case h_6 heq => exact absurd rfl (heq digits)

theorem integer_of_marked {mark raw : List Char} {radix v : Nat}
    (hmark : (mark, radix) ∈ radixMarks) (h : Writes radix (bare raw) v)
    (hzero : mark = [] → (bare raw).head? = some '0' → bare raw = ['0']) :
    integerRadix (mark ++ raw) = radix.repr ∧
      integerText (mark ++ raw) =
        if v < Nat.pow 2 63 then v.repr
        else String.ofList ((bare (mark ++ raw)).map lowerAscii) := by
  have hmarks : ∀ p ∈ radixMarks, '_' ∉ p.1 ∧ p.2 ≤ 16 ∧ (p.1 = [] → p.2 = 10) := by decide
  obtain ⟨hplain, hr, hten⟩ := hmarks _ hmark
  have hdigits : bareDigits (mark ++ raw) =
      mark.map lowerAscii ++ (bare raw).map lowerAscii := by
    rw [show bareDigits (mark ++ raw) = (bare (mark ++ raw)).map lowerAscii from rfl, bare_append,
      bare_of_not_mem hplain, List.map_append]
  have hradix : radixOf (bareDigits (mark ++ raw)) = ((bare raw).map lowerAscii, radix) := by
    rw [hdigits]
    refine radixOf_marked hmark (h.lower hr) fun hnil => ?_
    obtain rfl : radix = 10 := hten hnil
    rw [h.map_lower]
    exact hzero hnil
  rw [integerRadix, integerText, hradix]
  refine ⟨rfl, ?_⟩
  dsimp only
  rw [(h.lower hr).readInt64? hr]
  by_cases hv : v < Nat.pow 2 63
  · rw [if_pos hv, if_pos hv]
    rfl
  · rw [if_neg hv, if_neg hv]
    rfl

end Php

namespace CSharp

def radixMarks : List (List Char × Nat) :=
  [([], 10), (['0', 'x'], 16), (['0', 'X'], 16), (['0', 'b'], 2), (['0', 'B'], 2)]

def typeSuffixes : List (List Char) :=
  [[], ['u'], ['l'], ['u', 'l'], ['l', 'u']]

section Suffix

variable {digits suffix : List Char} {radix v : Nat}

theorem integerOr_readInt64? (h : Writes radix digits v) (hr : radix ≤ 16) (literal : List Char) :
    integerOr literal (readInt64? radix digits) =
      if v < Nat.pow 2 63 then .int v else .text (String.ofList literal) :=
  h.apply_readInt64? hr (integerOr literal)

theorem mem_typeSuffix (h : suffix ∈ typeSuffixes) {c : Char} (hc : c ∈ suffix) :
    c = 'u' ∨ c = 'l' := by
  have hall : ∀ suffix ∈ typeSuffixes, ∀ c ∈ suffix, c = 'u' ∨ c = 'l' := by simp [typeSuffixes]
  exact hall suffix h c hc

/-- The suffix of an integer type is cut off from the digits by any test that holds of its letters
and of no digit. -/
theorem trimEnd_suffix (h : Writes radix digits v) (hr : radix ≤ 16)
    (hsuffix : suffix ∈ typeSuffixes) {p : Char → Bool} (hu : p 'u' = true) (hl : p 'l' = true)
    (hp : ∀ c, p c = true → digitValue? radix c = none) :
    trimEnd p (digits ++ suffix) = digits := by
  refine trimEnd_append (fun c hc => ?_) fun c hc => ?_
  · refine Bool.eq_false_iff.2 fun htrue => ?_
    exact h.not_mem hr (hp c htrue) (List.mem_of_getLast? hc)
  · rcases mem_typeSuffix hsuffix hc with rfl | rfl
    · exact hu
    · exact hl

theorem not_mem_decimal (h : Writes 10 digits v) (hsuffix : suffix ∈ typeSuffixes) {x : Char}
    (hx : digitValue? 10 x = none) (hu : x ≠ 'u') (hl : x ≠ 'l') : x ∉ digits ++ suffix := by
  intro hmem
  rcases List.mem_append.1 hmem with hmem | hmem
  · exact h.not_mem (by decide) hx hmem
  · exact (mem_typeSuffix hsuffix hmem).elim hu hl

theorem isReal_decimal (h : Writes 10 digits v) (hsuffix : suffix ∈ typeSuffixes) :
    isReal (digits ++ suffix) = false := by
  have hnot {x : Char} (hx : digitValue? 10 x = none) (hu : x ≠ 'u') (hl : x ≠ 'l') :
      x ∉ digits ++ suffix := not_mem_decimal h hsuffix hx hu hl
  refine Bool.eq_false_iff.2 fun hreal => ?_
  rcases Bool.or_eq_true_iff.1 hreal with hreal | hreal
  · obtain ⟨c, hc, hreal⟩ := List.any_eq_true.1 hreal
    rcases of_decide_eq_true hreal with rfl | rfl
    · exact hnot (by decide) (by decide) (by decide) hc
    · exact hnot (by decide) (by decide) (by decide) hc
  · obtain ⟨c, hlast, hreal⟩ := (Option.any_eq_true _ _).1 hreal
    have hc := List.mem_of_getLast? hlast
    rcases of_decide_eq_true hreal with rfl | rfl | rfl
    · exact hnot (by decide) (by decide) (by decide) hc
    · exact hnot (by decide) (by decide) (by decide) hc
    · exact hnot (by decide) (by decide) (by decide) hc

end Suffix

theorem number_of_marked {mark raw suffix : List Char} {radix v : Nat}
    (hmark : (mark, radix) ∈ radixMarks) (h : Writes radix (bare raw) v)
    (hsuffix : suffix.map lowerAscii ∈ typeSuffixes) :
    numberOfLiteral (mark ++ raw ++ suffix) =
      if v < Nat.pow 2 63 then .int v
      else .text (String.ofList (bare (mark ++ raw ++ suffix))) := by
  have hmarks : ∀ p ∈ radixMarks, '_' ∉ p.1 ∧ p.2 ≤ 16 := by decide
  obtain ⟨hplain, hr⟩ := hmarks _ hmark
  have hplain' : '_' ∉ suffix := by
    intro hmem
    rcases mem_typeSuffix hsuffix (List.mem_map_of_mem hmem) with h | h <;> simp [lowerAscii] at h
  have hlower : (bare (mark ++ raw ++ suffix)).map lowerAscii =
      mark.map lowerAscii ++ ((bare raw).map lowerAscii ++ suffix.map lowerAscii) := by
    rw [bare_append, bare_append, bare_of_not_mem hplain, bare_of_not_mem hplain', List.map_append,
      List.map_append, List.append_assoc]
  replace h := h.lower hr
  have hmarked : integerOr (bare (mark ++ raw ++ suffix))
      (readInt64? radix (trimEnd (fun c => c = 'u' ∨ c = 'l')
        ((bare raw).map lowerAscii ++ suffix.map lowerAscii))) =
      if v < Nat.pow 2 63 then .int v
      else .text (String.ofList (bare (mark ++ raw ++ suffix))) := by
    rw [trimEnd_suffix h hr hsuffix (by decide) (by decide) fun c hc => ?_]
    · exact integerOr_readInt64? h hr _
    · rcases of_decide_eq_true hc with rfl | rfl
      · exact digitValue?_eq_none hr (by decide)
      · exact digitValue?_eq_none hr (by decide)
  rw [numberOfLiteral, ← bare, hlower]
  simp only [radixMarks, List.mem_cons, Prod.mk.injEq, List.not_mem_nil, or_false] at hmark
  rcases hmark with ⟨rfl, rfl⟩ | ⟨rfl, rfl⟩ | ⟨rfl, rfl⟩ | ⟨rfl, rfl⟩ | ⟨rfl, rfl⟩
  · rw [List.map_nil, List.nil_append]
    split
    case h_1 heq =>
      refine absurd ?_ (not_mem_decimal h hsuffix (x := 'x') (by decide) (by decide) (by decide))
      exact heq ▸ List.mem_cons_of_mem _ List.mem_cons_self
    case h_2 heq =>
      refine absurd ?_ (not_mem_decimal h hsuffix (x := 'b') (by decide) (by decide) (by decide))
      exact heq ▸ List.mem_cons_of_mem _ List.mem_cons_self
    case h_3 =>
      dsimp only
      rw [isReal_decimal h hsuffix, trimEnd_suffix h hr hsuffix (by decide) (by decide) ?_]
      · exact integerOr_readInt64? h hr _
      · intro c hc
        simp only [decide_eq_true_eq] at hc
        rcases hc with (rfl | rfl) | rfl | rfl | rfl <;> decide
  all_goals exact hmarked

end CSharp

namespace TypeScript

/-- The marks in front of the digits of integer literals that have one, with the radix. -/
def radixMarks : List (List Char × Nat) :=
  [(['0', 'x'], 16), (['0', 'X'], 16), (['0', 'o'], 8), (['0', 'O'], 8), (['0', 'b'], 2),
   (['0', 'B'], 2)]

theorem number_of_marked {mark raw : List Char} {radix v : Nat}
    (hmark : (mark, radix) ∈ radixMarks) (h : Writes radix (bare raw) v) :
    numberOfLiteral (mark ++ raw) =
      if v < Nat.pow 2 63 then .int v else .text (String.ofList (bare (mark ++ raw))) := by
  have hmarks : ∀ p ∈ radixMarks, '_' ∉ p.1 ∧ p.2 ≤ 16 := by decide
  obtain ⟨hplain, hr⟩ := hmarks _ hmark
  have hdigits : bare (mark ++ raw) = mark ++ bare raw := by
    rw [bare_append, bare_of_not_mem hplain]
  have hlast : (mark ++ bare raw).getLast? ≠ some 'n' := by
    rw [List.getLast?_append, Option.or_of_isSome (List.getLast?_isSome.2 h.ne_nil)]
    intro hn
    exact h.not_mem hr (digitValue?_eq_none hr (by decide)) (List.mem_of_getLast? hn)
  have hradix : radix? (mark ++ bare raw) = some radix ∧ (mark ++ bare raw).drop 2 = bare raw := by
    simp only [radixMarks, List.mem_cons, Prod.mk.injEq, List.not_mem_nil, or_false] at hmark
    rcases hmark with ⟨rfl, rfl⟩ | ⟨rfl, rfl⟩ | ⟨rfl, rfl⟩ | ⟨rfl, rfl⟩ | ⟨rfl, rfl⟩ |
      ⟨rfl, rfl⟩ <;> exact ⟨rfl, rfl⟩
  rw [numberOfLiteral, ← bare, hdigits, if_neg hlast, hradix.1, hradix.2]
  exact h.apply_readInt64? hr fun value =>
    (value.map Value.int).getD (.text (String.ofList (mark ++ bare raw)))

end TypeScript

namespace Number

/-- Integer literals are read exactly as long as they fit 64 bits, whatever their radix, wherever
they have underscores and in whichever case they are written. If one does not fit, its value is the
literal itself without its underscores, in PHP also in lower case. -/
theorem integer_literals (raw : List Char) (v : Nat) :
    (∀ mark radix, (mark, radix) ∈ Php.radixMarks → Writes radix (bare raw) v →
      (mark = [] → (bare raw).head? = some '0' → bare raw = ['0']) →
      Php.integerRadix (mark ++ raw) = radix.repr ∧
        Php.integerText (mark ++ raw) =
          if v < Nat.pow 2 63 then v.repr
          else String.ofList ((bare (mark ++ raw)).map lowerAscii)) ∧
    (∀ mark radix suffix, (mark, radix) ∈ CSharp.radixMarks → Writes radix (bare raw) v →
      suffix.map lowerAscii ∈ CSharp.typeSuffixes →
      CSharp.numberOfLiteral (mark ++ raw ++ suffix) =
        if v < Nat.pow 2 63 then .int v
        else .text (String.ofList (bare (mark ++ raw ++ suffix)))) ∧
    (∀ mark radix, (mark, radix) ∈ TypeScript.radixMarks → Writes radix (bare raw) v →
      TypeScript.numberOfLiteral (mark ++ raw) =
        if v < Nat.pow 2 63 then .int v else .text (String.ofList (bare (mark ++ raw)))) :=
  ⟨fun _ _ hmark h hzero => Php.integer_of_marked hmark h hzero,
    fun _ _ _ hmark h hsuffix => CSharp.number_of_marked hmark h hsuffix,
    fun _ _ hmark h => TypeScript.number_of_marked hmark h⟩

/-- The digits `1_F` after `0X` write 31, and the suffix `uL` is no part of them. -/
theorem integer_literals_hex :
    Writes 16 (bare ['1', '_', 'F']) 31 ∧
      Php.integerText ['0', 'X', '1', '_', 'F'] = "31" ∧
      Php.integerRadix ['0', 'X', '1', '_', 'F'] = "16" ∧
      CSharp.numberOfLiteral ['0', 'X', '1', '_', 'F', 'u', 'L'] = .int 31 ∧
      TypeScript.numberOfLiteral ['0', 'X', '1', '_', 'F'] = .int 31 := by
  have h : Writes 16 (bare ['1', '_', 'F']) 31 :=
    @Writes.snoc 16 ['1'] 1 'F' 15 (.digit ⟨by decide, by decide⟩) ⟨by decide, by decide⟩
  obtain ⟨hphp, hcsharp, htypeScript⟩ := integer_literals ['1', '_', 'F'] 31
  obtain ⟨hradix, htext⟩ :=
    hphp ['0', 'X'] 16 (by decide) h fun hnil => absurd hnil (by decide)
  exact ⟨h, htext, hradix, hcsharp ['0', 'X'] 16 ['u', 'L'] (by decide) h (by decide),
    htypeScript ['0', 'X'] 16 (by decide) h⟩

end Number

end FactStream
