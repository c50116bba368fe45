import FactStream.Language.Php
import FactStream.Proofs.Layout
import FactStream.Proofs.Numerals

/-!
# Real literals

PHP writes the value of a real literal out, however many zeros that takes, while the layout of
numbers in facts has exponents (`Php.realLayout_render_iff`).

Main statement: `Php.float_values` says when the two texts agree. They do not always, as
`Php.float_values_apart` shows.
-/

namespace FactStream

open Number

namespace Number

/-- The usual layout writes the number as one that is written out: it is zero without a sign, or the
point stands at most 5 places before and at most 21 places behind the start of its digits. What is
not a number has the same word in both, and infinities have two different ones. -/
def Double.WrittenOut : Double → Prop
  | .nan => True
  | .infinite _ => False
  | .finite negative significand exponent =>
    if significand = 0 then negative = false
    else -5 ≤ (shortest significand exponent).point ∧ (shortest significand exponent).point ≤ 21

instance : DecidablePred Double.WrittenOut
  | .nan => .isTrue trivial
  | .infinite _ => .isFalse not_false
  | .finite negative significand _ =>
    inferInstanceAs (Decidable (if significand = 0 then negative = false else _ ∧ _))

theorem isDigit_of_mem_shortest {significand : Nat} {exponent : Int} {c : Char}
    (h : c ∈ (shortest significand exponent).digits) : c.isDigit = true := by
  unfold shortest dropTrailingZeros at h
  have hmem := List.mem_reverse.1 ((List.dropWhile_sublist _).mem (List.mem_reverse.1 h))
  exact Nat.isDigit_of_mem_toDigits (by decide) (by decide) hmem

namespace Layout

theorem mem_fixed {d : Digits} {c : Char} (h : c ∈ fixed d) : c ∈ d.digits ∨ c = '0' ∨ c = '.' := by
  unfold fixed at h
  dsimp only at h
  split at h
  · simp only [List.mem_cons] at h
    grind
  · split at h
    · simp only [List.mem_append, List.mem_replicate] at h
      grind
    · simp only [List.mem_append, List.mem_cons] at h
      rcases h with h | h | h
      · exact .inl (List.mem_of_mem_take h)
      · exact .inr (.inr h)
      · exact .inl (List.mem_of_mem_drop h)
  · simp only [List.mem_cons, List.mem_append, List.mem_replicate] at h
    grind

theorem mark_mem_scientific (layout : Layout) (d : Digits) : layout.mark ∈ layout.scientific d := by
  unfold scientific
  exact List.mem_append_right _ List.mem_cons_self

theorem fixed_ne_scientific {layout : Layout} {d : Digits} (hmark : layout.mark.isDigit = false)
    (hpoint : layout.mark ≠ '.') (hd : ∀ c ∈ d.digits, c.isDigit = true) :
    fixed d ≠ layout.scientific d := by
  intro heq
  rcases mem_fixed (heq ▸ mark_mem_scientific layout d) with h | h | h
  · rw [hd _ h] at hmark
    simp at hmark
  · rw [h] at hmark
    simp at hmark
  · exact hpoint h

end Layout

end Number

namespace Php

theorem digits_eq_iff (significand : Nat) (exponent : Int) :
    realLayout.digits (shortest significand exponent) =
        Naming.javaScriptLayout.digits (shortest significand exponent) ↔
      -5 ≤ (shortest significand exponent).point ∧ (shortest significand exponent).point ≤ 21 := by
  have hfixed : realLayout.digits (shortest significand exponent) =
      Layout.fixed (shortest significand exponent) := if_pos rfl
  rw [hfixed, Layout.digits]
  split
  case isTrue hpoint => exact iff_of_true rfl (of_decide_eq_true hpoint)
  case isFalse hpoint =>
    refine iff_of_false ?_ (mt decide_eq_true hpoint)
    exact Layout.fixed_ne_scientific rfl (by decide) fun c hc => isDigit_of_mem_shortest hc

theorem realLayout_render_iff (f : Double) :
    realLayout.render f = Naming.javaScriptLayout.render f ↔ f.WrittenOut := by
  cases f with
  | nan => exact iff_of_true rfl trivial
  | infinite negative => cases negative <;> decide
  | finite negative significand exponent =>
    unfold Layout.render Double.WrittenOut
    dsimp only
    by_cases hzero : significand = 0
    · rw [if_pos hzero, if_pos hzero, if_pos hzero]
      cases negative <;> decide
    · rw [if_neg hzero, if_neg hzero, if_neg hzero, String.ofList_inj, ← digits_eq_iff]
      cases negative <;> simp

theorem outcome_float (source : String) {s : Site} (h : s.head.kind = "float") :
    Language.php.outcome source s =
      .fact none [("value", realText (View.of source s).text.toList)] true [] := by
  have hkind : (View.of source s).kind = "float" := h
  unfold Language.outcome Rule.find?
  rw [hkind]
  rfl

/-- The value of a real literal is always written out. It is the text that the number has in facts
just if that one is written out as well. -/
theorem float_values (source : String) {s : Site} (hkind : s.head.kind = "float") {f : Double}
    (hf : readDouble? (bare (View.of source s).text.toList) = some f) :
    ∃ value, Language.php.outcome source s = .fact none [("value", value)] true [] ∧
      value = .text (realLayout.render f) ∧
      (Language.php.naming.property value = Language.php.naming.property (.float f) ↔
        f.WrittenOut) := by
  have htext : realText (View.of source s).text.toList = realLayout.render f := by
    unfold realText
    dsimp only
    rw [← bare, hf]
  refine ⟨_, outcome_float source hkind, congrArg Value.text htext, ?_⟩
  rw [htext, ← realLayout_render_iff]
  exact ⟨fun h => congrArg Property.value h, fun h => congrArg (Property.mk "string") h⟩

/-- A real literal that is a whole source text. -/
def floatSite (source : String) : Site where
  node := ⟨{ kind := "float", span := { endOffset := source.utf8ByteSize } }, []⟩

/-- The literal `1_0.5e1` has the value 105, which has three digits before the point. -/
theorem float_values_small :
    (View.of "1_0.5e1" (floatSite "1_0.5e1")).text = "1_0.5e1" ∧
      readDouble? (bare "1_0.5e1".toList) = some (.finite false 7388718138654720 (-46)) ∧
      (Double.finite false 7388718138654720 (-46)).WrittenOut ∧
      ∃ value, Language.php.outcome "1_0.5e1" (floatSite "1_0.5e1") =
          .fact none [("value", value)] true [] ∧
        Language.php.naming.property value = ⟨"string", "105"⟩ := by
  have htext : (View.of "1_0.5e1" (floatSite "1_0.5e1")).text = "1_0.5e1" := by decide +kernel
  have hf : readDouble? (bare "1_0.5e1".toList) = some (.finite false 7388718138654720 (-46)) := by
    decide +kernel
  have hout : (Double.finite false 7388718138654720 (-46)).WrittenOut := by decide +kernel
  obtain ⟨value, houtcome, -, hiff⟩ :=
    float_values "1_0.5e1" (s := floatSite "1_0.5e1") rfl (htext ▸ hf)
  refine ⟨htext, hf, hout, value, houtcome, (hiff.2 hout).trans ?_⟩
  decide +kernel

/-- The value of `1e22` has 23 digits, but the number is written with an exponent. -/
theorem float_values_apart :
    ∃ f value, readDouble? "1e22".toList = some f ∧
      Language.php.outcome "1e22" (floatSite "1e22") = .fact none [("value", value)] true [] ∧
      Language.php.naming.property value = ⟨"string", "10000000000000000000000"⟩ ∧
      Language.php.naming.property (.float f) = ⟨"string", "1e+22"⟩ := by
  refine ⟨.finite false 4768371582031250 21, _, by decide +kernel, rfl, by decide +kernel,
    by decide +kernel⟩

end Php

end FactStream
