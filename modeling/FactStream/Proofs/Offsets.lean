import FactStream.Proofs.Key
import FactStream.Proofs.Kinds

/-!
# The offsets that facts carry

The rule for a node may give a fact properties of its own, and these win over the common ones. In
every language the names of the two never meet (`Language.keepsCommon`), so the offsets written into
a fact are those of its span. Read as decimals they are the same numbers again, as long as they fit
a signed 64-bit number (`WalkContext.spans_content`).
-/

namespace FactStream

/-! ## Names of properties -/

/-- The names of the properties that every fact has. -/
def commonNames : List String :=
  ["filename", "start_line", "start_column", "start_offset", "end_line", "end_column",
   "end_offset"]

def Treatment.tokens : Treatment → View → List (String × Value)
  | .elide, _ | .pass _, _ => []
  | .emit e, v => e.tokens v

/-- The fixed names of the properties of a treatment. -/
def Treatment.fixedNames : Treatment → List String
  | .elide | .pass _ => []
  | .emit e => e.properties.map (·.1)

/-- No property that a treatment gives has the name of a common one. -/
structure Treatment.KeepsCommon (treatment : Treatment) : Prop where
  tokens : ∀ v, ∀ p ∈ treatment.tokens v, p.1 ∉ commonNames
  fixed : ∀ name ∈ treatment.fixedNames, name ∉ commonNames

/-- No fact of a language has a common property from its rule. -/
def Language.KeepsCommon (language : Language) : Prop :=
  ∀ source s kind given positional todo,
    language.outcome source s = .fact kind given positional todo →
      ∀ p ∈ given, p.1 ∉ commonNames

theorem Treatment.KeepsCommon.outcome {treatment : Treatment} (h : treatment.KeepsCommon)
    {source : String} {s : Site} {kind : Option String} {given : List (String × Value)}
    {positional : Bool} {todo : List (Branch s)}
    (ho : treatment.outcome source s = .fact kind given positional todo) :
    ∀ p ∈ given, p.1 ∉ commonNames := by
  intro p hp
  cases treatment with
  | elide => simp [Treatment.outcome] at ho
  | pass parts => simp [Treatment.outcome] at ho
  | emit e =>
    simp only [Treatment.outcome, Outcome.fact.injEq] at ho
    obtain ⟨-, rfl, -, -⟩ := ho
    rcases List.mem_append.1 hp with hp | hp
    · exact h.tokens _ p hp
    · obtain ⟨q, hq, rfl⟩ := List.mem_map.1 hp
      exact h.fixed q.1 (List.mem_map_of_mem hq)

theorem Language.keepsCommon_of_rules {language : Language}
    (hrules : ∀ rule ∈ language.rules, rule.treatment.KeepsCommon)
    (hother : ∀ treatment, language.otherwise = some treatment → treatment.KeepsCommon) :
    language.KeepsCommon := by
  intro source s kind given positional todo ho
  rcases language.outcome_cases source s with ⟨rule, hrule, -, hr⟩ | ⟨treatment, ht, hr⟩ | hr
  · exact (hrules rule hrule).outcome (hr.symm.trans ho)
  · exact (hother treatment ht).outcome (hr.symm.trans ho)
  · rw [hr] at ho
    simp at ho

/-- A language keeps the common properties if no names come from the source text, the fixed ones
are not common, and nodes without a rule give no fact. -/
theorem Language.keepsCommon_of_fixed {language : Language}
    (htokens : ∀ rule ∈ language.rules, ∀ v, rule.treatment.tokens v = [])
    (hfixed : ∀ rule ∈ language.rules, ∀ name ∈ rule.treatment.fixedNames, name ∉ commonNames)
    (hother : language.otherwise = none) : language.KeepsCommon := by
  refine keepsCommon_of_rules (fun rule hrule => ⟨fun v p hp => ?_, hfixed rule hrule⟩) ?_
  · rw [htokens rule hrule v] at hp
    simp at hp
  · intro treatment h
    rw [hother] at h
    simp at h

theorem TypeScript.keepsCommon : Language.typeScript.KeepsCommon := by
  have htokens : ∀ rule ∈ rules, ∀ v, rule.treatment.tokens v = [] := by
    simp only [rules, declarationRules, statementRules, moduleRules, expressionRules, markupRules,
      typeRules, List.forall_mem_cons, List.forall_mem_append, described, plain, grouping,
      Treatment.tokens]
    simp
  exact Language.keepsCommon_of_fixed htokens (by decide) rfl

theorem Php.keepsCommon : Language.php.KeepsCommon := by
  have htokens : ∀ rule ∈ rules, ∀ v, rule.treatment.tokens v = [] := by
    simp only [rules, List.forall_mem_cons, plain, leaf, byOperator, withType, Treatment.tokens]
    simp
  exact Language.keepsCommon_of_fixed htokens (by decide) rfl

namespace CSharp

/-- Names of keywords end in a letter that no common name ends in. -/
theorem keywordName_not_common (keyword : String) : keywordName keyword ∉ commonNames := by
  intro hmem
  have hends : ∀ name ∈ commonNames, name.toList.getLast? ≠ some 'd' := by decide
  refine hends _ hmem ?_
  rw [keywordName, String.toList_append, List.getLast?_append]
  rfl

theorem tokenName_not_common {token name : String} (h : tokenName? token = some name) :
    name ∉ commonNames := by
  have htable : ∀ e ∈ punctuation, e.2 ∉ commonNames := by decide
  unfold tokenName? at h
  rcases Option.or_eq_some_iff.1 h with h | ⟨-, h⟩
  · exact htable _ (mem_of_lookup h)
  · split at h
    · obtain rfl := Option.some.inj h
      exact keywordName_not_common token
    · simp at h

theorem tokenProperties_not_common (v : View) : ∀ p ∈ tokenProperties v, p.1 ∉ commonNames := by
  intro p hp
  obtain ⟨h, -, hp⟩ := List.mem_filterMap.1 hp
  unfold tokenProperty? at hp
  split at hp
  · simp at hp
  · split at hp
    · obtain rfl := Option.some.inj hp
      exact keywordName_not_common _
    · split at hp
      · simp at hp
      · obtain ⟨name, hname, rfl⟩ := Option.map_eq_some_iff.1 hp
        exact tokenName_not_common hname

theorem keepsCommon : Language.cSharp.KeepsCommon := by
  have htokens : ∀ rule ∈ rules, ∀ v, rule.treatment.tokens v = [] ∨
      rule.treatment.tokens v = tokenProperties v ∨
      rule.treatment.tokens v = tokenProperties v ++ [(keywordName v.text, .text v.text)] := by
    simp [rules, plain, byOperator, Treatment.tokens]
  have hfixed : ∀ rule ∈ rules, ∀ name ∈ rule.treatment.fixedNames, name ∉ commonNames := by
    decide
  refine Language.keepsCommon_of_rules (fun rule hrule => ⟨fun v p hp => ?_, hfixed rule hrule⟩)
    fun treatment h => ?_
  · rcases htokens rule hrule v with h | h | h <;> rw [h] at hp
    · simp at hp
    · exact tokenProperties_not_common v p hp
    · rcases List.mem_append.1 hp with hp | hp
      · exact tokenProperties_not_common v p hp
      · rw [List.mem_singleton.1 hp]
        exact keywordName_not_common v.text
  · obtain rfl := Option.some.inj h
    exact ⟨tokenProperties_not_common, by decide⟩

end CSharp

theorem Language.keepsCommon {language : Language} (h : language ∈ Registry.standard.languages) :
    language.KeepsCommon := by
  rcases Registry.mem_languages.1 h with rfl | rfl | rfl
  · exact CSharp.keepsCommon
  · exact Php.keepsCommon
  · exact TypeScript.keepsCommon

/-! ## Reading offsets back -/

def Dictionary.number? (properties : Dictionary Property) (name : String) : Option Nat :=
  (properties.get? name).bind fun p => Number.readNat? 10 p.value.toList

theorem Number.wrap64_eq {n : Nat} (h : n < Nat.pow 2 63) : wrap64 n = n := by
  have hlow : n < 9223372036854775808 := h
  unfold wrap64
  rw [show Nat.pow 2 64 = 18446744073709551616 from rfl]
  exact Int.bmod_eq_of_le (by omega) (by omega)

theorem Naming.read_property_ofNat (naming : Naming) {n : Nat} (h : n < Nat.pow 2 63) :
    Number.readNat? 10 (naming.property (.ofNat n)).value.toList = some n := by
  have hvalue : (naming.property (.ofNat n)).value = Nat.repr n := by
    rw [property, Value.ofNat, Number.wrap64_eq h]
    rfl
  rw [hvalue, Nat.repr, String.toList_ofList, Number.readNat?_toDigits]

theorem get?_commonProperties (naming : Naming) (filename : String) (span : Span) :
    (commonProperties naming filename span).get? "start_offset" =
        some (naming.property (.ofNat span.startOffset)) ∧
      (commonProperties naming filename span).get? "end_offset" =
        some (naming.property (.ofNat span.endOffset)) := by
  simp [commonProperties, Dictionary.ofList, Dictionary.get?_insert]

/-- The offsets of a fact, read as decimals. -/
def Content.Spans (content : Content) (start stop : Nat) : Prop :=
  content.properties.number? "start_offset" = some start ∧
    content.properties.number? "end_offset" = some stop

namespace WalkContext

variable {c : WalkContext}

theorem get?_content_of_common (kind : String) (span : Span) {given : List (String × Value)}
    (orderable : Bool) {name : String} (hgiven : ∀ p ∈ given, p.1 ∉ commonNames)
    (hname : name ∈ commonNames) :
    (c.content kind span given orderable).properties.get? name =
      (commonProperties c.language.naming c.filename span).get? name := by
  have hnone : given.reverse.lookup name = none := by
    cases hl : given.reverse.lookup name with
    | none => rfl
    | some value => exact absurd hname (hgiven _ (List.mem_reverse.1 (mem_of_lookup hl)))
  rw [get?_content, hnone]
  rfl

theorem spans_content (kind : String) {span : Span} {given : List (String × Value)}
    (orderable : Bool) (hgiven : ∀ p ∈ given, p.1 ∉ commonNames)
    (hstart : span.startOffset < Nat.pow 2 63) (hend : span.endOffset < Nat.pow 2 63) :
    (c.content kind span given orderable).Spans span.startOffset span.endOffset := by
  obtain ⟨hfirst, hlast⟩ := get?_commonProperties c.language.naming c.filename span
  constructor
  · rw [Dictionary.number?, get?_content_of_common kind span orderable hgiven (by decide), hfirst,
      Option.bind_some]
    exact c.language.naming.read_property_ofNat hstart
  · rw [Dictionary.number?, get?_content_of_common kind span orderable hgiven (by decide), hlast,
      Option.bind_some]
    exact c.language.naming.read_property_ofNat hend

end WalkContext

end FactStream
