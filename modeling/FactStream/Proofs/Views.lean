import FactStream.Registry

/-!
# What rules read off a view

Two fields of a view depend on nodes that rules do not look at: whether a node leads depends on
siblings without a label, and whether it opens with a token depends on a comment before the token.
`View.settled` keeps the first for nodes with a label only, and the second for update expressions
only. No rule of any language tells a view from its settled form (`Language.settled`).

The queries of the rules never look inside a node that could be an error (`Query.safe`).
-/

namespace FactStream

/-! ## Settled views -/

namespace View

/-- A view that tells of the surroundings of a node only what rules may go by. -/
def settled (v : View) : View :=
  { v with
    leads := v.leads && v.head.label.isSome
    opensWithToken := v.opensWithToken && v.kind == "update_expression" }

variable (v : View)

@[simp] theorem settled_source : v.settled.source = v.source := rfl
@[simp] theorem settled_head : v.settled.head = v.head := rfl
@[simp] theorem settled_around : v.settled.around = v.around := rfl
@[simp] theorem settled_tokens : v.settled.tokens = v.tokens := rfl
@[simp] theorem settled_labelled : v.settled.labelled = v.labelled := rfl
@[simp] theorem settled_solid : v.settled.solid = v.solid := rfl
@[simp] theorem kind_settled : v.settled.kind = v.kind := rfl
@[simp] theorem textOf_settled : v.settled.textOf = v.textOf := rfl
@[simp] theorem text_settled : v.settled.text = v.text := rfl
@[simp] theorem isIn_settled : v.settled.isIn = v.isIn := rfl
@[simp] theorem field?_settled : v.settled.field? = v.field? := rfl
@[simp] theorem fieldText?_settled : v.settled.fieldText? = v.fieldText? := rfl
@[simp] theorem fieldIs_settled : v.settled.fieldIs = v.fieldIs := rfl
@[simp] theorem containsToken_settled : v.settled.containsToken = v.containsToken := rfl
@[simp] theorem openingToken?_settled : v.settled.openingToken? = v.openingToken? := rfl
@[simp] theorem named_settled : v.settled.named = v.named := rfl
@[simp] theorem childOfKind?_settled : v.settled.childOfKind? = v.childOfKind? := rfl
@[simp] theorem hasKind_settled : v.settled.hasKind = v.hasKind := rfl
@[simp] theorem operator?_settled : v.settled.operator? = v.operator? := rfl

@[simp] theorem isField_settled (label : String) : v.settled.isField label = v.isField label := by
  unfold isField settled
  cases v.head.label <;> simp

theorem opensWithToken_settled {v : View} (h : v.kind = "update_expression") :
    v.settled.opensWithToken = v.opensWithToken := by
  simp [settled, h]

/-! A condition is rewritten together with the proof that it can be decided. -/

theorem ite_containsToken_settled {α : Type} (token : String) (a b : α) :
    (if v.settled.containsToken token then a else b) = if v.containsToken token then a else b :=
  rfl

theorem ite_fieldIs_settled {α : Type} (label kind : String) (a b : α) :
    (if v.settled.fieldIs label kind then a else b) = if v.fieldIs label kind then a else b :=
  rfl

end View

/-- What a treatment reads off a view: the kind and the properties of the fact. -/
def Treatment.reads : Treatment → View → Option String × List (String × Value)
  | .elide, _ | .pass _, _ => (none, [])
  | .emit e, v => (e.kind v, e.tokens v ++ e.properties.map fun p => (p.1, p.2 v))

/-- A rule does not tell a view of a node it is for from the settled view. -/
def Rule.Settled (rule : Rule) : Prop :=
  ∀ v : View, v.kind ∈ rule.kinds →
    rule.applies v.settled = rule.applies v ∧
      rule.treatment.reads v.settled = rule.treatment.reads v

theorem Rule.find?_settled {rules : List Rule} (h : ∀ rule ∈ rules, rule.Settled) (v : View) :
    Rule.find? rules v.settled = Rule.find? rules v := by
  unfold Rule.find?
  induction rules with
  | nil => rfl
  | cons rule rest ih =>
    obtain ⟨hrule, hrest⟩ := List.forall_mem_cons.1 h
    have happlies : (rule.kinds.contains v.settled.kind && rule.applies v.settled) =
        (rule.kinds.contains v.kind && rule.applies v) := by
      rw [View.kind_settled]
      cases hkind : rule.kinds.contains v.kind with
      | false => rfl
      | true => rw [(hrule v (List.contains_iff_mem.1 hkind)).1]
    rw [List.find?_cons, List.find?_cons, happlies, ih hrest]

theorem Rule.mem_of_find? {rules : List Rule} {v : View} {rule : Rule}
    (h : Rule.find? rules v = some rule) : rule ∈ rules ∧ v.kind ∈ rule.kinds := by
  unfold Rule.find? at h
  have hfor := List.find?_some h
  exact ⟨List.mem_of_find?_eq_some h,
    List.contains_iff_mem.1 (Bool.and_eq_true_iff.1 hfor).1⟩

theorem Rule.applies_of_find? {rules : List Rule} {v : View} {rule : Rule}
    (h : Rule.find? rules v = some rule) : rule.applies v = true := by
  unfold Rule.find? at h
  have hfor := List.find?_some h
  exact (Bool.and_eq_true_iff.1 hfor).2

/-- What becomes of a node is the treatment of a rule for its kind, or the one for nodes without a
rule, put to use. -/
theorem Language.outcome_cases (language : Language) (source : String) (s : Site) :
    (∃ rule ∈ language.rules, s.head.kind ∈ rule.kinds ∧
        language.outcome source s = rule.treatment.outcome source s) ∨
      (∃ treatment, language.otherwise = some treatment ∧
        language.outcome source s = treatment.outcome source s) ∨
      language.outcome source s = .unhandled := by
  unfold outcome
  cases hfind : Rule.find? language.rules (.of source s) with
  | some rule =>
    obtain ⟨hrule, hkind⟩ := Rule.mem_of_find? hfind
    exact .inl ⟨rule, hrule, hkind, rfl⟩
  | none =>
    cases language.otherwise with
    | some treatment => exact .inr (.inl ⟨treatment, rfl, rfl⟩)
    | none => exact .inr (.inr rfl)

/-! ## The rules of the languages -/

open View

theorem TypeScript.settled_rules : ∀ rule ∈ TypeScript.rules, rule.Settled := by
  simp only [rules, declarationRules, statementRules, moduleRules, expressionRules, markupRules,
    typeRules, List.forall_mem_cons, List.forall_mem_append, Rule.Settled, described, plain,
    grouping, Treatment.reads]
  simp +contextual [opensWithToken_settled, ↓ite_containsToken_settled, token, text, present,
    yieldsValues, roleOfMethod, onlyDescribes, accessModifier, fieldName?, exportKind]

theorem Php.settled_rules : ∀ rule ∈ Php.rules, rule.Settled := by
  have hflags (v : View) : flags v.settled = flags v := rfl
  simp only [rules, List.forall_mem_cons, Rule.Settled, plain, leaf, byOperator, withType,
    Treatment.reads]
  simp +contextual [opensWithToken_settled, ↓ite_containsToken_settled, hflags, updateKind,
    isIdentifier, byReference, useType, isInterpolated, kindOfBinary?, assignmentKind?,
    kindOfUnary?, kindOfCast?]

theorem CSharp.tokenProperties_settled (v : View) :
    tokenProperties v.settled = tokenProperties v := rfl

theorem CSharp.settled_rules : ∀ rule ∈ CSharp.rules, rule.Settled := by
  simp only [rules, List.forall_mem_cons, Rule.Settled, plain, byOperator, Treatment.reads]
  simp [tokenProperties_settled, ↓ite_containsToken_settled, ↓ite_fieldIs_settled, declaredName?,
    operator?]

/-! ## Queries and errors -/

/-- No error node meets the condition, since it has a kind of its own and no label. -/
def Test.excludesErrors : Test → Bool
  | kindIn kinds => !kinds.contains "ERROR"
  | labelled _ | isField _ => true
  | not _ => false
  | and t u => t.excludesErrors || u.excludesErrors

namespace Query

/-- The query names no error node. -/
def avoidsErrors : Query → Bool
  | field _ => true
  | named => false
  | filter t q => t.excludesErrors || q.avoidsErrors
  | first q => q.avoidsErrors
  | within _ r => r.avoidsErrors
  | orElse q r => q.avoidsErrors && r.avoidsErrors
  | unwrap _ _ | strip _ _ => false

/-- The query looks inside of no error node. -/
def safe : Query → Bool
  | field _ | named => true
  | filter _ q | first q => q.safe
  | within q r => q.avoidsErrors && q.safe && r.safe
  | orElse q r => q.safe && r.safe
  | unwrap kinds q => !kinds.contains "ERROR" && q.safe
  | strip kind q => kind != "ERROR" && q.safe

end Query

def Part.query : Part → Query
  | .nodes q | .group _ q _ => q

def Treatment.parts : Treatment → List Part
  | .elide => []
  | .pass parts => parts
  | .emit e => e.parts

/-- Neither what a language reads off views nor the nodes it looks at depend on comments or on what
is inside of error nodes. -/
structure Language.Settled (language : Language) : Prop where
  rules : ∀ rule ∈ language.rules, rule.Settled
  otherwise : ∀ treatment ∈ language.otherwise, ∀ v : View,
    treatment.reads v.settled = treatment.reads v
  safe : ∀ rule ∈ language.rules, ∀ part ∈ rule.treatment.parts, part.query.safe = true
  otherwiseSafe : ∀ treatment ∈ language.otherwise, ∀ part ∈ treatment.parts,
    part.query.safe = true

theorem Registry.mem_languages {language : Language} : language ∈ standard.languages ↔
    language = .cSharp ∨ language = .php ∨ language = .typeScript := by
  simp [standard, ofLanguages]

theorem Language.settled {language : Language} (h : language ∈ Registry.standard.languages) :
    language.Settled := by
  rcases Registry.mem_languages.1 h with rfl | rfl | rfl
  · refine ⟨CSharp.settled_rules, ?_, by decide, by decide⟩
    intro treatment htreatment v
    obtain rfl := Option.some.inj htreatment
    rfl
  · exact ⟨Php.settled_rules, by simp [php], by decide, by simp [php]⟩
  · exact ⟨TypeScript.settled_rules, by simp [typeScript], by decide, by simp [typeScript]⟩

end FactStream
