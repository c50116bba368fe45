import FactStream.Proofs.Reading
import FactStream.Proofs.Views

/-!
# The kinds of the facts of a language

The facts for the project, its directories and its files frame the facts of a run. No node of a
syntax tree gives a fact of one of their kinds, in any of the languages: a rule gives a fact the
renamed kind of its node or a kind of its own, and both come from tables without such kinds. A C#
node without a rule gets its own kind in capitals, which is never one of them.

Main statement: `Language.framesApart`.
-/

namespace FactStream

/-- Whether a fact of this common kind frames others. -/
def CommonKind.isFrame : CommonKind → Bool
  | project | dir | file => true
  | _ => false

/-- A kind that is neither that of the project nor of a directory or a file. -/
def NotFrame (kind : String) : Prop :=
  kind ∉ ["project", "dir", "file"]

instance (kind : String) : Decidable (NotFrame kind) :=
  inferInstanceAs (Decidable (kind ∉ _))

/-! ## Tables -/

/-- What holds of the values in a table and of the value for all other keys holds of all that is
looked up. -/
theorem lookup_getD {β : Type} {P : β → Prop} {l : List (String × β)} (hl : ∀ e ∈ l, P e.2)
    (k : String) {b : β} (hb : P b) : P ((l.lookup k).getD b) := by
  cases h : l.lookup k with
  | none => exact hb
  | some c => exact hl _ (mem_of_lookup h)

theorem notFrame_of_ite {p : Prop} [Decidable p] {a b kind : String} (ha : NotFrame a)
    (hb : NotFrame b) (h : (if p then some a else some b) = some kind) : NotFrame kind := by
  split at h <;> obtain rfl := Option.some.inj h
  · exact ha
  · exact hb

/-- In a table without framing kinds of its own, only the framing kinds stand for themselves. -/
theorem KindTable.isFrame_lookup {table : KindTable}
    (hentries : ∀ e ∈ table.entries, e.2.isFrame = false)
    (hcollapse : ∀ word, table.collapse = some word → NotFrame word) {kind : String}
    (h : NotFrame kind) : (table.lookup kind).isFrame = false := by
  have hplain : ∀ k, NotFrame k →
      (((CommonKind.frameKinds ++ table.entries).lookup k).getD .unknown).isFrame = false := by
    intro k hk
    have hnone : CommonKind.frameKinds.lookup k = none := by
      rw [List.lookup_eq_none_iff]
      intro e he
      have hne : e.1 ∈ ["project", "dir", "file"] := List.mem_map_of_mem (f := (·.1)) he
      simpa using fun hke : k = e.1 => hk (hke ▸ hne)
    rw [List.lookup_append, hnone]
    exact lookup_getD (P := fun c : CommonKind => c.isFrame = false) hentries k rfl
  unfold lookup
  cases hc : table.collapse with
  | none => exact hplain kind h
  | some word =>
    dsimp only
    split
    · exact hplain word (hcollapse word hc)
    · exact hplain kind h

/-! ## Rules -/

/-- The name of the container that a part makes. -/
def Part.name? : Part → Option String
  | .nodes _ => none
  | .group name _ _ => some name

def Treatment.names : Treatment → List String
  | .elide => []
  | .pass parts => parts.filterMap Part.name?
  | .emit e => e.parts.filterMap Part.name?

/-- The kind that a treatment gives to a fact, if it is not the renamed kind of the node. -/
def Treatment.kind? : Treatment → View → Option String
  | .elide, _ => none
  | .pass _, _ => none
  | .emit e, v => e.kind v

/-- The kinds that a treatment can give satisfy `K`. -/
structure Treatment.Kinds (K : String → Prop) (treatment : Treatment) : Prop where
  given : ∀ v kind, treatment.kind? v = some kind → K kind
  names : ∀ name ∈ treatment.names, K name

theorem groupNames_of_parts {K : String → Prop} {s : Site} {parts : List Part}
    (h : ∀ name ∈ parts.filterMap Part.name?, K name) :
    GroupNames K (parts.flatMap (Part.branches s)) := by
  intro name found kept hmem
  obtain ⟨part, hpart, hbranch⟩ := List.mem_flatMap.1 hmem
  cases part with
  | nodes q => simp [Part.branches] at hbranch
  | group name' q kept' =>
    obtain ⟨rfl, -, -⟩ : name = name' ∧ found = q.pick s ∧ kept = kept' := by
      simpa [Part.branches] using hbranch
    exact h name (List.mem_filterMap.2 ⟨_, hpart, rfl⟩)

theorem Treatment.Kinds.outcome {K : String → Prop} {rename : String → String}
    {treatment : Treatment} (h : treatment.Kinds K) (source : String) {s : Site}
    (hrename : K (rename s.head.kind)) : (treatment.outcome source s).Kinds K rename := by
  cases treatment with
  | elide => trivial
  | pass parts => exact groupNames_of_parts h.names
  | emit e =>
    refine ⟨?_, groupNames_of_parts h.names⟩
    cases hk : e.kind (.of source s) with
    | none => exact hrename
    | some kind => exact h.given _ kind hk

theorem Language.kinds_of_rules {language : Language} {K : String → Prop}
    (hrules : ∀ rule ∈ language.rules,
      rule.treatment.Kinds K ∧ ∀ kind ∈ rule.kinds, K (language.rename kind))
    (hother : ∀ treatment, language.otherwise = some treatment →
      treatment.Kinds K ∧ ∀ kind, K (language.rename kind)) : language.Kinds K := by
  intro source s
  unfold outcome
  cases hfind : Rule.find? language.rules (.of source s) with
  | some rule =>
    obtain ⟨hkinds, hrename⟩ := hrules rule (List.mem_of_find?_eq_some hfind)
    have hkind : s.head.kind ∈ rule.kinds := by
      have happlies := List.find?_some hfind
      rw [Bool.and_eq_true, List.contains_iff_mem] at happlies
      exact happlies.1
    exact hkinds.outcome source (hrename _ hkind)
  | none =>
    cases ho : language.otherwise with
    | none => trivial
    | some treatment =>
      obtain ⟨hkinds, hrename⟩ := hother treatment ho
      exact hkinds.outcome source (hrename _)

/-! ## TypeScript -/

namespace TypeScript

theorem notFrame_rename {kind : String} (h : NotFrame kind) : NotFrame (rename kind) :=
  lookup_getD (by decide +kernel) kind h

theorem notFrame_exportKind (v : View) : NotFrame (exportKind v) := by
  unfold exportKind
  split
  · decide
  · split <;> decide

theorem notFrame_given : ∀ rule ∈ rules, ∀ v kind, rule.treatment.kind? v = some kind →
    NotFrame kind := by
  have htypes : ∀ v : View, NotFrame ((predefinedTypes.lookup v.text).getD "any") :=
    fun v => lookup_getD (by decide) v.text (by decide)
  have hfixed : NotFrame "obj_meth" ∧ NotFrame "for_of" ∧ NotFrame "import_eq" ∧
      NotFrame "tag_templ" ∧ NotFrame "logic_expr" := by decide
  simp only [rules, declarationRules, statementRules, moduleRules, expressionRules, markupRules,
    typeRules, List.forall_mem_cons, List.forall_mem_append, described, plain, grouping,
    Treatment.kind?]
  simp [notFrame_exportKind, htypes, hfixed]

theorem kinds_notFrame : Language.typeScript.Kinds NotFrame := by
  refine Language.kinds_of_rules ?_ ?_
  · intro rule hrule
    have hnames : ∀ rule ∈ rules, ∀ name ∈ rule.treatment.names, NotFrame name := by decide
    have hkinds : ∀ rule ∈ rules, ∀ kind ∈ rule.kinds, NotFrame kind := by decide
    exact ⟨⟨notFrame_given rule hrule, hnames rule hrule⟩,
      fun kind hk => notFrame_rename (hkinds rule hrule kind hk)⟩
  · intro treatment h
    simp [Language.typeScript] at h

end TypeScript

/-! ## PHP -/

namespace Php

theorem notFrame_rename {kind : String} (h : NotFrame kind) : NotFrame (rename kind) :=
  lookup_getD (by decide +kernel) kind h

theorem notFrame_updateKind (v : View) : NotFrame (updateKind v) := by
  unfold updateKind
  split <;> decide

theorem notFrame_given : ∀ rule ∈ rules, ∀ v kind, rule.treatment.kind? v = some kind →
    NotFrame kind := by
  have hname : ∀ (v : View) (kind : String),
      (if isIdentifier v || v.kind == "primitive_type" then some "identifier" else some "name") =
        some kind → NotFrame kind :=
    fun v kind => notFrame_of_ite (by decide) (by decide)
  have htable : ∀ table ∈ [binaryKinds, assignmentKinds, unaryKinds, castKinds],
      ∀ e ∈ table, NotFrame e.2 := by decide +kernel
  have hbinary : ∀ v kind, kindOfBinary? v = some kind → NotFrame kind :=
    fun v kind h => htable binaryKinds (by simp) _ (mem_of_lookup h)
  have hassignment : ∀ v kind, assignmentKind? v = some kind → NotFrame kind :=
    fun v kind h => htable assignmentKinds (by simp) _ (mem_of_lookup h)
  have hunary : ∀ v kind, kindOfUnary? v = some kind → NotFrame kind :=
    fun v kind h => htable unaryKinds (by simp) _ (mem_of_lookup h)
  have hcast : ∀ v kind, kindOfCast? v = some kind → NotFrame kind :=
    fun v kind h => htable castKinds (by simp) _ (mem_of_lookup h)
  have hfixed : NotFrame "scalar_encapsed" := by decide
  simpa [rules, Treatment.kind?, byOperator, withType, plain, leaf, notFrame_updateKind, hfixed]
    using And.intro hname ⟨hbinary, hassignment, hunary, hcast⟩

theorem kinds_notFrame : Language.php.Kinds NotFrame := by
  refine Language.kinds_of_rules ?_ ?_
  · intro rule hrule
    have hnames : ∀ rule ∈ rules, ∀ name ∈ rule.treatment.names, NotFrame name := by decide
    have hkinds : ∀ rule ∈ rules, ∀ kind ∈ rule.kinds, NotFrame kind := by decide +kernel
    exact ⟨⟨notFrame_given rule hrule, hnames rule hrule⟩,
      fun kind hk => notFrame_rename (hkinds rule hrule kind hk)⟩
  · intro treatment h
    simp [Language.php] at h

end Php

/-! ## C# -/

namespace CSharp

theorem upperAscii_ne (c : Char) {d : Char} (hd : 97 ≤ d.toNat ∧ d.toNat ≤ 122) :
    Text.upperAscii c ≠ d := by
  rintro rfl
  unfold Text.upperAscii at hd
  have hiff : ('a' ≤ c ∧ c ≤ 'z') ↔ 97 ≤ c.toNat ∧ c.toNat ≤ 122 := by
    rw [Char.le_def, Char.le_def, UInt32.le_iff_toNat_le, UInt32.le_iff_toNat_le]
    rfl
  split at hd
  next hc =>
    rw [hiff] at hc
    rw [Char.ofNat, dif_pos (Or.inl (by omega))] at hd
    have hval : (Char.ofNatAux (c.toNat - 32) (Or.inl (by omega))).toNat = c.toNat - 32 := rfl
    rw [hval] at hd
    omega
  next hc => exact hc (hiff.2 hd)

theorem notFrame_capitalizeWords (kind : String) : NotFrame (capitalizeWords kind) := by
  have hhead : ∀ d, (capitalizeWords kind).toList.head? = some d → ∃ c, d = Text.upperAscii c := by
    intro d h
    rw [capitalizeWords, String.toList_ofList, List.head?_flatMap] at h
    obtain ⟨word, -, hword⟩ := List.exists_of_findSome?_eq_some h
    cases word with
    | nil => simp at hword
    | cons c rest => exact ⟨c, (Option.some.inj hword).symm⟩
  intro hmem
  have hsmall : ∀ k ∈ ["project", "dir", "file"], ∃ d, k.toList.head? = some d ∧
      97 ≤ d.toNat ∧ d.toNat ≤ 122 := by
    intro k hk
    simp only [List.mem_cons, List.not_mem_nil, or_false] at hk
    rcases hk with rfl | rfl | rfl
    · exact ⟨'p', by decide, by decide⟩
    · exact ⟨'d', by decide, by decide⟩
    · exact ⟨'f', by decide, by decide⟩
  obtain ⟨d, hd, hrange⟩ := hsmall _ hmem
  obtain ⟨c, rfl⟩ := hhead d hd
  exact upperAscii_ne c hrange rfl

theorem notFrame_rename (kind : String) : NotFrame (rename kind) :=
  lookup_getD (by decide +kernel) kind (notFrame_capitalizeWords kind)

theorem notFrame_given : ∀ rule ∈ rules, ∀ v kind, rule.treatment.kind? v = some kind →
    NotFrame kind := by
  have htable : ∀ table ∈ [binaryKinds, assignmentKinds, leadingUnaryKinds, trailingUnaryKinds],
      ∀ e ∈ table, NotFrame e.2 := by decide +kernel
  have hoperator : ∀ table ∈ [binaryKinds, assignmentKinds, leadingUnaryKinds, trailingUnaryKinds],
      ∀ (v : View) (kind : String),
        ((operator? v).bind fun op => table.lookup op) = some kind → NotFrame kind := by
    intro table ht v kind h
    obtain ⟨op, -, hop⟩ := Option.bind_eq_some_iff.1 h
    exact htable table ht _ (mem_of_lookup hop)
  have hlambda : ∀ (v : View) (kind : String),
      (if v.fieldIs "parameters" "parameter_list" then some "ParenthesizedLambdaExpression"
        else some "SimpleLambdaExpression") = some kind → NotFrame kind :=
    fun v kind => notFrame_of_ite (by decide) (by decide)
  have hyield : ∀ (v : View) (kind : String),
      (if v.containsToken "break" then some "YieldBreakStatement"
        else some "YieldReturnStatement") = some kind → NotFrame kind :=
    fun v kind => notFrame_of_ite (by decide) (by decide)
  have hfixed : NotFrame "TrueLiteralExpression" ∧ NotFrame "FalseLiteralExpression" := by decide
  simpa [rules, Treatment.kind?, plain, byOperator, hfixed, and_assoc] using
    And.intro hoperator (And.intro hlambda hyield)

theorem kinds_notFrame : Language.cSharp.Kinds NotFrame := by
  refine Language.kinds_of_rules ?_ ?_
  · intro rule hrule
    have hnames : ∀ rule ∈ rules, ∀ name ∈ rule.treatment.names, NotFrame name := by decide
    exact ⟨⟨notFrame_given rule hrule, hnames rule hrule⟩, fun kind _ => notFrame_rename kind⟩
  · intro treatment h
    obtain rfl := Option.some.inj h
    exact ⟨⟨by simp [Treatment.kind?, plain], by decide⟩, notFrame_rename⟩

end CSharp

/-! ## All languages -/

theorem Outcome.Kinds.mono {K K' : String → Prop} {rename : String → String} {s : Site}
    {o : Outcome s} (h : o.Kinds K rename) (hK : ∀ kind, K kind → K' kind) : o.Kinds K' rename := by
  cases o with
  | elided => trivial
  | unhandled => trivial
  | passing todo => exact fun name found kept hmem => hK _ (h name found kept hmem)
  | fact kind properties positional todo =>
    exact ⟨hK _ h.1, fun name found kept hmem => hK _ (h.2 name found kept hmem)⟩

/-- The framing kinds of a language stand for themselves, and no node of a tree gives a fact of one
of them. -/
structure Language.FramesApart (language : Language) : Prop where
  project : language.commonKind "project" = .project
  dir : language.commonKind "dir" = .dir
  file : language.commonKind "file" = .file
  inner : language.Kinds fun kind => (language.commonKind kind).isFrame = false

/-- In every language the facts of the syntax trees are apart from those that frame them. -/
theorem Language.framesApart {language : Language} (h : language ∈ Registry.standard.languages) :
    language.FramesApart := by
  rcases Registry.mem_languages.1 h with rfl | rfl | rfl
  · refine ⟨by decide, by decide, by decide, fun source s => ?_⟩
    refine (CSharp.kinds_notFrame source s).mono fun kind => ?_
    exact KindTable.isFrame_lookup (by decide) (by simp [cSharp])
  · refine ⟨by decide, by decide, by decide, fun source s => ?_⟩
    refine (Php.kinds_notFrame source s).mono fun kind => ?_
    refine KindTable.isFrame_lookup (by decide) fun word hword => ?_
    obtain rfl := Option.some.inj hword
    decide
  · refine ⟨by decide, by decide, by decide, fun source s => ?_⟩
    refine (TypeScript.kinds_notFrame source s).mono fun kind => ?_
    exact KindTable.isFrame_lookup (by decide) (by simp [typeScript])

end FactStream
