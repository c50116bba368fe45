import FactStream.Proofs.DocumentOrder
import FactStream.Proofs.FactForest
import FactStream.Proofs.Trace

/-!
# No node of a C# tree gets lost

A `Descent` is a site with all those around it. By these alone one can tell which nodes of a C# tree
give facts (`CSharp.gives`): all but those that only group their children, and those that are closed
or inside of a closed one (`CSharp.isOpen`).

The rules name children in three ways, but always all of those that are open, and never a token or a
declared name (`CSharp.Enters`). So the forest of a site has the facts of the nodes that give one
(`CSharp.covers_forest`).

Main statement: `CSharp.fact_of_every_node`.
-/

namespace FactStream

/-! ## Descents -/

/-- A site with those around it, the nearest first. -/
structure Descent where
  site : Site
  above : List Site

theorem Node.preorder_eq (n : Node) : n.preorder = n :: n.children.flatMap preorder := by
  have hall (nodes : List Node) : preorder.all nodes = nodes.flatMap preorder := by
    induction nodes with
    | nil => rfl
    | cons n rest ih => rw [preorder.all, ih, List.flatMap_cons]
  rw [← hall]
  cases n
  rw [preorder]

namespace Site

/-- A site and all below it, in document order. -/
def descents (above : List Site) (s : Site) : List Descent :=
  ⟨s, above⟩ :: s.inner.flatMap fun d => d.val.descents (s :: above)
termination_by sizeOf s.node
decreasing_by exact d.property.sizeOf_lt

theorem map_node_descents (above : List Site) (s : Site) :
    (s.descents above).map (·.site.node) = s.node.preorder := by
  have ih (d : Inner s) :
      (d.val.descents (s :: above)).map (·.site.node) = d.val.node.preorder :=
    map_node_descents (s :: above) d.val
  rw [descents, Node.preorder_eq, ← s.map_node_children, ← s.map_val_inner, List.map_cons,
    List.map_flatMap, List.map_map, List.flatMap_map]
  simp only [ih]
  rfl
termination_by sizeOf s.node
decreasing_by exact d.property.sizeOf_lt

theorem suffix_of_mem_descents {above : List Site} {s : Site} {p : Descent}
    (h : p ∈ s.descents above) : s :: above <:+ p.site :: p.above := by
  rw [descents, List.mem_cons, List.mem_flatMap] at h
  rcases h with rfl | ⟨d, -, hp⟩
  · exact List.suffix_rfl
  · exact (List.suffix_cons d.val (s :: above)).trans (suffix_of_mem_descents hp)
termination_by sizeOf s.node
decreasing_by exact d.property.sizeOf_lt

theorem around_of_mem_inner {s : Site} {d : Inner s} (h : d ∈ s.inner) :
    d.val.around = some s.head.kind := by
  obtain ⟨p, -, hp⟩ := List.mem_map.1 (mem_children_of_mem_inner h)
  rw [← hp]
  rfl

theorem field?_of_isField {s : Site} {d : Inner s} (h : d ∈ s.inner) {label : String}
    (hd : d.val.isField label = true) (source : String) :
    (View.of source s).field? label = some d.head := by
  obtain ⟨⟨n, i⟩, hn, hchild⟩ := List.mem_map.1 (mem_children_of_mem_inner h)
  have hget : s.node.children[i]? = some n := List.mem_zipIdx_iff_getElem?.1 hn
  obtain ⟨hi, hget⟩ := List.getElem?_eq_some_iff.1 hget
  have hsplit : s.node.children = s.node.children.take i ++ n :: s.node.children.drop (i + 1) := by
    rw [← hget, ← List.drop_eq_getElem_cons hi, List.take_append_drop]
  have hhead : d.head = n.head := by
    rw [Inner.head, ← hchild]
    rfl
  rw [← hchild] at hd
  obtain ⟨hleads, hlabel⟩ := Bool.and_eq_true_iff.1 hd
  have hlabel : n.head.label = some label := beq_iff_eq.1 hlabel
  rw [View.field?, View.of, List.find?_filter, List.find?_eq_some_iff_append, hhead]
  refine ⟨by simp [hlabel], (s.node.children.take i).map (·.head),
    (s.node.children.drop (i + 1)).map (·.head), ?_, fun a ha => ?_⟩
  · rw [← List.map_cons, ← List.map_append, ← hsplit]
  · obtain ⟨older, holder, rfl⟩ := List.mem_map.1 ha
    have hne : older.head.label ≠ n.head.label :=
      bne_iff_ne.1 (List.all_eq_true.1 hleads older holder)
    rw [hlabel] at hne
    simp [hne]

end Site

namespace CSharp

/-! ## Nodes that give facts -/

/-- Kinds that only group their children. -/
def passedKinds : List String := ["compilation_unit", "literal", "global_statement"]

/-- Kinds whose text is part of a property of the node around them. -/
def elidedKinds : List String :=
  ["modifier", "string_content", "string_literal_content", "raw_string_start",
   "raw_string_content", "raw_string_end", "character_literal_content", "escape_sequence",
   "interpolation_start", "interpolation_quote", "interpolation_brace",
   "interpolation_alignment_clause", "interpolation_format_clause"]

/-- The node is the name that the declaration around it owns as a token. -/
def isDeclaredName (s : Site) : Bool :=
  s.around.any declaresName.contains && s.isField "name" && s.head.kind == "identifier"

/-- Nothing about the node itself keeps it, or what is inside of it, from giving facts. Only the
root may be a token. -/
def isOpen (s : Site) : Bool :=
  s.head.live && (s.head.named || s.around.isNone) && !elidedKinds.contains s.head.kind &&
    !isDeclaredName s

/-- The node gives a fact: it is open like all those around it, and it does not only group its
children. -/
def gives (p : Descent) : Bool :=
  isOpen p.site && !passedKinds.contains p.site.head.kind && p.above.all isOpen

/-- The nearest of some sites around a node that gives a fact. -/
def holder? : List Site → Option Descent
  | [] => none
  | s :: above => if gives ⟨s, above⟩ then some ⟨s, above⟩ else holder? above

theorem filter_gives_of_not_open {above : List Site} {s : Site} (h : isOpen s = false) :
    (s.descents above).filter gives = [] := by
  refine List.filter_eq_nil_iff.2 fun p hp hgives => ?_
  have hs : s ∈ p.site :: p.above := (Site.suffix_of_mem_descents hp).subset List.mem_cons_self
  simp only [gives, Bool.and_eq_true, List.all_eq_true] at hgives
  have hopen : isOpen s = true := by
    rcases List.mem_cons.1 hs with rfl | hs
    · exact hgives.1.1
    · exact hgives.2 s hs
  exact Bool.false_ne_true (h.symm.trans hopen)

/-! ## Rules -/

/-- From a site, a walk goes on to all children that are open, and to no token and no declared
name. -/
def Enters {s : Site} (picked : List (Inner s)) : Prop :=
  ∃ p : Inner s → Bool, picked = s.inner.filter p ∧ ∀ d ∈ s.inner,
    (p d = true → d.head.named = true ∧ isDeclaredName d.val = false) ∧
    (isOpen d.val = true → p d = true)

theorem isDeclaredName_of_mem {s : Site} {d : Inner s} (h : d ∈ s.inner) :
    isDeclaredName d.val = (declaresName.contains s.head.kind &&
      Test.holds (.and (.isField "name") (.kindIn ["identifier"])) d.val) := by
  rw [isDeclaredName, Site.around_of_mem_inner h, Option.any_some, Bool.and_assoc]
  simp [Test.holds, beq_eq_decide]

theorem of_isOpen {s : Site} {d : Inner s} (h : d ∈ s.inner) (hopen : isOpen d.val = true) :
    d.head.named = true ∧ d.head.extra = false ∧ d.head.kind ≠ "modifier" ∧
      isDeclaredName d.val = false := by
  rw [isOpen, Site.around_of_mem_inner h] at hopen
  simp only [Bool.and_eq_true, Option.isNone_some, Bool.or_false, Bool.not_eq_true'] at hopen
  obtain ⟨⟨⟨hlive, hnamed⟩, hkind⟩, hname⟩ := hopen
  have hextra : d.head.extra = false := by
    have hlive : d.head.live = true := hlive
    simp only [Head.live, Bool.and_eq_true, Bool.not_eq_true'] at hlive
    exact hlive.1.2
  refine ⟨hnamed, hextra, ?_, hname⟩
  intro hmodifier
  have hkind : elidedKinds.contains d.head.kind = false := hkind
  rw [hmodifier] at hkind
  exact absurd hkind (by decide)

theorem enters_named {s : Site} (h : s.head.kind ∉ declaresName) :
    Enters (Query.named.pick s) := by
  refine ⟨_, rfl, fun d hd => ⟨fun hp => ?_, fun hopen => ?_⟩⟩
  · have hname : declaresName.contains s.head.kind = false := by simpa using h
    rw [isDeclaredName_of_mem hd, hname]
    exact ⟨(Bool.and_eq_true_iff.1 hp).1, rfl⟩
  · obtain ⟨hnamed, hextra, -, -⟩ := of_isOpen hd hopen
    simp [hnamed, hextra]

theorem pick_children (s : Site) : children.pick s = s.inner.filter fun d =>
    Test.holds (.not (.kindIn ["modifier"])) d.val && (d.head.named && !d.head.extra) :=
  List.filter_filter ..

theorem enters_children {s : Site} (h : ∀ d ∈ s.inner, isDeclaredName d.val = false) :
    Enters (children.pick s) := by
  refine ⟨_, pick_children s, fun d hd => ⟨fun hp => ?_, fun hopen => ?_⟩⟩
  · have hnamed := (Bool.and_eq_true_iff.1 (Bool.and_eq_true_iff.1 hp).2).1
    exact ⟨hnamed, h d hd⟩
  · obtain ⟨hnamed, hextra, hkind, -⟩ := of_isOpen hd hopen
    have hkind : d.val.head.kind ≠ "modifier" := hkind
    simp [Test.holds, hnamed, hextra, hkind]

theorem enters_members {s : Site} (h : s.head.kind ∈ declaresName) :
    Enters (membersOfDeclaration.pick s) := by
  have hdeclares : declaresName.contains s.head.kind = true := by simpa using h
  have hpick : membersOfDeclaration.pick s = s.inner.filter fun d =>
      !Test.holds (.and (.isField "name") (.kindIn ["identifier"])) d.val &&
        (Test.holds (.not (.kindIn ["modifier"])) d.val && (d.head.named && !d.head.extra)) := by
    rw [membersOfDeclaration, Query.pick, pick_children, List.filter_filter]
    rfl
  refine ⟨_, hpick, fun d hd => ⟨fun hp => ?_, fun hopen => ?_⟩⟩
  · obtain ⟨hname, hrest⟩ := Bool.and_eq_true_iff.1 hp
    rw [Bool.not_eq_true'] at hname
    rw [isDeclaredName_of_mem hd, hdeclares, Bool.true_and]
    exact ⟨(Bool.and_eq_true_iff.1 (Bool.and_eq_true_iff.1 hrest).2).1, hname⟩
  · obtain ⟨hnamed, hextra, hkind, hname⟩ := of_isOpen hd hopen
    have hkind : d.val.head.kind ≠ "modifier" := hkind
    rw [isDeclaredName_of_mem hd, hdeclares, Bool.true_and] at hname
    rw [hname, hnamed, hextra]
    simp [Test.holds, hkind]

/-- The treatment gives a fact whose position means something, over the children that `q` names. -/
def Emits (q : Query) : Treatment → Prop
  | .emit e => e.positional = true ∧ e.parts = [.nodes q]
  | .elide | .pass _ => False

theorem exists_fact_of_emits {treatment : Treatment} {q : Query} (h : Emits q treatment)
    (source : String) (s : Site) : ∃ kind given,
      treatment.outcome source s = .fact kind given true ((q.pick s).map .node) := by
  cases treatment with
  | elide => exact h.elim
  | pass parts => exact h.elim
  | emit e =>
    obtain ⟨hpositional, hparts⟩ := h
    rw [Treatment.outcome, hpositional, hparts, List.flatMap_singleton, Part.branches]
    exact ⟨_, _, rfl⟩

/-- What a rule does with its nodes. -/
inductive Form (rule : Rule) : Prop
  | passing : rule.kinds = passedKinds → (∀ v, rule.applies v = true) →
      rule.treatment = .pass [.nodes .named] → Form rule
  | eliding : rule.kinds = elidedKinds → (∀ v, rule.applies v = true) →
      rule.treatment = .elide → Form rule
  | naming : rule.kinds = declaresName → (∀ v, rule.applies v = (declaredName? v).isSome) →
      Emits membersOfDeclaration rule.treatment → Form rule
  | plain : (∀ kind ∈ rule.kinds, kind ∉ passedKinds ∧ kind ∉ elidedKinds ∧ kind ∉ declaresName) →
      Emits children rule.treatment → Form rule

/-- Each rule has a form, wherever it stands among the others. -/
theorem form_of_mem : ∀ rule ∈ rules, Form rule := by
  simp only [rules, List.forall_mem_cons, List.not_mem_nil, false_implies, implies_true, and_true]
  repeat' apply And.intro
  all_goals first
    | exact .passing rfl (fun _ => rfl) rfl
    | exact .eliding rfl (fun _ => rfl) rfl
    | exact .naming rfl (fun _ => rfl) ⟨rfl, rfl⟩
    | exact .plain (by decide) ⟨rfl, rfl⟩

theorem kinds_apart : (∀ kind ∈ passedKinds, kind ∉ elidedKinds ∧ kind ∉ declaresName) ∧
    ∀ kind ∈ elidedKinds, kind ∉ declaresName := by decide

theorem emits_plain : Emits children (.emit plain) := ⟨rfl, rfl⟩

theorem isDeclaredName_of_none {source : String} {s : Site}
    (h : s.head.kind ∈ declaresName → declaredName? (.of source s) = none) {d : Inner s}
    (hd : d ∈ s.inner) : isDeclaredName d.val = false := by
  refine Bool.eq_false_iff.2 fun hname => ?_
  rw [isDeclaredName_of_mem hd, Bool.and_eq_true, Test.holds, Bool.and_eq_true] at hname
  obtain ⟨hdeclares, hfield, hkind⟩ := hname
  have hnone := h (List.contains_iff_mem.1 hdeclares)
  have hkind : d.head.kind = "identifier" := List.mem_singleton.1 (List.contains_iff_mem.1 hkind)
  rw [declaredName?, Site.field?_of_isField hd hfield, Option.filter_some, hkind] at hnone
  simp at hnone

section Outcome

variable (source : String) {s : Site}

theorem outcome_eq : Language.cSharp.outcome source s =
    match Rule.find? rules (.of source s) with
    | some rule => rule.treatment.outcome source s
    | none => (Treatment.emit plain).outcome source s := rfl

theorem exists_find? (h : ∃ rule ∈ rules, s.head.kind ∈ rule.kinds ∧
      rule.applies (.of source s) = true) :
    ∃ rule, Rule.find? rules (.of source s) = some rule ∧ Form rule ∧
      s.head.kind ∈ rule.kinds ∧ rule.applies (.of source s) = true := by
  obtain ⟨rule, hmem, hkind, happlies⟩ := h
  have hfor := Bool.and_eq_true_iff.2 ⟨List.contains_iff_mem.2 hkind, happlies⟩
  have hsome : (Rule.find? rules (.of source s)).isSome = true :=
    List.find?_isSome.2 ⟨rule, hmem, hfor⟩
  obtain ⟨found, hfind⟩ := Option.isSome_iff_exists.1 hsome
  obtain ⟨hmem, hkind⟩ := Rule.mem_of_find? hfind
  exact ⟨found, hfind, form_of_mem found hmem, hkind, Rule.applies_of_find? hfind⟩

theorem outcome_of_passed (h : s.head.kind ∈ passedKinds) :
    Language.cSharp.outcome source s = .passing ((Query.named.pick s).map .node) := by
  have hrule : ∃ rule ∈ rules, rule.kinds = passedKinds ∧ ∀ v, rule.applies v = true := by
    simp [rules, passedKinds]
  obtain ⟨rule, hmem, hkinds, happlies⟩ := hrule
  obtain ⟨found, hfind, hform, hkind, -⟩ :=
    exists_find? source ⟨rule, hmem, hkinds ▸ h, happlies _⟩
  rw [outcome_eq, hfind]
  dsimp only
  cases hform with
  | passing _ _ htreatment =>
    rw [htreatment]
    exact congrArg Outcome.passing (List.flatMap_singleton ..)
  | eliding hkinds => exact absurd (hkinds ▸ hkind) (kinds_apart.1 _ h).1
  | naming hkinds => exact absurd (hkinds ▸ hkind) (kinds_apart.1 _ h).2
  | plain hkinds => exact absurd h (hkinds _ hkind).1

theorem outcome_of_elided (h : s.head.kind ∈ elidedKinds) :
    Language.cSharp.outcome source s = .elided := by
  have hrule : ∃ rule ∈ rules, rule.kinds = elidedKinds ∧ ∀ v, rule.applies v = true := by
    simp [rules, elidedKinds]
  obtain ⟨rule, hmem, hkinds, happlies⟩ := hrule
  obtain ⟨found, hfind, hform, hkind, -⟩ :=
    exists_find? source ⟨rule, hmem, hkinds ▸ h, happlies _⟩
  rw [outcome_eq, hfind]
  dsimp only
  cases hform with
  | passing hkinds => exact absurd h (kinds_apart.1 _ (hkinds ▸ hkind)).1
  | eliding _ _ htreatment =>
    rw [htreatment]
    rfl
  | naming hkinds => exact absurd (hkinds ▸ hkind) (kinds_apart.2 _ h)
  | plain hkinds => exact absurd h (hkinds _ hkind).2.1

/-- Any other node gives a fact, over all that is open inside of it. -/
theorem outcome_of_other (hpassed : s.head.kind ∉ passedKinds)
    (helided : s.head.kind ∉ elidedKinds) :
    ∃ picked : List (Inner s), Enters picked ∧ ∃ kind given,
      Language.cSharp.outcome source s = .fact kind given true (picked.map .node) := by
  rw [outcome_eq]
  by_cases hname : s.head.kind ∈ declaresName ∧ (declaredName? (.of source s)).isSome = true
  · have hrule : ∃ rule ∈ rules, rule.kinds = declaresName ∧
        ∀ v, rule.applies v = (declaredName? v).isSome := by simp [rules]
    obtain ⟨rule, hmem, hkinds, happlies⟩ := hrule
    obtain ⟨found, hfind, hform, hkind, -⟩ := exists_find? source
      ⟨rule, hmem, hkinds ▸ hname.1, (happlies _).trans hname.2⟩
    refine ⟨_, enters_members hname.1, ?_⟩
    rw [hfind]
    cases hform with
    | passing hkinds => exact absurd (hkinds ▸ hkind) hpassed
    | eliding hkinds => exact absurd (hkinds ▸ hkind) helided
    | naming _ _ hemits => exact exists_fact_of_emits hemits source s
    | plain hkinds => exact absurd hname.1 (hkinds _ hkind).2.2
  · have hnone : s.head.kind ∈ declaresName → declaredName? (.of source s) = none := by
      intro hkind
      simpa using not_and.1 hname hkind
    refine ⟨_, enters_children fun d hd => isDeclaredName_of_none hnone hd, ?_⟩
    cases hfind : Rule.find? rules (.of source s) with
    | none => exact exists_fact_of_emits emits_plain source s
    | some rule =>
      obtain ⟨hmem, hkind⟩ := Rule.mem_of_find? hfind
      have happlied := Rule.applies_of_find? hfind
      cases form_of_mem rule hmem with
      | passing hkinds => exact absurd (hkinds ▸ hkind) hpassed
      | eliding hkinds => exact absurd (hkinds ▸ hkind) helided
      | naming hkinds happlies =>
        exact absurd ⟨hkinds ▸ hkind, (happlies _).symm.trans happlied⟩ hname
      | plain _ hemits => exact exists_fact_of_emits hemits source s

end Outcome

/-! ## Forests -/

/-- Each fact is a child of `key`, if `holder` is the nearest around its node that gives a fact, or
else of the fact of the one that is. -/
def HeldBy (holder : Option Descent) (key : String) (pairs : List (Descent × Fact)) : Prop :=
  ∀ p f, (p, f) ∈ pairs → (holder? p.above = holder ∧ f.parentKey = key) ∨
    ∃ q g, (q, g) ∈ pairs ∧ holder? p.above = some q ∧ f.parentKey = g.key

/-- The facts of a forest are those of the nodes that are kept, in order, and they can be ordered
among their siblings. -/
def Covers (c : WalkContext) (holder : Option Descent) (kept : List Descent) (forest : Forest) :
    Prop :=
  ∀ keys parent, ∃ pairs : List (Descent × Fact),
    pairs.map (·.1) = kept ∧ pairs.map (·.2) = forest.facts keys parent ∧
    (∀ p f, (p, f) ∈ pairs → c.own? p.site false = some f.content ∧ f.orderable = true) ∧
    HeldBy holder parent.key pairs

section Covers

variable {c : WalkContext} {holder : Option Descent}

theorem covers_nil : Covers c holder [] .nil :=
  fun _ _ => ⟨[], rfl, rfl, by simp, by simp [HeldBy]⟩

theorem Covers.append {kept kept' : List Descent} {f g : Forest} (h : Covers c holder kept f)
    (h' : Covers c holder kept' g) : Covers c holder (kept ++ kept') (f ++ g) := by
  intro keys parent
  obtain ⟨l, hkept, hfacts, hown, hheld⟩ := h keys parent
  obtain ⟨l', hkept', hfacts', hown', hheld'⟩ := h' (keys.advance f.size) (f.grow keys parent)
  rw [Forest.grow_key] at hheld'
  refine ⟨l ++ l', ?_, ?_, fun p e hmem => ?_, fun p e hmem => ?_⟩
  · rw [List.map_append, hkept, hkept']
  · rw [List.map_append, Forest.facts_append, hfacts, hfacts']
  · rcases List.mem_append.1 hmem with hmem | hmem
    · exact hown p e hmem
    · exact hown' p e hmem
  · rcases List.mem_append.1 hmem with hmem | hmem
    · refine (hheld p e hmem).imp_right ?_
      rintro ⟨q, g, hq, hrest⟩
      exact ⟨q, g, List.mem_append_left _ hq, hrest⟩
    · refine (hheld' p e hmem).imp_right ?_
      rintro ⟨q, g, hq, hrest⟩
      exact ⟨q, g, List.mem_append_right _ hq, hrest⟩

theorem Covers.under {q : Descent} {kept : List Descent} {f : Forest} {content : Content}
    (h : Covers c (some q) kept f) (hq : holder? q.above = holder)
    (hown : c.own? q.site false = some content) (horderable : content.orderable = true) :
    Covers c holder (q :: kept) (.fact content f .nil) := by
  intro keys parent
  obtain ⟨l, hkept, hfacts, hl, hheld⟩ :=
    h (keys.advance 1) { key := keys.key (keys.last + 1) }
  refine ⟨(q, content.toFact (keys.key (keys.last + 1)) parent) :: l, ?_, ?_, fun p e hmem => ?_,
    fun p e hmem => ?_⟩
  · rw [List.map_cons, hkept]
  · rw [List.map_cons, hfacts, Forest.facts, Forest.facts, List.append_nil]
  · rcases List.mem_cons.1 hmem with heq | hmem
    · obtain ⟨rfl, rfl⟩ := Prod.mk.inj heq
      exact ⟨hown, horderable⟩
    · exact hl p e hmem
  · rcases List.mem_cons.1 hmem with heq | hmem
    · obtain ⟨rfl, rfl⟩ := Prod.mk.inj heq
      exact .inl ⟨hq, rfl⟩
    · refine .inr ?_
      rcases hheld p e hmem with ⟨hp, he⟩ | ⟨q', g, hq', hrest⟩
      · exact ⟨q, _, List.mem_cons_self, hp, he⟩
      · exact ⟨q', g, List.mem_cons_of_mem _ hq', hrest⟩

/-- The children that a walk goes on to cover all the children. -/
theorem covers_picked {s : Site} {above : List Site} {picked : List (Inner s)}
    (hpicked : Enters picked)
    (h : ∀ d ∈ picked, d.head.named = true → isDeclaredName d.val = false →
      Covers c holder ((d.val.descents (s :: above)).filter gives) (c.forest d.val false)) :
    Covers c holder ((s.inner.flatMap fun d => d.val.descents (s :: above)).filter gives)
      (.concat (picked.map fun d => c.forest d.val false)) := by
  obtain ⟨p, rfl, hp⟩ := hpicked
  generalize s.inner = l at hp h
  induction l with
  | nil => exact covers_nil
  | cons d l ih =>
    obtain ⟨hd, hl⟩ := List.forall_mem_cons.1 hp
    rw [List.flatMap_cons, List.filter_append]
    cases hpd : p d with
    | true =>
      rw [List.filter_cons_of_pos hpd] at h ⊢
      obtain ⟨hnamed, hname⟩ := hd.1 hpd
      exact (h d List.mem_cons_self hnamed hname).append
        (ih hl fun e he => h e (List.mem_cons_of_mem _ he))
    | false =>
      have hclosed : isOpen d.val = false :=
        Bool.eq_false_iff.2 fun hopen => Bool.false_ne_true (hpd.symm.trans (hd.2 hopen))
      rw [filter_gives_of_not_open hclosed, List.nil_append,
        List.filter_cons_of_neg (by simp [hpd])] at *
      exact ih hl h

theorem branchForest_node (s : Site) (picked : List (Inner s)) :
    (picked.map Branch.node).map (c.branchForest fun d => c.forest d.val) =
      picked.map fun d => c.forest d.val false :=
  List.map_map ..

/-- The forest of a node covers the node and all below it, if the rule for the node around it may
name it. -/
theorem covers_forest (hc : c.language = .cSharp) (s : Site) {above : List Site}
    (habove : above.all isOpen = true) (hnamed : s.head.named = true ∨ s.around = none)
    (hname : isDeclaredName s = false) :
    Covers c (holder? above) ((s.descents above).filter gives) (c.forest s false) := by
  have ih (holder : Option Descent) (hholder : holder? (s :: above) = holder)
      (hopen : isOpen s = true) (d : Inner s) (hd : d.head.named = true)
      (hdname : isDeclaredName d.val = false) :
      Covers c holder ((d.val.descents (s :: above)).filter gives) (c.forest d.val false) := by
    rw [← hholder]
    exact covers_forest hc d.val (by rw [List.all_cons, hopen, habove]; rfl) (.inl hd) hdname
  cases hlive : s.head.live with
  | false =>
    have hclosed : isOpen s = false := by simp [isOpen, hlive]
    rw [filter_gives_of_not_open hclosed, WalkContext.forest, hlive]
    exact covers_nil
  | true =>
    by_cases helided : s.head.kind ∈ elidedKinds
    · have hclosed : isOpen s = false := by simp [isOpen, helided]
      rw [filter_gives_of_not_open hclosed, WalkContext.forest, hlive, hc,
        outcome_of_elided _ helided]
      exact covers_nil
    have hopen : isOpen s = true := by
      rcases hnamed with hnamed | hnamed <;> simp [isOpen, hlive, hnamed, helided, hname]
    by_cases hpassed : s.head.kind ∈ passedKinds
    · have hgives : gives ⟨s, above⟩ = false := by simp [gives, hpassed]
      have hholder : holder? (s :: above) = holder? above := if_neg (by simp [hgives])
      have hdeclares : ∀ kind ∈ passedKinds, kind ∉ declaresName := by decide
      rw [Site.descents, List.filter_cons_of_neg (by simp [hgives]), WalkContext.forest, hlive, hc,
        outcome_of_passed _ hpassed]
      dsimp only [if_true]
      rw [branchForest_node]
      exact covers_picked (enters_named (hdeclares _ hpassed)) fun d _ => ih _ hholder hopen d
    · have hgives : gives ⟨s, above⟩ = true := by simp [gives, hopen, hpassed, habove]
      have hholder : holder? (s :: above) = some ⟨s, above⟩ := if_pos hgives
      obtain ⟨picked, henters, kind, given, ho⟩ := outcome_of_other c.source hpassed helided
      rw [← hc] at ho
      rw [Site.descents, List.filter_cons_of_pos hgives, c.forest_of_fact hlive ho,
        branchForest_node]
      refine Covers.under ?_ rfl ?_ rfl
      · exact covers_picked henters fun d _ => ih _ hholder hopen d
      · rw [WalkContext.own?, hlive, ho]
        rfl
termination_by sizeOf s.node
decreasing_by exact d.property.sizeOf_lt

/-- There is a rule for every node. -/
theorem unhandled_reading (hc : c.language = .cSharp) (s : Site) (grouped : Bool) (depth : Nat) :
    (c.reading s grouped depth).unhandled = [] := by
  have hbranches (picked : List (Inner s)) :
      (c.readBranches s (picked.map .node) depth).unhandled = [] := by
    induction picked with
    | nil => rw [List.map_nil, WalkContext.readBranches]
    | cons d rest ih =>
      have hd := unhandled_reading hc d.val false (depth + 1)
      rw [List.map_cons, WalkContext.readBranches, Reading.followedBy]
      split
      · exact hd
      · rw [hd, ih, List.nil_append]
  rw [WalkContext.reading, hc]
  split
  · rfl
  · split
    · by_cases helided : s.head.kind ∈ elidedKinds
      · rw [outcome_of_elided _ helided]
      by_cases hpassed : s.head.kind ∈ passedKinds
      · rw [outcome_of_passed _ hpassed]
        exact hbranches _
      · obtain ⟨picked, -, kind, given, ho⟩ := outcome_of_other c.source hpassed helided
        rw [ho]
        exact hbranches picked
    · rfl
termination_by sizeOf s.node
decreasing_by exact d.property.sizeOf_lt

end Covers

/-- A walk through a C# tree loses no node. It comes to its end and leaves nothing unhandled. The
facts are those of the nodes that give one by themselves and by the nodes around them, in document
order and with the position among their siblings. Each is a child of the fact of the nearest node
around its own that gives one, or of the given parent if there is none. -/
theorem fact_of_every_node (source filename : String) (root : Node) (parentKey : String)
    (keys : KeyCounter) :
    let c : WalkContext := { language := .cSharp, source, filename }
    let nodes := Site.descents [] { node := root }
    let ended := c.walk .collect root parentKey keys #[]
    nodes.map (·.site.node) = root.preorder ∧ ended.stop = none ∧ ended.unhandled = 0 ∧
    ∃ pairs : List (Descent × Fact),
      pairs.map (·.1) = nodes.filter gives ∧ pairs.map (·.2) = ended.sink.toList ∧
      ∀ p f, (p, f) ∈ pairs →
        c.own? p.site false = some f.content ∧ f.orderable = true ∧
        match holder? p.above with
        | none => f.parentKey = parentKey
        | some q => ∃ g, (q, g) ∈ pairs ∧ f.parentKey = g.key := by
  intro c nodes ended
  obtain ⟨hread, hforest⟩ := WalkContext.reading_unlimited (c := c) rfl { node := root } false 0
  obtain ⟨hlist, hnone⟩ := Sink.deliver_collect
    ((c.reading { node := root } false 0).forest.facts keys { key := parentKey }) #[]
  obtain ⟨hsink, hstop, -, -, hunhandled⟩ := c.walk_of_deliver rfl (Prod.ext rfl hnone)
  obtain ⟨pairs, hkept, hfacts, hown, hheld⟩ :=
    covers_forest (c := c) rfl { node := root } List.all_nil (.inr rfl) rfl keys
      { key := parentKey }
  refine ⟨Site.map_node_descents [] _, ?_, ?_, pairs, hkept, ?_, fun p f hmem => ?_⟩
  · rw [hstop, hread]
    rfl
  · rw [hunhandled, unhandled_reading rfl]
    rfl
  · rw [hfacts, hsink, hlist, hforest]
    rfl
  · obtain ⟨hcontent, horderable⟩ := hown p f hmem
    refine ⟨hcontent, horderable, ?_⟩
    rcases hheld p f hmem with ⟨hp, hf⟩ | ⟨q, g, hmem', hp, hf⟩
    · rw [hp]
      exact hf
    · rw [hp]
      exact ⟨g, hmem', hf⟩

end CSharp

end FactStream
