import FactStream.Proofs.Diagnosis
import FactStream.Proofs.DocumentOrder
import FactStream.Proofs.Stream
import FactStream.Proofs.Views
import Mathlib.Data.List.Forall2

/-!
# Comments and errors say nothing

`Node.cleared` takes the extra nodes out of a tree, and all that is below its error nodes. The walk
through a tree that is regular (`Node.Regular`) does the same as the walk through the cleared tree
(`WalkContext.walk_cleared`): it comes to the same nodes, and rules read the same off them. The root
must not be an update expression that starts with an extra node, and a fact that quotes source text
quotes the comments in it as well (`WalkContext.walk_commented`).

`Site.Cleared s s'` says that `s'` is the place of `s` in the cleared tree. The places that a query
names below them are again in this relation, one by one (`Query.pick_cleared`).
-/

namespace FactStream

/-! ## Lists in step -/

section Lists

variable {α β γ δ : Type} {R : α → β → Prop} {P : γ → δ → Prop} {l : List α} {l' : List β}

theorem forall₂_filter {p : α → Bool} {p' : β → Bool} (hp : ∀ a b, R a b → p' b = p a)
    (h : List.Forall₂ R l l') : List.Forall₂ R (l.filter p) (l'.filter p') :=
  List.rel_filter (fun a b hab => Iff.of_eq (congrArg (· = true) (hp a b hab).symm)) h

theorem forall₂_flatMap {f : α → List γ} {g : β → List δ}
    (hfg : ∀ a b, R a b → List.Forall₂ P (f a) (g b)) (h : List.Forall₂ R l l') :
    List.Forall₂ P (l.flatMap f) (l'.flatMap g) :=
  List.rel_flatMap h fun a b hab => hfg a b hab

theorem isEmpty_of_forall₂ (h : List.Forall₂ R l l') : l'.isEmpty = l.isEmpty := by
  cases h <;> rfl

end Lists

/-! ## Trees -/

namespace Node

mutual

/-- The tree without extra nodes below its root, and with nothing below error nodes. -/
def cleared : Node → Node
  | ⟨head, children⟩ => ⟨head, if head.error then [] else clearedAll children⟩

def clearedAll : List Node → List Node
  | [] => []
  | n :: rest => if n.head.extra then clearedAll rest else n.cleared :: clearedAll rest

end

@[simp] theorem head_cleared (n : Node) : n.cleared.head = n.head := by
  obtain ⟨head, children⟩ := n
  rw [cleared]

theorem children_cleared {n : Node} (h : n.head.error = false) :
    n.cleared.children = clearedAll n.children := by
  obtain ⟨head, children⟩ := n
  replace h : head.error = false := h
  rw [cleared, h]
  rfl

theorem map_head_clearedAll (l : List Node) :
    (clearedAll l).map (·.head) = (l.map (·.head)).filter (!·.extra) := by
  induction l with
  | nil => rfl
  | cons n rest ih =>
    rw [clearedAll, List.map_cons, List.filter_cons]
    cases n.head.extra with
    | true => simpa using ih
    | false => simpa using ih

/-- In an update expression, whose first child tells its form, no extra node comes first. -/
def StartsPlain (n : Node) : Prop :=
  n.head.kind = "update_expression" → ∀ child ∈ n.children.head?, child.head.extra = false

/-- Extra nodes are named and without a label, and error nodes are of kind `ERROR` and without a
label. Only the root may be an update expression that starts with an extra node. -/
structure Regular (root : Node) : Prop where
  extra : ∀ n ∈ root.preorder, n.head.extra = true → n.head.named = true ∧ n.head.label = none
  error : ∀ n ∈ root.preorder, n.head.error = true → n.head.kind = "ERROR" ∧ n.head.label = none
  first : ∀ n ∈ root.preorder, ∀ child ∈ n.children, child.StartsPlain

theorem Regular.child {n c : Node} (h : n.Regular) (hc : c ∈ n.children) : c.Regular :=
  ⟨fun m hm => h.extra m (mem_preorder_of_child hc hm),
    fun m hm => h.error m (mem_preorder_of_child hc hm),
    fun m hm => h.first m (mem_preorder_of_child hc hm)⟩

theorem Regular.below {s d : Site} (h : s.node.Regular) (hd : d.Below s) : d.node.Regular :=
  ⟨fun m hm => h.extra m (hd.mem_preorder hm), fun m hm => h.error m (hd.mem_preorder hm),
    fun m hm => h.first m (hd.mem_preorder hm)⟩

end Node

/-! ## Sites -/

/-- `s'` is the place of `s` in the cleared tree. A node without a label may come first there where
it did not before. -/
structure Site.Cleared (s s' : Site) : Prop where
  regular : s.node.Regular
  plain : s.node.StartsPlain
  node : s'.node = s.node.cleared
  around : s'.around = s.around
  leads : s.head.label.isSome = true → s'.leads = s.leads

namespace Site

/-- The places of nodes that follow others below the same node. -/
def row (around : String) (address : List Nat) (before : List Node) : List Node → List Site
  | [] => []
  | n :: rest =>
    { node := n
      around := some around
      leads := before.all fun older => older.head.label != n.head.label
      address := before.length :: address } :: row around address (before ++ [n]) rest

theorem row_eq (s : Site) (before rest : List Node) (h : s.node.children = before ++ rest) :
    (rest.zipIdx before.length).map (fun (n, i) => s.child i n) =
      row s.head.kind s.address before rest := by
  induction rest generalizing before with
  | nil => rfl
  | cons n rest ih =>
    have hrest := ih (before ++ [n]) (by simpa using h)
    rw [List.length_append, List.length_singleton] at hrest
    rw [List.zipIdx_cons, List.map_cons, row, hrest]
    simp [child, h]

theorem children_eq_row (s : Site) :
    s.children = row s.head.kind s.address [] s.node.children :=
  s.row_eq [] s.node.children rfl

theorem Cleared.head {s s' : Site} (h : s.Cleared s') : s'.head = s.head := by
  rw [Site.head, h.node, Node.head_cleared, Site.head]

/-- Extra nodes have no label, so it does not matter for labelled ones whether they stand before. -/
theorem forall₂_row {around : String} {address address' : List Nat} {rest : List Node}
    (hrest : ∀ n ∈ rest, n.Regular ∧ n.StartsPlain) {before before' : List Node}
    (hbefore : ∀ label : String, (before'.all fun older => older.head.label != some label) =
      before.all fun older => older.head.label != some label) :
    List.Forall₂ Cleared ((row around address before rest).filter (!·.head.extra))
      (row around address' before' (Node.clearedAll rest)) := by
  induction rest generalizing before before' with
  | nil => exact .nil
  | cons n rest ih =>
    obtain ⟨hn, hrest⟩ := List.forall_mem_cons.1 hrest
    rw [row, Node.clearedAll, List.filter_cons]
    cases he : n.head.extra with
    | true =>
      -- The node is on one side only, among those that come before the rest.
      have hlabel := (hn.1.extra n n.mem_preorder_self he).2
      simp only [Site.head, he, Bool.not_true, Bool.false_eq_true, if_false, if_true]
      refine ih hrest fun label => ?_
      rw [List.all_append, ← hbefore]
      simp [hlabel]
    | false =>
      simp only [Site.head, he, Bool.not_false, Bool.false_eq_true, if_false, if_true, row]
      refine .cons ⟨hn.1, hn.2, rfl, rfl, fun hlabel => ?_⟩ (ih hrest fun label => ?_)
      · obtain ⟨label, hlabel⟩ := Option.isSome_iff_exists.1 hlabel
        replace hlabel : n.head.label = some label := hlabel
        rw [Node.head_cleared, hlabel]
        exact hbefore label
      · rw [List.all_append, List.all_append, hbefore]
        simp

theorem Cleared.children {s s' : Site} (h : s.Cleared s') (herror : s.head.error = false) :
    List.Forall₂ Cleared (s.children.filter (!·.head.extra)) s'.children := by
  rw [children_eq_row, children_eq_row, h.head, h.node, Node.children_cleared herror]
  refine forall₂_row (fun n hn => ⟨h.regular.child hn, ?_⟩) fun _ => rfl
  exact h.regular.first _ s.node.mem_preorder_self n hn

end Site

/-- `d'` is the place of `d` in the cleared tree. -/
def Inner.Cleared {s s' : Site} (d : Inner s) (d' : Inner s') : Prop :=
  d.val.Cleared d'.val

theorem Site.Cleared.inner {s s' : Site} (h : s.Cleared s') (herror : s.head.error = false) :
    List.Forall₂ Inner.Cleared (s.inner.filter (!·.head.extra)) s'.inner := by
  have hfilter : (s.inner.filter (!·.head.extra)).map (·.val) =
      s.children.filter (!·.head.extra) := by
    rw [← s.map_val_inner, List.filter_map]
    rfl
  have hchildren := h.children herror
  rw [← hfilter, ← s'.map_val_inner, List.forall₂_map_left_iff,
    List.forall₂_map_right_iff] at hchildren
  exact hchildren

/-! ## Queries -/

theorem Test.holds_cleared (t : Test) {s s' : Site} (h : s.Cleared s') :
    t.holds s' = t.holds s := by
  induction t with
  | kindIn kinds => rw [holds, holds, h.head]
  | labelled label => rw [holds, holds, h.head]
  | isField label =>
    rw [holds, holds, Site.isField, Site.isField, h.head]
    cases hlabel : s.head.label with
    | none => simp
    | some l => rw [h.leads (by rw [hlabel]; rfl)]
  | not t ih => rw [holds, holds, ih]
  | and t u iht ihu => rw [holds, holds, iht, ihu]

theorem Test.holds_error (t : Test) (ht : t.excludesErrors = true) {s : Site}
    (hkind : s.head.kind = "ERROR") (hlabel : s.head.label = none) : t.holds s = false := by
  induction t with
  | kindIn kinds => simpa [holds, excludesErrors, hkind] using ht
  | labelled label => simp [holds, hlabel]
  | isField label => simp [holds, Site.isField, hlabel]
  | not t => simp [excludesErrors] at ht
  | and t u iht ihu =>
    rw [holds, Bool.and_eq_false_iff]
    exact (Bool.or_eq_true_iff.1 ht).imp iht ihu

theorem Site.error_of_kind {s : Site} (h : s.node.Regular) (hkind : s.head.kind ≠ "ERROR") :
    s.head.error = false := by
  rw [← Bool.not_eq_true]
  exact fun herror => hkind (h.error _ s.node.mem_preorder_self herror).1

theorem Inner.error_of_label {s : Site} (h : s.node.Regular) {d : Inner s} {label : String}
    (hlabel : d.head.label = some label) : d.head.error = false := by
  rw [← Bool.not_eq_true]
  intro herror
  have hnone := ((h.below d.property).error _ d.val.node.mem_preorder_self herror).2
  exact Option.some_ne_none label (hlabel.symm.trans hnone)

namespace Query

variable {s s' : Site}

theorem filter_inner_cleared (p : Head → Bool) (h : s.Cleared s') (herror : s.head.error = false)
    (hp : ∀ d : Inner s, d.head.extra = true → p d.head = false) :
    List.Forall₂ Inner.Cleared (s.inner.filter (p ·.head)) (s'.inner.filter (p ·.head)) := by
  have hsolid : s.inner.filter (p ·.head) =
      (s.inner.filter (!·.head.extra)).filter (p ·.head) := by
    rw [List.filter_filter]
    refine List.filter_congr fun d _ => ?_
    cases hextra : d.head.extra with
    | true => simp [hp d hextra]
    | false => simp
  rw [hsolid]
  exact forall₂_filter (fun d d' hd => congrArg p (Site.Cleared.head hd)) (h.inner herror)

theorem namedInner_cleared (h : s.Cleared s') (herror : s.head.error = false) :
    List.Forall₂ Inner.Cleared (namedInner s) (namedInner s') :=
  filter_inner_cleared (fun h => h.named && !h.extra) h herror fun d hextra => by simp [hextra]

theorem forall₂_map_lift {d : Inner s} {d' : Inner s'} {below : List (Inner d.val)}
    {below' : List (Inner d'.val)} (h : List.Forall₂ Inner.Cleared below below') :
    List.Forall₂ Inner.Cleared (below.map d.lift) (below'.map d'.lift) := by
  rw [List.forall₂_map_left_iff, List.forall₂_map_right_iff]
  exact h

theorem error_of_pick (q : Query) (hq : q.avoidsErrors = true) (h : s.node.Regular) :
    ∀ d ∈ q.pick s, d.head.error = false := by
  induction q generalizing s with
  | field label =>
    intro d hd
    have hlabel := List.find?_some (Option.mem_toList.1 hd)
    exact d.error_of_label h (eq_of_beq hlabel)
  | named => simp [avoidsErrors] at hq
  | filter t q ih =>
    intro d hd
    obtain ⟨hd, hholds⟩ := List.mem_filter.1 hd
    rcases Bool.or_eq_true_iff.1 hq with ht | hq
    · rw [← Bool.not_eq_true]
      intro herror
      obtain ⟨hkind, hlabel⟩ :=
        (h.below d.property).error _ d.val.node.mem_preorder_self herror
      rw [t.holds_error ht hkind hlabel] at hholds
      exact Bool.false_ne_true hholds
    · exact ih hq h d hd
  | first q ih => exact fun d hd => ih hq h d (List.mem_of_mem_take hd)
  | within q r _ ih =>
    intro d hd
    obtain ⟨around, -, hd⟩ := List.mem_flatMap.1 hd
    obtain ⟨e, he, rfl⟩ := List.mem_map.1 hd
    exact ih hq (h.below around.property) e he
  | orElse q r ihq ihr =>
    obtain ⟨hq, hr⟩ := Bool.and_eq_true_iff.1 hq
    intro d hd
    rw [pick] at hd
    split at hd
    · exact ihr hr h d hd
    · exact ihq hq h d hd
  | unwrap kinds q => simp [avoidsErrors] at hq
  | strip kind q => simp [avoidsErrors] at hq

/-- The nodes named in a tree and those named in the cleared tree are the same ones. -/
theorem pick_cleared (q : Query) (hq : q.safe = true) (h : s.Cleared s')
    (herror : s.head.error = false) :
    List.Forall₂ Inner.Cleared (q.pick s) (q.pick s') := by
  induction q generalizing s s' with
  | field label =>
    rw [pick, pick, ← List.head?_filter, ← List.head?_filter, ← List.take_one, ← List.take_one]
    refine List.forall₂_take 1
      (filter_inner_cleared (·.label == some label) h herror fun d hextra => ?_)
    have hnone : d.head.label = none :=
      ((h.regular.below d.property).extra _ d.val.node.mem_preorder_self hextra).2
    rw [hnone]
    rfl
  | named => exact namedInner_cleared h herror
  | filter t q ih => exact forall₂_filter (fun d d' hd => t.holds_cleared hd) (ih hq h herror)
  | first q ih => exact List.forall₂_take 1 (ih hq h herror)
  | within q r ihq ihr =>
    obtain ⟨hq, hr⟩ := Bool.and_eq_true_iff.1 hq
    obtain ⟨havoids, hq⟩ := Bool.and_eq_true_iff.1 hq
    -- The rest of the query is put to nodes of `q`, so none of these may have been emptied.
    have hpick := (List.forall₂_and_left _ _).2
      ⟨q.error_of_pick havoids h.regular, ihq hq h herror⟩
    exact forall₂_flatMap (fun d d' hd => forall₂_map_lift (ihr hr hd.2 hd.1)) hpick
  | orElse q r ihq ihr =>
    obtain ⟨hq, hr⟩ := Bool.and_eq_true_iff.1 hq
    rw [pick, pick, isEmpty_of_forall₂ (ihq hq h herror)]
    split
    · exact ihr hr h herror
    · exact ihq hq h herror
  | unwrap kinds q ih =>
    obtain ⟨hkinds, hq⟩ := Bool.and_eq_true_iff.1 hq
    refine forall₂_flatMap (fun d d' hd => ?_) (ih hq h herror)
    have hhead : d'.head = d.head := Site.Cleared.head hd
    rw [hhead]
    split
    case isTrue hkind =>
      have hne : d.head.kind ≠ "ERROR" := by
        intro heq
        rw [heq] at hkind
        rw [hkind] at hkinds
        exact Bool.false_ne_true hkinds
      exact forall₂_map_lift (namedInner_cleared hd (Site.error_of_kind hd.regular hne))
    case isFalse => exact .cons hd .nil
  | strip kind q ih =>
    obtain ⟨hkind, hq⟩ := Bool.and_eq_true_iff.1 hq
    rw [pick, pick, List.forall₂_map_left_iff, List.forall₂_map_right_iff]
    refine (ih hq h herror).imp fun d d' hd => ?_
    have hhead : d'.head = d.head := Site.Cleared.head hd
    rw [hhead]
    split
    case isTrue heq =>
      have hne : d.head.kind ≠ "ERROR" := by
        rw [eq_of_beq heq]
        exact bne_iff_ne.1 hkind
      have hnamed := namedInner_cleared hd (Site.error_of_kind hd.regular hne)
      generalize namedInner d.val = below, namedInner d'.val = below' at hnamed ⊢
      cases hnamed with
      | nil => exact hd
      | cons he _ => exact he
    case isFalse => exact hd

end Query

/-! ## Outcomes -/

section Outcomes

variable {s s' : Site}

theorem filter_filter_extra {heads : List Head} {p : Head → Bool}
    (hp : ∀ x ∈ heads, x.extra = true → p x = false) :
    (heads.filter (!·.extra)).filter p = heads.filter p := by
  rw [List.filter_filter]
  refine List.filter_congr fun x hx => ?_
  cases hextra : x.extra with
  | true => simp [hp x hx hextra]
  | false => simp

/-- In the cleared tree a rule gets to see the same of a node, as far as it may go by it. -/
theorem View.settled_cleared (source : String) (h : s.Cleared s') (herror : s.head.error = false) :
    (View.of source s').settled = (View.of source s).settled := by
  have hheads : s'.node.children.map (·.head) =
      (s.node.children.map (·.head)).filter (!·.extra) := by
    rw [h.node, Node.children_cleared herror, Node.map_head_clearedAll]
  have hextra : ∀ x ∈ s.node.children.map (·.head), x.extra = true →
      x.named = true ∧ x.label = none := by
    intro x hx
    obtain ⟨n, hn, rfl⟩ := List.mem_map.1 hx
    exact (h.regular.child hn).extra n n.mem_preorder_self
  have hfirst : s.head.kind = "update_expression" →
      (s'.node.children.map (·.head)).head? = (s.node.children.map (·.head)).head? := by
    intro hkind
    rw [hheads]
    cases hchildren : s.node.children with
    | nil => rfl
    | cons n rest =>
      have hn := h.plain hkind n (by simp [hchildren])
      simp [hn]
  have hleads : (s'.leads && s.head.label.isSome) = (s.leads && s.head.label.isSome) := by
    cases hlabel : s.head.label.isSome with
    | false => simp
    | true => rw [h.leads hlabel]
  have hopens : (((s'.node.children.map (·.head)).head?.any fun x => !x.named) &&
        s.head.kind == "update_expression") =
      (((s.node.children.map (·.head)).head?.any fun x => !x.named) &&
        s.head.kind == "update_expression") := by
    by_cases hkind : s.head.kind = "update_expression"
    · rw [hfirst hkind]
    · rw [beq_eq_false_iff_ne.2 hkind, Bool.and_false, Bool.and_false]
  unfold View.settled View.of View.kind
  dsimp only
  rw [h.head, h.around, hleads, hopens, hheads, filter_filter_extra, filter_filter_extra,
    filter_filter_extra]
  · exact fun x _ hx => by rw [hx]; rfl
  · exact fun x hx hxe => by rw [(hextra x hx hxe).2]; rfl
  · exact fun x hx hxe => by rw [(hextra x hx hxe).1]; rfl

/-- Along `b'` a walk comes to the places in the cleared tree of those it comes to along `b`. -/
inductive Branch.Cleared : Branch s → Branch s' → Prop
  | node {d : Inner s} {d' : Inner s'} : d.Cleared d' → Cleared (.node d) (.node d')
  | group {name : String} {found : List (Inner s)} {found' : List (Inner s')} {kept : Bool} :
      List.Forall₂ Inner.Cleared found found' →
        Cleared (.group name found kept) (.group name found' kept)

inductive Outcome.Cleared : Outcome s → Outcome s' → Prop
  | elided : Cleared .elided .elided
  | unhandled : Cleared .unhandled .unhandled
  | passing {todo : List (Branch s)} {todo' : List (Branch s')} :
      List.Forall₂ Branch.Cleared todo todo' → Cleared (.passing todo) (.passing todo')
  | fact {kind : Option String} {properties : List (String × Value)} {positional : Bool}
      {todo : List (Branch s)} {todo' : List (Branch s')} :
      List.Forall₂ Branch.Cleared todo todo' →
        Cleared (.fact kind properties positional todo) (.fact kind properties positional todo')

theorem forall₂_branches_cleared {parts : List Part}
    (hparts : ∀ part ∈ parts, part.query.safe = true) (h : s.Cleared s')
    (herror : s.head.error = false) :
    List.Forall₂ Branch.Cleared (parts.flatMap (Part.branches s))
      (parts.flatMap (Part.branches s')) := by
  refine forall₂_flatMap (R := fun part part' => part ∈ parts ∧ part = part') ?_ ?_
  · rintro part _ ⟨hmem, rfl⟩
    have hpick := part.query.pick_cleared (hparts part hmem) h herror
    cases part with
    | nodes q =>
      rw [Part.branches, Part.branches, List.forall₂_map_left_iff, List.forall₂_map_right_iff]
      exact hpick.imp fun _ _ => .node
    | group name q kept => exact .cons (.group hpick) .nil
  · exact (List.forall₂_and_left _ _).2 ⟨fun _ => id, List.forall₂_refl _⟩

theorem Treatment.outcome_cleared {source : String} {treatment : Treatment}
    (hreads : treatment.reads (.of source s') = treatment.reads (.of source s))
    (hparts : ∀ part ∈ treatment.parts, part.query.safe = true) (h : s.Cleared s')
    (herror : s.head.error = false) :
    (treatment.outcome source s).Cleared (treatment.outcome source s') := by
  cases treatment with
  | elide => exact .elided
  | pass parts => exact .passing (forall₂_branches_cleared hparts h herror)
  | emit e =>
    obtain ⟨hkind, hproperties⟩ := Prod.mk.inj hreads
    rw [outcome, outcome, hkind, hproperties]
    exact .fact (forall₂_branches_cleared hparts h herror)

theorem Language.outcome_cleared {language : Language} (hlanguage : language.Settled)
    (source : String) (h : s.Cleared s') (herror : s.head.error = false) :
    (language.outcome source s).Cleared (language.outcome source s') := by
  have hview := View.settled_cleared source h herror
  have hfind : Rule.find? language.rules (.of source s') =
      Rule.find? language.rules (.of source s) := by
    rw [← Rule.find?_settled hlanguage.rules, hview, Rule.find?_settled hlanguage.rules]
  unfold outcome
  rw [hfind]
  cases hrule : Rule.find? language.rules (.of source s) with
  | some rule =>
    obtain ⟨hmem, hkind⟩ := Rule.mem_of_find? hrule
    have hkind' : (View.of source s').kind ∈ rule.kinds := by
      rw [← View.kind_settled, hview]
      exact hkind
    refine Treatment.outcome_cleared ?_ (hlanguage.safe rule hmem) h herror
    rw [← (hlanguage.rules rule hmem _ hkind).2, ← hview, (hlanguage.rules rule hmem _ hkind').2]
  | none =>
    cases hother : language.otherwise with
    | none => exact .unhandled
    | some treatment =>
      refine Treatment.outcome_cleared ?_ (hlanguage.otherwiseSafe treatment hother) h herror
      rw [← hlanguage.otherwise treatment hother (.of source s), ← hview,
        hlanguage.otherwise treatment hother]

end Outcomes

/-! ## The walk -/

namespace WalkContext

variable {σ : Type} {c : WalkContext} {out : Sink σ}

theorem groupSpan_eq {s : Site} (found : List (Inner s)) :
    groupSpan found =
      match (found.map (·.head)).head?, (found.map (·.head)).getLast? with
      | some first, some last => first.span.cover last.span
      | _, _ => s.head.span := by
  rw [groupSpan, List.head?_map, List.getLast?_map]
  cases found.head? <;> cases found.getLast? <;> rfl

theorem groupSpan_cleared {s s' : Site} (h : s.Cleared s') {found : List (Inner s)}
    {found' : List (Inner s')} (hfound : List.Forall₂ Inner.Cleared found found') :
    groupSpan found' = groupSpan found := by
  have hheads : found'.map (·.head) = found.map (·.head) := by
    induction hfound with
    | nil => rfl
    | cons hd _ ih => exact congrArg₂ List.cons (Site.Cleared.head hd) ih
  rw [groupSpan_eq, groupSpan_eq, hheads, h.head]

theorem filter_live_cleared {s s' : Site} {found : List (Inner s)} {found' : List (Inner s')}
    (hfound : List.Forall₂ Inner.Cleared found found') :
    List.Forall₂ Inner.Cleared (found.filter (·.head.live)) (found'.filter (·.head.live)) :=
  forall₂_filter (fun _ _ hd => congrArg Head.live (Site.Cleared.head hd)) hfound

mutual

theorem node_cleared (hlanguage : c.language.Settled) {s s' : Site} (h : s.Cleared s')
    (parent : Frame) (grouped : Bool) (depth : Nat) :
    c.node out s' parent grouped depth = c.node out s parent grouped depth := by
  unfold node
  rw [h.head]
  cases hdepth : c.maxDepth.filter (· < depth) with
  | some limit => rfl
  | none =>
    dsimp only
    by_cases hlive : s.head.missing || s.head.extra
    · rw [if_pos hlive, if_pos hlive]
    · rw [if_neg hlive, if_neg hlive]
      cases herror : s.head.error with
      -- An error node is told of by its position, and no rule is asked about it.
      | true => rfl
      | false =>
        rw [if_neg Bool.false_ne_true, if_neg Bool.false_ne_true]
        have houtcome := c.language.outcome_cleared hlanguage c.source h herror
        generalize c.language.outcome c.source s = o,
          c.language.outcome c.source s' = o' at houtcome
        cases houtcome with
        | elided => rfl
        | unhandled => rfl
        | passing htodo => exact branches_cleared hlanguage h htodo parent depth
        | fact htodo =>
          dsimp only
          congr 1
          funext ⟨key, parent⟩
          dsimp only
          rw [branches_cleared hlanguage h htodo { key } depth]
termination_by (sizeOf s.node, 2, 0)

theorem branches_cleared (hlanguage : c.language.Settled) {s s' : Site} (h : s.Cleared s')
    {todo : List (Branch s)} {todo' : List (Branch s')}
    (htodo : List.Forall₂ Branch.Cleared todo todo') (parent : Frame) (depth : Nat) :
    c.branches out s' todo' parent depth = c.branches out s todo parent depth := by
  match htodo with
  | .nil =>
    unfold branches
    rfl
  | .cons (.node (d := d) hd) hrest =>
    unfold branches
    rw [node_cleared hlanguage hd parent false (depth + 1)]
    congr 1
    funext parent
    exact branches_cleared hlanguage h hrest parent depth
  | .cons (.group hfound) hrest =>
    have hlive := filter_live_cleared hfound
    unfold branches
    dsimp only
    rw [isEmpty_of_forall₂ hlive, groupSpan_cleared h hlive]
    split
    · exact branches_cleared hlanguage h hrest parent depth
    · congr 1
      funext ⟨key, parent⟩
      dsimp only
      rw [members_cleared hlanguage h hlive { key } depth,
        branches_cleared hlanguage h hrest parent depth]
termination_by (sizeOf s.node, 1, todo.length)
decreasing_by
  · exact .left _ _ d.property.sizeOf_lt
  · exact .right _ (.right _ (Nat.lt_succ_self _))
  · exact .right _ (.left _ _ Nat.zero_lt_one)
  · exact .right _ (.right _ (Nat.lt_succ_self _))
  · exact .right _ (.right _ (Nat.lt_succ_self _))

theorem members_cleared (hlanguage : c.language.Settled) {s s' : Site} (h : s.Cleared s')
    {todo : List (Inner s)} {todo' : List (Inner s')}
    (htodo : List.Forall₂ Inner.Cleared todo todo') (parent : Frame) (depth : Nat) :
    c.members out s' todo' parent depth = c.members out s todo parent depth := by
  match htodo with
  | .nil =>
    unfold members
    rfl
  | .cons (a := d) hd hrest =>
    unfold members
    rw [node_cleared hlanguage hd parent true (depth + 2)]
    congr 1
    funext parent
    exact members_cleared hlanguage h hrest parent depth
termination_by (sizeOf s.node, 0, todo.length)
decreasing_by
  · exact .left _ _ d.property.sizeOf_lt
  · exact .right _ (.right _ (Nat.lt_succ_self _))

end

/-- Comments and what is inside of error nodes make no difference to a walk: neither to the facts it
emits, nor to what it counts and how it ends, nor to the keys and notices it leaves behind. -/
theorem walk_cleared (c : WalkContext) (hlang : c.language ∈ Registry.standard.languages)
    (out : Sink σ) {root : Node} (hroot : root.Regular) (hplain : root.StartsPlain)
    (parentKey : String) (keys : KeyCounter) (start : σ) :
    c.emitted out root.cleared parentKey keys start = c.emitted out root parentKey keys start ∧
      c.walk out root.cleared parentKey keys start = c.walk out root parentKey keys start := by
  have hwalk : ∀ {τ : Type} (out : Sink τ) (start : τ),
      c.walk out root.cleared parentKey keys start = c.walk out root parentKey keys start := by
    intro τ out start
    have hsite : Site.Cleared { node := root } { node := root.cleared } :=
      ⟨hroot, hplain, rfl, rfl, fun _ => rfl⟩
    unfold walk
    rw [node_cleared (Language.settled hlang) hsite]
  refine ⟨?_, hwalk out start⟩
  unfold emitted
  rw [hwalk]

/-- The tree of `/**/x/**/++;@y`, where `@y` makes no sense. -/
def annotated : Node :=
  ⟨{ kind := "program", hasError := true }, [
    ⟨{ kind := "comment", extra := true, span := { endOffset := 4 } }, []⟩,
    ⟨{ kind := "expression_statement", span := { startOffset := 4, endOffset := 12 } }, [
      ⟨{ kind := "update_expression", span := { startOffset := 4, endOffset := 11 } }, [
        ⟨{ kind := "identifier", span := { startOffset := 4, endOffset := 5 },
           label := some "argument" }, []⟩,
        ⟨{ kind := "comment", extra := true, span := { startOffset := 5, endOffset := 9 } }, []⟩,
        ⟨{ kind := "++", named := false, span := { startOffset := 9, endOffset := 11 },
           label := some "operator" }, []⟩]⟩,
      ⟨{ kind := ";", named := false, span := { startOffset := 11, endOffset := 12 } }, []⟩]⟩,
    ⟨{ kind := "ERROR", error := true, hasError := true,
       span := { startOffset := 12, endOffset := 14 } }, [
      ⟨{ kind := "identifier", span := { startOffset := 13, endOffset := 14 } }, []⟩]⟩]⟩

theorem walk_cleared_annotated :
    let c : WalkContext := { language := .typeScript, source := "/**/x/**/++;@y", filename := "a" }
    let out : Sink Unit := ⟨fun s _ => (s, none)⟩
    c.language ∈ Registry.standard.languages ∧ annotated.Regular ∧ annotated.StartsPlain ∧
      annotated.preorder.length = 10 ∧ annotated.cleared.preorder.length = 7 ∧
      c.emitted out annotated.cleared "0" ⟨1, 0⟩ () = c.emitted out annotated "0" ⟨1, 0⟩ () := by
  intro c out
  have hlang : c.language ∈ Registry.standard.languages := by
    simp [c, Registry.standard, Registry.ofLanguages]
  have hregular : annotated.Regular := by
    constructor <;> simp [annotated, Node.preorder, Node.preorder.all, Node.StartsPlain]
  have hplain : annotated.StartsPlain := by simp [annotated, Node.StartsPlain]
  exact ⟨hlang, hregular, hplain, rfl, rfl,
    (c.walk_cleared hlang out hregular hplain "0" ⟨1, 0⟩ ()).1⟩

/-- If the rule for the root gives a fact, it is the first one of the walk. -/
theorem exists_first (hout : ∀ s f, (out.accept s f).2 = none) (hdepth : c.maxDepth = none)
    (root : Node) (hlive : root.head.live = true) {properties : List (String × Value)}
    (houtcome : ∃ kind positional todo, c.language.outcome c.source { node := root } =
      .fact kind properties positional todo)
    (parentKey : String) (keys : KeyCounter) (start : σ) :
    ∃ f, (c.emitted out root parentKey keys start).head? = some f ∧
      ∀ name v, properties.reverse.lookup name = some v →
        f.properties.get? name = some (c.language.naming.property v) := by
  obtain ⟨kind, positional, todo, houtcome⟩ := houtcome
  have hread := reading_of_fact hdepth (s := { node := root }) hlive houtcome false 0
  rw [c.emitted_eq, out.taken_of_deliver (Prod.ext rfl (out.deliver_of_accepting hout _ _)), hread]
  refine ⟨_, rfl, fun name v hv => ?_⟩
  have hget := c.get?_content (kind.getD (c.language.rename root.head.kind)) root.head.span
    properties (positional || false) name
  rw [hv] at hget
  exact hget

/-- The expression `/**/++x`, with the comment inside. -/
def commentedUpdate : Node :=
  ⟨{ kind := "update_expression", span := { endOffset := 7 } }, [
    ⟨{ kind := "comment", extra := true, span := { endOffset := 4 } }, []⟩,
    ⟨{ kind := "++", named := false, span := { startOffset := 4, endOffset := 6 },
       label := some "operator" }, []⟩,
    ⟨{ kind := "identifier", span := { startOffset := 6, endOffset := 7 },
       label := some "argument" }, []⟩]⟩

/-- The expression `new/*.*/.target`. -/
def commentedTarget : Node :=
  ⟨{ kind := "meta_property", span := { endOffset := 15 } }, [
    ⟨{ kind := "new", named := false, span := { endOffset := 3 } }, []⟩,
    ⟨{ kind := "comment", extra := true, span := { startOffset := 3, endOffset := 8 } }, []⟩,
    ⟨{ kind := ".", named := false, span := { startOffset := 8, endOffset := 9 } }, []⟩,
    ⟨{ kind := "target", named := false, span := { startOffset := 9, endOffset := 15 } }, []⟩]⟩

/-- A comment shows at the start of a root that is an update expression, and it shows where a fact
quotes the text around it. -/
theorem walk_commented :
    let out : Sink Unit := ⟨fun s _ => (s, none)⟩
    let update : WalkContext := { language := .typeScript, source := "/**/++x", filename := "a" }
    let target : WalkContext :=
      { language := .typeScript, source := "new/*.*/.target", filename := "a" }
    commentedUpdate.Regular ∧
      (∀ n ∈ commentedUpdate.preorder, ∀ m ∈ n.children, ∀ child ∈ m.children.head?,
        child.head.extra = false) ∧
      update.emitted out commentedUpdate.cleared "0" ⟨1, 0⟩ () ≠
        update.emitted out commentedUpdate "0" ⟨1, 0⟩ () ∧
      commentedTarget.Regular ∧ commentedTarget.StartsPlain ∧
      ∃ f ∈ target.emitted out commentedTarget "0" ⟨1, 0⟩ (),
        f.properties.get? "meta" = some ⟨"string", "new/*"⟩ ∧
        f.properties.get? "property" = some ⟨"string", "*/.target"⟩ := by
  intro out update target
  have hout : ∀ s f, (out.accept s f).2 = none := fun _ _ => rfl
  refine ⟨?_, ?_, ?_, ?_, ?_, ?_⟩
  · constructor <;> simp [commentedUpdate, Node.preorder, Node.preorder.all, Node.StartsPlain]
  · simp [commentedUpdate, Node.preorder, Node.preorder.all]
  · -- The first child is the comment in one tree and the operator in the other.
    obtain ⟨f, hf, hproperties⟩ :=
      exists_first (c := update) hout rfl commentedUpdate rfl ⟨_, _, _, rfl⟩ "0" ⟨1, 0⟩ ()
    obtain ⟨g, hg, hcleared⟩ :=
      exists_first (c := update) hout rfl commentedUpdate.cleared rfl ⟨_, _, _, rfl⟩ "0" ⟨1, 0⟩ ()
    intro heq
    rw [heq, hf] at hg
    obtain rfl := Option.some.inj hg
    have hform := (hproperties "prefix" (.bool false) rfl).symm.trans
      (hcleared "prefix" (.bool true) rfl)
    exact absurd hform (by decide)
  · constructor <;> simp [commentedTarget, Node.preorder, Node.preorder.all, Node.StartsPlain]
  · simp [commentedTarget, Node.StartsPlain]
  · have hparts : TypeScript.metaParts
        (View.of target.source { node := commentedTarget }).text.toList =
          ("new/*", "*/.target") := by decide
    obtain ⟨kind, positional, todo, houtcome⟩ : ∃ kind positional todo,
        target.language.outcome target.source { node := commentedTarget } =
          .fact kind [("meta", .text (TypeScript.metaParts
              (View.of target.source { node := commentedTarget }).text.toList).1),
            ("property", .text (TypeScript.metaParts
              (View.of target.source { node := commentedTarget }).text.toList).2)]
            positional todo := ⟨_, _, _, rfl⟩
    rw [hparts] at houtcome
    obtain ⟨f, hf, hproperties⟩ :=
      exists_first hout rfl commentedTarget rfl ⟨kind, positional, todo, houtcome⟩ "0" ⟨1, 0⟩ ()
    exact ⟨f, List.mem_of_head? hf, hproperties "meta" _ rfl, hproperties "property" _ rfl⟩

end WalkContext

end FactStream
