import FactStream.Proofs.Entries
import FactStream.Proofs.FactForest
import FactStream.Proofs.Trace
import Mathlib.Data.List.Flatten

/-!
# No node is walked twice

`WalkContext.visited` are the sites that a walk comes to if nothing ends it early. No two of them
have the same address (`WalkContext.pairwise_visited`): the sites that the rule for a node names lie
in different places, and a walk that goes into one of them never leaves it for another.

One rule is an exception. For an import by `require` it names an identifier inside a clause, and
then the clause itself; but from the clause a walk only goes on to the child labelled `source`,
which the identifier is not.

Main statement: `WalkContext.walks_once`.
-/

namespace FactStream

/-! ## Trees -/

namespace Node

/-- The clauses that rules find by their kind have no label, nor do the names in the clause of an
`import` by `require`. -/
structure PlainClauses (root : Node) : Prop where
  clauses : ∀ n ∈ root.preorder, n.head.Plain clauseKinds
  names : ∀ n ∈ root.preorder, n.head.kind = "import_require_clause" →
    ∀ child ∈ n.children, child.head.Plain ["identifier"]

/-- The node at an address, which lists the child positions from the node up to the root. -/
def at? (root : Node) : List Nat → Option Node
  | [] => some root
  | i :: above => (root.at? above).bind fun n => n.children[i]?

end Node

namespace Site

theorem Below.plainClauses {d s : Site} (h : d.Below s) (hs : s.node.PlainClauses) :
    d.node.PlainClauses :=
  ⟨fun m hm => hs.clauses m (h.mem_preorder hm), fun m hm => hs.names m (h.mem_preorder hm)⟩

theorem Below.plain {d s : Site} (h : d.Below s) (hs : s.node.PlainClauses) :
    d.head.Plain clauseKinds :=
  (h.plainClauses hs).clauses _ d.node.mem_preorder_self

theorem Below.at?_address {root : Node} {d s : Site} (h : d.Below s)
    (hs : root.at? s.address = some s.node) : root.at? d.address = some d.node := by
  have hchild : ∀ {d s : Site}, d ∈ s.children → root.at? s.address = some s.node →
      root.at? d.address = some d.node := by
    intro d s hd hs
    obtain ⟨⟨n, i⟩, hn, rfl⟩ := List.mem_map.1 hd
    have hget := List.mem_zipIdx_iff_getElem?.1 hn
    show (root.at? s.address).bind _ = some n
    rw [hs]
    exact hget
  induction h with
  | child hd => exact hchild hd hs
  | step he _ ih => exact hchild he (ih hs)

end Site

/-! ## The sites that rules name -/

def Branch.targets {s : Site} : Branch s → List (Inner s)
  | .node d => [d]
  | .group _ members _ => members.filter (·.head.live)

def Treatment.targets (treatment : Treatment) (s : Site) : List (Inner s) :=
  treatment.parts.flatMap fun part => (part.branches s).flatMap Branch.targets

theorem Part.targets_sublist (part : Part) (s : Site) :
    ((part.branches s).flatMap Branch.targets).Sublist (part.query.pick s) := by
  cases part with
  | nodes q =>
    rw [branches, List.flatMap_map]
    simp [Branch.targets, query]
  | group name q kept =>
    rw [branches, List.flatMap_singleton]
    exact List.filter_sublist

theorem Treatment.exists_query_of_mem_targets {treatment : Treatment} {s : Site} {d : Inner s}
    (h : d ∈ treatment.targets s) : ∃ q ∈ treatment.queries, d ∈ q.pick s := by
  obtain ⟨part, hpart, hd⟩ := List.mem_flatMap.1 h
  exact ⟨part.query, List.mem_map_of_mem hpart, (part.targets_sublist s).subset hd⟩

namespace WalkContext

variable {c : WalkContext} {s d : Site}

/-- The sites to which a walk goes on from a site. -/
def targets (c : WalkContext) (s : Site) : List (Inner s) :=
  (c.onward s).flatMap Branch.targets

/-- The rule for the node at `m` names the site `d` below it. -/
def Names (c : WalkContext) (m d : Site) : Prop :=
  ∃ h : d.Below m, ∃ b ∈ (c.language.outcome c.source m).branches, ∃ k, b.Leads ⟨d, h⟩ k

theorem targets_cases (c : WalkContext) (s : Site) :
    c.targets s = [] ∨
      (∃ rule ∈ c.language.rules, s.head.kind ∈ rule.kinds ∧
        c.targets s = rule.treatment.targets s) ∨
      ∃ treatment, c.language.otherwise = some treatment ∧
        c.targets s = treatment.targets s := by
  unfold targets onward
  split
  · have htargets : ∀ treatment : Treatment,
        (treatment.outcome c.source s).branches.flatMap Branch.targets = treatment.targets s := by
      intro treatment
      rw [treatment.branches_outcome, List.flatMap_assoc]
      rfl
    rcases c.language.outcome_cases c.source s with
      ⟨rule, hrule, hkind, hr⟩ | ⟨treatment, ht, hr⟩ | hr
    · exact .inr (.inl ⟨rule, hrule, hkind, by rw [hr, htargets]⟩)
    · exact .inr (.inr ⟨treatment, ht, by rw [hr, htargets]⟩)
    · rw [hr]
      exact .inl rfl
  · exact .inl rfl

/-- The sites that a walk comes to from a site on. -/
def visited (c : WalkContext) (s : Site) : List Site :=
  s :: (c.targets s).flatMap fun d => c.visited d.val
termination_by sizeOf s.node
decreasing_by exact d.property.sizeOf_lt

theorem within_of_mem_visited (c : WalkContext) {s d : Site} (h : d ∈ c.visited s) :
    d.Within s := by
  rw [visited, List.mem_cons, List.mem_flatMap] at h
  rcases h with rfl | ⟨e, -, hd⟩
  · exact .refl _
  · exact (c.within_of_mem_visited hd).trans e.property.within
termination_by sizeOf s.node
decreasing_by exact e.property.sizeOf_lt

/-- From `a` and from `b` a walk comes to no common place. -/
def Disjoint (c : WalkContext) (a b : Site) : Prop :=
  ∀ x ∈ c.visited a, ∀ y ∈ c.visited b, x.address ≠ y.address

theorem disjoint_of_apart {a b : Site} (h : s.Apart a b) : c.Disjoint a b := by
  intro x hx y hy
  exact (h.mono (c.within_of_mem_visited hx) (c.within_of_mem_visited hy)).address_ne

theorem pairwise_targets_of_queries {treatment : Treatment} {R : Inner s → Inner s → Prop}
    (hquery : ∀ a b, s.Before a.val b.val → R a b)
    (h : treatment.queries.Pairwise fun q r => ∀ a ∈ q.pick s, ∀ b ∈ r.pick s, R a b) :
    (treatment.targets s).Pairwise R := by
  refine List.pairwise_flatMap.2 ⟨fun part _ => ?_, (List.pairwise_map.1 h).imp fun hR => ?_⟩
  · exact ((part.query.pairwise_pick s).imp (hquery _ _)).sublist (part.targets_sublist s)
  · intro a ha b hb
    exact hR a ((Part.targets_sublist _ s).subset ha) b ((Part.targets_sublist _ s).subset hb)

/-! ## Imports by `require` -/

section Require

variable (hc : c.language = .typeScript)

include hc

theorem exists_query_of_mem_targets {d : Inner s} (hd : d ∈ c.targets s) :
    ∃ rule ∈ TypeScript.rules, s.head.kind ∈ rule.kinds ∧
      ∃ q ∈ rule.treatment.queries, d ∈ q.pick s := by
  rcases c.targets_cases s with hnil | ⟨rule, hrule, hkind, htargets⟩ | ⟨treatment, ht, -⟩
  · simp [hnil] at hd
  · rw [hc] at hrule
    exact ⟨rule, hrule, hkind, Treatment.exists_query_of_mem_targets (htargets ▸ hd)⟩
  · rw [hc] at ht
    simp [Language.typeScript] at ht

theorem targets_identifier (hkind : s.head.kind = "identifier") : c.targets s = [] := by
  have hrules : ∀ rule ∈ TypeScript.rules, "identifier" ∈ rule.kinds →
      rule.treatment.queries = [] := by decide
  refine List.eq_nil_iff_forall_not_mem.2 fun d hd => ?_
  obtain ⟨rule, hrule, hmem, q, hq, -⟩ := exists_query_of_mem_targets hc hd
  rw [hrules rule hrule (hkind ▸ hmem)] at hq
  simp at hq

theorem mem_field_of_mem_targets (hkind : s.head.kind = "import_require_clause") {d : Inner s}
    (hd : d ∈ c.targets s) : d ∈ (Query.field "source").pick s := by
  have hrules : ∀ rule ∈ TypeScript.rules, "import_require_clause" ∈ rule.kinds →
      rule.treatment.queries = [.field "source"] := by decide
  obtain ⟨rule, hrule, hmem, q, hq, hpick⟩ := exists_query_of_mem_targets hc hd
  rw [hrules rule hrule (hkind ▸ hmem), List.mem_singleton] at hq
  rwa [hq] at hpick

/-- From a clause a walk never comes to the identifiers in it. -/
theorem disjoint_require {a : Site} (hs : s.node.PlainClauses)
    (hkind : s.head.kind = "import_require_clause") (ha : a ∈ s.children)
    (hakind : a.head.kind = "identifier") : c.Disjoint a s := by
  intro x hx y hy
  rw [visited, targets_identifier hc hakind, List.flatMap_nil, List.mem_singleton] at hx
  subst hx
  rw [visited, List.mem_cons, List.mem_flatMap] at hy
  rcases hy with rfl | ⟨d, hd, hy⟩
  · intro heq
    have hlt := (Site.Below.child ha).address_length_lt
    rw [heq] at hlt
    exact Nat.lt_irrefl _ hlt
  · obtain ⟨e, he, -, ⟨t, ht, hte⟩, hdirect⟩ :=
      Query.exists_entry (mem_field_of_mem_targets hc hkind hd)
    have hsource : e.head.label = some "source" := by
      rw [Query.entries, List.mem_singleton] at ht
      exact Test.label_of_holds (t := .isField "source") rfl (ht ▸ hte)
    have hnone : x.head.label = none :=
      hs.names _ s.node.mem_preorder_self hkind _ (Site.node_mem_of_mem_children ha)
        (List.mem_singleton.2 hakind)
    have hne : x ≠ e := by
      rintro rfl
      rw [hnone] at hsource
      simp at hsource
    have hwithin := c.within_of_mem_visited hy
    rw [hdirect rfl] at hwithin
    exact ((Site.apart_of_children_ne ha he hne).mono (.refl x) hwithin).address_ne

theorem disjoint_of_requireQueries (hs : s.node.PlainClauses) :
    requireQueries.Pairwise fun q r => ∀ a ∈ q.pick s, ∀ b ∈ r.pick s,
      c.Disjoint a.val b.val := by
  refine List.pairwise_pair.2 ?_
  intro a ha b hb
  obtain ⟨d, hd, had⟩ := List.mem_flatMap.1 ha
  -- There is one clause only.
  obtain rfl : d = b := Query.eq_of_mem_first hd hb
  obtain ⟨e, he, rfl⟩ := List.mem_map.1 had
  obtain ⟨-, hkind⟩ := Query.mem_childOfKind hd
  obtain ⟨hchild, hekind⟩ := Query.mem_childOfKind he
  exact disjoint_require hc (d.property.plainClauses hs) hkind hchild hekind

end Require

/-! ## Visits -/

theorem pairwise_targets (hc : c.language ∈ Registry.standard.languages)
    (hs : s.node.PlainClauses) :
    (c.targets s).Pairwise fun a b => c.Disjoint a.val b.val := by
  obtain ⟨hrules, hother⟩ := Language.queries_apart hc
  have hapart : ∀ treatment : Treatment,
      treatment.queries.Pairwise (fun q r => q.apart clauseKinds r = true) →
        (treatment.targets s).Pairwise fun a b => c.Disjoint a.val b.val := by
    intro treatment h
    refine pairwise_targets_of_queries (fun a b hab => disjoint_of_apart (.inl hab))
      (h.imp fun hqr a ha b hb => ?_)
    exact disjoint_of_apart (Query.apart_of_pick hqr (fun x hx => hx.plain hs) ha hb)
  rcases c.targets_cases s with hnil | ⟨rule, hrule, -, htargets⟩ | ⟨treatment, ht, htargets⟩
  · rw [hnil]
    exact .nil
  · rw [htargets]
    rcases hrules rule hrule with h | ⟨hlanguage, hqueries⟩
    · exact hapart _ h
    · refine pairwise_targets_of_queries (fun a b hab => disjoint_of_apart (.inl hab)) ?_
      rw [hqueries]
      exact disjoint_of_requireQueries hlanguage hs
  · rw [htargets]
    exact hapart _ (hother treatment ht)

/-- A walk comes to no place twice. -/
theorem pairwise_visited (hc : c.language ∈ Registry.standard.languages) (s : Site)
    (hs : s.node.PlainClauses) : (c.visited s).Pairwise fun a b => a.address ≠ b.address := by
  rw [visited]
  refine List.pairwise_cons.2 ⟨?_, List.pairwise_flatMap.2 ⟨?_, pairwise_targets hc hs⟩⟩
  · intro b hb heq
    obtain ⟨d, -, hb⟩ := List.mem_flatMap.1 hb
    have hlt := d.property.address_length_lt
    have hle := (c.within_of_mem_visited hb).address_suffix.length_le
    rw [heq] at hlt
    omega
  · intro d _
    exact pairwise_visited hc d.val (d.property.plainClauses hs)
termination_by sizeOf s.node
decreasing_by exact d.property.sizeOf_lt

/-! ## Events -/

theorem sites_events (c : WalkContext) (namer : Option Site) (s : Site) (grouped : Bool) :
    (c.events namer s grouped).filterMap Event.site? = c.visited s := by
  have ih (d : Inner s) (grouped : Bool) :
      (c.events (some s) d.val grouped).filterMap Event.site? = c.visited d.val :=
    sites_events c (some s) d.val grouped
  have hown : ((c.own? s grouped).toList.map (.fact (some s))).filterMap Event.site? = [] := by
    cases c.own? s grouped <;> rfl
  have hbranch (b : Branch s) :
      (c.branchEvents (fun d grouped => c.events (some s) d.val grouped) b).filterMap Event.site? =
        b.targets.flatMap fun d => c.visited d.val := by
    cases b with
    | node d => simp [branchEvents, Branch.targets, ih]
    | group name members kept =>
      rw [branchEvents, Branch.targets]
      split
      case isTrue h =>
        have hempty : members.filter (·.head.live) = [] := by
          simpa using (Bool.and_eq_true_iff.1 h).1
        rw [hempty]
        rfl
      case isFalse =>
        rw [List.filterMap_cons_none rfl, List.filterMap_flatMap]
        simp only [ih]
  rw [events, visited, targets]
  show s :: List.filterMap Event.site? (_ ++ _) = _
  rw [List.filterMap_append, hown, List.nil_append, List.filterMap_flatMap, List.flatMap_assoc]
  simp only [hbranch]
termination_by sizeOf s.node
decreasing_by exact d.property.sizeOf_lt

theorem origins_events (c : WalkContext) (namer : Option Site) (s : Site) (grouped : Bool) :
    ((c.events namer s grouped).filterMap Event.origin?).Sublist (c.visited s) := by
  have ih (d : Inner s) (grouped : Bool) :
      ((c.events (some s) d.val grouped).filterMap Event.origin?).Sublist (c.visited d.val) :=
    origins_events c (some s) d.val grouped
  have hown : (((c.own? s grouped).toList.map (.fact (some s))).filterMap Event.origin?).Sublist
      [s] := by
    cases c.own? s grouped with
    | none => exact List.nil_sublist _
    | some content => exact List.Sublist.refl _
  have hbranch (b : Branch s) :
      ((c.branchEvents (fun d grouped => c.events (some s) d.val grouped) b).filterMap
        Event.origin?).Sublist (b.targets.flatMap fun d => c.visited d.val) := by
    cases b with
    | node d => simpa [branchEvents, Branch.targets] using ih d false
    | group name members kept =>
      rw [branchEvents, Branch.targets]
      split
      case isTrue => exact List.nil_sublist _
      case isFalse =>
        rw [List.filterMap_cons_none rfl, List.filterMap_flatMap]
        exact List.Sublist.flatMap_right _ fun d _ => ih d true
  rw [events, visited, targets, List.flatMap_assoc]
  show (List.filterMap Event.origin? (_ ++ _)).Sublist (s :: _)
  rw [List.filterMap_append, List.filterMap_flatMap]
  exact hown.append (List.Sublist.flatMap_right _ fun b _ => hbranch b)
termination_by sizeOf s.node
decreasing_by exact d.property.sizeOf_lt

/-! ## Who names whom -/

section Follows

variable {α β : Type} {known known' : List Site}

/-- What may happen once the sites `known` are visited. The rule for one of them names a further
site, and a fact stands for one of them unless it is a container. -/
def Follows (c : WalkContext) (known : List Site) : Event α → Prop
  | .visit none _ => False
  | .visit (some m) d => m ∈ known ∧ c.Names m d
  | .fact none _ => True
  | .fact (some s) _ => s ∈ known

/-- Each event may happen after those before it. -/
def Grounded (c : WalkContext) (known : List Site) : List (Event α) → Prop
  | [] => True
  | e :: rest => c.Follows known e ∧ c.Grounded (known ++ e.site?.toList) rest

theorem grounded_map (f : α → β) {l : List (Event α)} :
    c.Grounded known (l.map (.map f)) ↔ c.Grounded known l := by
  induction l generalizing known with
  | nil => rfl
  | cons e rest ih =>
    have hfollows : c.Follows known (e.map f) ↔ c.Follows known e := by
      match e with
      | .visit none _ => rfl
      | .visit (some m) d => rfl
      | .fact none _ => rfl
      | .fact (some s) _ => rfl
    rw [List.map_cons, Grounded, Grounded, hfollows, Event.site?_map, ih]

theorem grounded_append {l r : List (Event α)} :
    c.Grounded known (l ++ r) ↔
      c.Grounded known l ∧ c.Grounded (known ++ l.filterMap Event.site?) r := by
  induction l generalizing known with
  | nil => simp [Grounded]
  | cons e rest ih =>
    have hsites : (e :: rest).filterMap Event.site? =
        e.site?.toList ++ rest.filterMap Event.site? := by
      cases e <;> rfl
    rw [List.cons_append, Grounded, Grounded, ih, hsites, List.append_assoc, and_assoc]

theorem Grounded.follows {before after : List (Event α)} {e : Event α}
    (h : c.Grounded known (before ++ e :: after)) :
    c.Follows (known ++ before.filterMap Event.site?) e :=
  (grounded_append.1 h).2.1

theorem grounded_flatMap {γ : Type} {l : List γ} {f : γ → List (Event α)}
    (h : ∀ b ∈ l, ∀ known', known ⊆ known' → c.Grounded known' (f b)) :
    c.Grounded known (l.flatMap f) := by
  induction l generalizing known with
  | nil => trivial
  | cons b rest ih =>
    rw [List.flatMap_cons, grounded_append]
    refine ⟨h b List.mem_cons_self known fun _ => id, ih fun b' hb' known' hsub => ?_⟩
    exact h b' (List.mem_cons_of_mem _ hb') known'
      (List.Subset.trans (List.subset_append_left _ _) hsub)

end Follows

theorem grounded_events (c : WalkContext) (namer : Option Site) (s : Site) (grouped : Bool)
    {known : List Site} (hs : s ∈ known) : c.Grounded known (c.events namer s grouped).tail := by
  have ih (d : Inner s) (grouped : Bool) {known : List Site} (hs : s ∈ known)
      (hd : c.Names s d.val) : c.Grounded known (c.events (some s) d.val grouped) := by
    have htail := grounded_events c (some s) d.val grouped
      (List.mem_append_right known (List.mem_singleton_self d.val))
    rw [events] at htail ⊢
    exact ⟨⟨hs, hd⟩, htail⟩
  rw [events, List.tail_cons, grounded_append]
  refine ⟨?_, grounded_flatMap fun b hb known' hsub => ?_⟩
  · cases c.own? s grouped with
    | none => trivial
    | some content => exact ⟨hs, trivial⟩
  · have hs' : s ∈ known' := hsub (List.mem_append_left _ hs)
    have hb' : b ∈ (c.language.outcome c.source s).branches := by
      unfold onward at hb
      split at hb
      · exact hb
      · simp at hb
    cases b with
    | node d => exact ih d false hs' ⟨d.property, _, hb', 1, .node d⟩
    | group name members kept =>
      rw [branchEvents]
      split
      · trivial
      · refine ⟨trivial, grounded_flatMap fun d hd known'' hsub' => ?_⟩
        obtain ⟨hmem, hlive⟩ := List.mem_filter.1 hd
        exact ih d true (hsub' (List.mem_append_left _ hs'))
          ⟨d.property, _, hb', 2, .member hmem hlive⟩
termination_by sizeOf s.node
decreasing_by exact d.property.sizeOf_lt

/-! ## Walks -/

section Walks

variable (c : WalkContext) {σ : Type} (out : Sink σ) (root : Node) (parentKey : String)
  (keys : KeyCounter) (start : σ)

/-- A walk comes to the sites that are visited in turn, though maybe not to all of them. -/
theorem sites_tracedWalk :
    ((c.tracedWalk out root parentKey keys start).sink.2.filterMap Event.site?).Sublist
      (c.visited { node := root }) := by
  have h := (c.log_tracedWalk out root parentKey keys start).1.sublist.filterMap Event.site?
  rw [sites_events, List.filterMap_map] at h
  simpa [Function.comp_def] using h

theorem origins_tracedWalk :
    ((c.tracedWalk out root parentKey keys start).sink.2.filterMap Event.origin?).Sublist
      (c.visited { node := root }) := by
  have h := (c.log_tracedWalk out root parentKey keys start).1.sublist.filterMap Event.origin?
  rw [List.filterMap_map] at h
  simpa [Function.comp_def] using h.trans (c.origins_events _ _ _)

theorem grounded_tracedWalk {first : Event Fact} {rest : List (Event Fact)}
    (h : (c.tracedWalk out root parentKey keys start).sink.2 = first :: rest) :
    first = .visit none { node := root } ∧ c.Grounded [{ node := root }] rest := by
  have hpre := (c.log_tracedWalk out root parentKey keys start).1
  have htail := c.grounded_events none { node := root } false (List.mem_singleton_self _)
  have hevents : c.events none { node := root } false =
      .visit none { node := root } :: (c.events none { node := root } false).tail := by
    rw [events, List.tail_cons]
  rw [h, hevents, List.map_cons, List.cons_prefix_cons] at hpre
  obtain ⟨hfirst, more, hmore⟩ := hpre
  rw [← hmore, grounded_append, grounded_map] at htail
  exact ⟨Event.eq_visit_of_map hfirst, htail.1⟩

end Walks

/-- No node is walked twice. The traced walk is the walk, with the same facts in its log, and with
everything that there is to happen if it comes to its end. It comes to different places, each of
them in the tree, and no two facts that are not containers stand for the same node. Apart from the
root, each site it comes to lies below one that it came to before, and the rule for that one names
it. -/
theorem walks_once {c : WalkContext} (hc : c.language ∈ Registry.standard.languages) {root : Node}
    (hroot : root.PlainClauses) {σ : Type} (out : Sink σ) (parentKey : String) (keys : KeyCounter)
    (start : σ) :
    let ended := c.tracedWalk out root parentKey keys start
    let log := ended.sink.2
    (ended.mapSink (·.1) = c.walk out root parentKey keys start ∧
      log.filterMap Event.value? = c.emitted out root parentKey keys start ∧
      (ended.stop = none →
        log.map (.map Fact.content) = c.events none { node := root } false)) ∧
    ((log.filterMap Event.site?).map (·.address)).Nodup ∧
    ((log.filterMap Event.origin?).map (·.address)).Nodup ∧
    (∀ s ∈ log.filterMap Event.site?, root.at? s.address = some s.node) ∧
    ∀ before e after, log = before ++ e :: after →
      (before = [] ∧ e = .visit none { node := root }) ∨
        c.Follows (before.filterMap Event.site?) e := by
  intro ended log
  have honce := c.pairwise_visited hc { node := root } hroot
  have hsites := c.sites_tracedWalk out root parentKey keys start
  have horigins := c.origins_tracedWalk out root parentKey keys start
  refine ⟨⟨c.forget_tracedWalk out root parentKey keys start,
    c.facts_tracedWalk out root parentKey keys start,
    (c.log_tracedWalk out root parentKey keys start).2⟩, ?_, ?_, ?_, ?_⟩
  · exact List.pairwise_map.2 (honce.sublist hsites)
  · exact List.pairwise_map.2 (honce.sublist horigins)
  · intro s hs
    rcases c.within_of_mem_visited (hsites.subset hs) with rfl | hbelow
    · rfl
    · exact hbelow.at?_address rfl
  · intro before e after hlog
    cases before with
    | nil => exact .inl ⟨rfl, (c.grounded_tracedWalk out root parentKey keys start hlog).1⟩
    | cons first before =>
      obtain ⟨rfl, hrest⟩ := c.grounded_tracedWalk out root parentKey keys start hlog
      exact .inr hrest.follows

/-- The import `import x = require("m")`. -/
def requireImport : Node :=
  ⟨{ kind := "import_statement", span := { endOffset := 23 } },
   [⟨{ kind := "import", named := false, span := { endOffset := 6 } }, []⟩,
    ⟨{ kind := "import_require_clause", span := { startOffset := 7, endOffset := 23 } },
     [⟨{ kind := "identifier", span := { startOffset := 7, endOffset := 8 } }, []⟩,
      ⟨{ kind := "string", span := { startOffset := 19, endOffset := 22 },
         label := some "source" }, []⟩]⟩]⟩

def requireWalk : WalkContext where
  language := .typeScript
  source := "import x = require(\"m\")"
  filename := "a.ts"

theorem visited_requireImport :
    (requireWalk.visited { node := requireImport }).map (·.address) =
      [[], [0, 1], [1], [1, 1]] := by
  obtain ⟨name, clause, source, hroot, hclause, hname, hsource, haddress⟩ :
      ∃ (name clause : Inner { node := requireImport }) (source : Inner clause.val),
        requireWalk.targets { node := requireImport } = [name, clause] ∧
        requireWalk.targets clause.val = [source] ∧ requireWalk.targets name.val = [] ∧
        requireWalk.targets source.val = [] ∧
        [name.val.address, clause.val.address, source.val.address] = [[0, 1], [1], [1, 1]] :=
    ⟨_, _, _, rfl, rfl, rfl, rfl, rfl⟩
  have hvisited (s : Site) : requireWalk.visited s =
      s :: (requireWalk.targets s).flatMap fun d => requireWalk.visited d.val := by rw [visited]
  rw [hvisited, hroot, List.flatMap_cons, List.flatMap_cons, hvisited name.val, hname,
    hvisited clause.val, hclause, List.flatMap_cons, hvisited source.val, hsource]
  exact congrArg ([] :: ·) haddress

/-- The name in the clause comes first, then the clause, and then its `source`. -/
theorem walks_once_requireImport :
    let log := (requireWalk.tracedWalk .collect requireImport "1_0" ⟨1, 0⟩ #[]).sink.2
    requireWalk.language ∈ Registry.standard.languages ∧ requireImport.PlainClauses ∧
      (log.filterMap Event.site?).map (·.address) = [[], [0, 1], [1], [1, 1]] ∧
      ((log.filterMap Event.site?).map (·.address)).Nodup := by
  intro log
  have hlanguage : requireWalk.language ∈ Registry.standard.languages :=
    Registry.mem_languages.2 (.inr (.inr rfl))
  have hplain : requireImport.PlainClauses := ⟨by decide, by decide⟩
  obtain ⟨⟨hforget, -, hall⟩, honce, -⟩ :=
    walks_once hlanguage hplain .collect "1_0" ⟨1, 0⟩ #[]
  refine ⟨hlanguage, hplain, ?_, honce⟩
  have hstop := (walk_deliver (c := requireWalk) rfl .collect requireImport "1_0" ⟨1, 0⟩ #[]).2.1
  rw [(Sink.deliver_collect _ _).2, ← hforget] at hstop
  have hsites := congrArg (fun l => (l.filterMap Event.site?).map (·.address)) (hall hstop)
  simpa only [sites_events, visited_requireImport, List.filterMap_map, Function.comp_def,
    Event.site?_map] using hsites

end WalkContext

end FactStream
