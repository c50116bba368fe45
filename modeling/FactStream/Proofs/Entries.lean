import FactStream.Proofs.DocumentOrder
import FactStream.Proofs.Views
import Mathlib.Data.List.Pairwise

/-!
# The children that queries go through

Whatever a query names lies within a child of the site asked, and the query puts conditions on that
child (`Query.exists_entry`). Two queries whose conditions no child can meet at once name sites in
different children, or in different places of one that both go through (`Query.apart_of_pick`). For
this some kinds of nodes must not carry a label.

The parts of a rule always look in different places like this, with one exception
(`Language.queries_apart`).
-/

namespace FactStream

deriving instance DecidableEq for Test
deriving instance DecidableEq for Query

namespace Site

/-- One of two sites stands before the other. -/
def Apart (s a b : Site) : Prop := s.Before a b ∨ s.Before b a

theorem Apart.mono {s a b a' b' : Site} (h : s.Apart a b) (ha : a'.Within a) (hb : b'.Within b) :
    s.Apart a' b' :=
  h.imp (fun h => h.mono ha hb) fun h => h.mono hb ha

theorem Apart.of_within {d s a b : Site} (h : d.Apart a b) (hd : d.Within s) : s.Apart a b :=
  h.imp (fun h => h.of_within hd) fun h => h.of_within hd

theorem Apart.address_ne {s a b : Site} (h : s.Apart a b) : a.address ≠ b.address := by
  rcases h with h | h
  · exact h.address_ne
  · exact h.address_ne.symm

theorem apart_of_ne {s : Site} {l : List (Inner s)} (hl : InOrderBelow l) {a b : Inner s}
    (ha : a ∈ l) (hb : b ∈ l) (hne : a ≠ b) : s.Apart a.val b.val := by
  have _ : Std.Symm fun a b : Inner s => s.Apart a.val b.val := ⟨fun _ _ h => h.symm⟩
  have hapart : l.Pairwise fun a b => s.Apart a.val b.val := hl.imp Or.inl
  exact hapart.forall ha hb hne

theorem apart_of_children_ne {s x y : Site} (hx : x ∈ s.children) (hy : y ∈ s.children)
    (hne : x ≠ y) : s.Apart x y := by
  rw [← s.map_val_inner] at hx hy
  obtain ⟨a, ha, rfl⟩ := List.mem_map.1 hx
  obtain ⟨b, hb, rfl⟩ := List.mem_map.1 hy
  exact apart_of_ne (.inner s) ha hb fun h => hne (congrArg _ h)

theorem isField_of_find? {s : Site} {label : String} {d : Inner s}
    (h : s.inner.find? (fun d => d.head.label == some label) = some d) :
    d.val.isField label = true := by
  obtain ⟨hlabel, before, after, hinner, hbefore⟩ := List.find?_eq_some_iff_append.1 h
  have hchildren : s.children = before.map (·.val) ++ d.val :: after.map (·.val) := by
    rw [← s.map_val_inner, hinner, List.map_append, List.map_cons]
  have hnodes : s.node.children.take before.length = before.map (·.val.node) := by
    rw [← s.map_node_children, hchildren, List.map_append, List.map_map,
      List.take_left' (List.length_map _)]
    rfl
  have hd : d.val = s.child before.length d.val.node := by
    have hget : s.children[before.length]? = some d.val := by
      rw [hchildren, List.getElem?_append_right (by simp)]
      simp
    rw [children, List.getElem?_map] at hget
    obtain ⟨⟨n, i⟩, hn, hchild⟩ := Option.map_eq_some_iff.1 hget
    rw [List.getElem?_zipIdx] at hn
    obtain ⟨m, -, hm⟩ := Option.map_eq_some_iff.1 hn
    obtain ⟨rfl, rfl⟩ := Prod.mk.inj hm
    rw [← hchild]
    simp [child]
  have hleads : d.val.leads = true := by
    rw [hd]
    simp only [child, hnodes, List.all_map, List.all_eq_true]
    intro e he
    have hd' : d.val.node.head.label = some label := beq_iff_eq.1 hlabel
    simpa [hd', Inner.head, Site.head] using hbefore e he
  rw [isField, hleads, Bool.true_and]
  exact hlabel

end Site

/-! ## Conditions that exclude each other -/

/-- Nodes of the given kinds have no label. -/
def Head.Plain (kinds : List String) (head : Head) : Prop :=
  head.kind ∈ kinds → head.label = none

instance (kinds : List String) (head : Head) : Decidable (head.Plain kinds) :=
  inferInstanceAs (Decidable (head.kind ∈ kinds → head.label = none))

namespace Test

/-- The conditions that a test puts together. -/
def atoms : Test → List Test
  | and t u => t.atoms ++ u.atoms
  | t => [t]

/-- The label of the nodes that meet a condition. -/
def label? : Test → Option String
  | labelled label | isField label => some label
  | _ => none

/-- No node meets both conditions, as long as nodes of the kinds `plain` have no label. -/
def clashes (plain : List String) : Test → Test → Bool
  | not (kindIn kinds), kindIn kinds' => kinds'.all kinds.contains
  | not (isField label), isField label' => label == label'
  | kindIn kinds, u => u.label?.isSome && kinds.all plain.contains
  | t, u =>
    match t.label?, u.label? with
    | some label, some label' => label != label'
    | _, _ => false

/-- No node meets both tests. -/
def excludes (plain : List String) (t u : Test) : Bool :=
  t.atoms.any fun a => u.atoms.any fun b => a.clashes plain b || b.clashes plain a

variable {plain : List String} {s : Site}

theorem holds_of_mem_atoms {t u : Test} (h : u ∈ t.atoms) (ht : t.holds s = true) :
    u.holds s = true := by
  induction t with
  | and t t' iht iht' =>
    rw [holds, Bool.and_eq_true] at ht
    rcases List.mem_append.1 h with h | h
    · exact iht h ht.1
    · exact iht' h ht.2
  | _ =>
    rw [List.mem_singleton.1 h]
    exact ht

theorem label_of_holds {t : Test} {label : String} (h : t.label? = some label)
    (ht : t.holds s = true) : s.head.label = some label := by
  cases t with
  | labelled l =>
    obtain rfl := Option.some.inj h
    simpa [holds] using ht
  | isField l =>
    obtain rfl := Option.some.inj h
    simp only [holds, Site.isField, Bool.and_eq_true] at ht
    simpa using ht.2
  | _ => simp [label?] at h

theorem not_holds_of_clashes {t u : Test} (h : t.clashes plain u = true) (hs : s.head.Plain plain)
    (ht : t.holds s = true) : u.holds s = false := by
  rw [Bool.eq_false_iff]
  intro hu
  unfold clashes at h
  split at h
  · have hkind := List.all_eq_true.1 h _ (List.contains_iff_mem.1 hu)
    rw [holds, holds, hkind] at ht
    simp at ht
  · simp only [beq_iff_eq] at h
    subst h
    rw [holds, hu] at ht
    simp at ht
  · obtain ⟨hlabel, hkinds⟩ := Bool.and_eq_true_iff.1 h
    obtain ⟨label, hlabel⟩ := Option.isSome_iff_exists.1 hlabel
    have hkind := List.all_eq_true.1 hkinds _ (List.contains_iff_mem.1 ht)
    have hnone := hs (List.contains_iff_mem.1 hkind)
    rw [label_of_holds hlabel hu] at hnone
    simp at hnone
  · split at h
    case h_1 label label' hlabel hlabel' =>
      have heq := (label_of_holds hlabel ht).symm.trans (label_of_holds hlabel' hu)
      rw [Option.some.inj heq] at h
      simp at h
    case h_2 => simp at h

theorem not_holds_of_excludes {t u : Test} (h : t.excludes plain u = true)
    (hs : s.head.Plain plain) (ht : t.holds s = true) : u.holds s = false := by
  obtain ⟨a, ha, h⟩ := List.any_eq_true.1 h
  obtain ⟨b, hb, h⟩ := List.any_eq_true.1 h
  rw [Bool.eq_false_iff]
  intro hu
  have hat := holds_of_mem_atoms ha ht
  have hbu := holds_of_mem_atoms hb hu
  rcases Bool.or_eq_true_iff.1 h with h | h
  · simp [not_holds_of_clashes h hs hat] at hbu
  · simp [not_holds_of_clashes h hs hbu] at hat

end Test

/-! ## Entries -/

namespace Query

/-- The query names children of the site only. -/
def direct : Query → Bool
  | field _ | named => true
  | filter _ q | first q => q.direct
  | orElse q r => q.direct && r.direct
  | within _ _ | unwrap _ _ | strip _ _ => false

/-- The conditions on the child through which a query goes. One of them is met. -/
def entries : Query → List Test
  | field label => [.isField label]
  | named => [.not (.kindIn [])]
  | filter t q => if q.direct then q.entries.map (.and t) else q.entries
  | first q | within q _ | unwrap _ q | strip _ q => q.entries
  | orElse q r => q.entries ++ r.entries

/-- What a query names lies within a child that meets one of its conditions, and is that child if
the query names children only. -/
theorem exists_entry {q : Query} {s : Site} {e : Inner s} (h : e ∈ q.pick s) :
    ∃ x ∈ s.children, e.val.Within x ∧ (∃ t ∈ q.entries, t.holds x = true) ∧
      (q.direct = true → e.val = x) := by
  induction q generalizing s with
  | field label =>
    have hfind := Option.mem_toList.1 h
    exact ⟨e.val, Site.mem_children_of_mem_inner (List.mem_of_find?_eq_some hfind), .refl _,
      ⟨_, List.mem_cons_self, Site.isField_of_find? hfind⟩, fun _ => rfl⟩
  | named =>
    exact ⟨e.val, Site.mem_children_of_mem_inner (List.mem_filter.1 h).1, .refl _,
      ⟨_, List.mem_cons_self, rfl⟩, fun _ => rfl⟩
  | filter t q ih =>
    obtain ⟨hq, ht⟩ := List.mem_filter.1 h
    obtain ⟨x, hx, hwithin, ⟨u, hu, hux⟩, hdirect⟩ := ih hq
    refine ⟨x, hx, hwithin, ?_, hdirect⟩
    rw [entries]
    split
    case isTrue hd =>
      rw [hdirect hd] at ht
      exact ⟨_, List.mem_map_of_mem hu, by rw [Test.holds, ht, hux]; rfl⟩
    case isFalse => exact ⟨u, hu, hux⟩
  | first q ih => exact ih (List.mem_of_mem_take h)
  | within q r ihq _ =>
    obtain ⟨d, hd, he⟩ := List.mem_flatMap.1 h
    obtain ⟨x, hx, hwithin, hentry, -⟩ := ihq hd
    exact ⟨x, hx, (d.within_of_mem_lift he).trans hwithin, hentry, by simp [direct]⟩
  | orElse q r ihq ihr =>
    rw [pick] at h
    split at h
    · obtain ⟨x, hx, hwithin, ⟨t, ht, htx⟩, hdirect⟩ := ihr h
      exact ⟨x, hx, hwithin, ⟨t, List.mem_append_right _ ht, htx⟩,
        fun hd => hdirect (Bool.and_eq_true_iff.1 hd).2⟩
    · obtain ⟨x, hx, hwithin, ⟨t, ht, htx⟩, hdirect⟩ := ihq h
      exact ⟨x, hx, hwithin, ⟨t, List.mem_append_left _ ht, htx⟩,
        fun hd => hdirect (Bool.and_eq_true_iff.1 hd).1⟩
  | unwrap kinds q ih =>
    obtain ⟨d, hd, he⟩ := List.mem_flatMap.1 h
    obtain ⟨x, hx, hwithin, hentry, -⟩ := ih hd
    exact ⟨x, hx, (within_of_mem_unwrap he).trans hwithin, hentry, by simp [direct]⟩
  | strip kind q ih =>
    obtain ⟨d, hd, rfl⟩ := List.mem_map.1 h
    obtain ⟨x, hx, hwithin, hentry, -⟩ := ih hd
    exact ⟨x, hx, (within_strip kind d).trans hwithin, hentry, by simp [direct]⟩

theorem eq_of_mem_first {q : Query} {s : Site} {d e : Inner s} (hd : d ∈ (first q).pick s)
    (he : e ∈ (first q).pick s) : d = e := by
  rw [pick] at hd he
  cases hq : q.pick s with
  | nil => simp [hq] at hd
  | cons x rest =>
    rw [hq, List.take_succ_cons, List.take_zero, List.mem_singleton] at hd he
    rw [hd, he]

theorem mem_childOfKind {kind : String} {s : Site} {d : Inner s}
    (h : d ∈ (childOfKind kind).pick s) : d.val ∈ s.children ∧ d.val.head.kind = kind := by
  obtain ⟨x, hx, -, ⟨t, ht, htx⟩, hdirect⟩ := exists_entry h
  obtain rfl : t = .and (.kindIn [kind]) (.not (.kindIn [])) := List.mem_singleton.1 ht
  rw [hdirect rfl]
  refine ⟨hx, ?_⟩
  simpa [Test.holds] using htx

/-- No child meets a condition of both queries. -/
def excludes (plain : List String) (q r : Query) : Bool :=
  q.entries.all fun t => r.entries.all fun u => t.excludes plain u

/-- The queries name sites in different children, or in different places of a child that both of
them go through. -/
def apart (plain : List String) (q r : Query) : Bool :=
  q.excludes plain r ||
    match q, r with
    | within q q', within r r' => decide (q = r) && q'.excludes plain r'
    | _, _ => false

variable {plain : List String} {s : Site}

theorem apart_of_excludes {q r : Query} (h : q.excludes plain r = true)
    (hs : ∀ x ∈ s.children, x.head.Plain plain) {a b : Inner s} (ha : a ∈ q.pick s)
    (hb : b ∈ r.pick s) : s.Apart a.val b.val := by
  obtain ⟨x, hx, hax, ⟨t, ht, htx⟩, -⟩ := exists_entry ha
  obtain ⟨y, hy, hby, ⟨u, hu, huy⟩, -⟩ := exists_entry hb
  have hne : x ≠ y := by
    rintro rfl
    have hexcludes := List.all_eq_true.1 (List.all_eq_true.1 h t ht) u hu
    rw [Test.not_holds_of_excludes hexcludes (hs x hx) htx] at huy
    simp at huy
  exact (Site.apart_of_children_ne hx hy hne).mono hax hby

theorem apart_of_pick {q r : Query} (h : q.apart plain r = true)
    (hs : ∀ x : Site, x.Below s → x.head.Plain plain) {a b : Inner s} (ha : a ∈ q.pick s)
    (hb : b ∈ r.pick s) : s.Apart a.val b.val := by
  rcases Bool.or_eq_true_iff.1 h with h | h
  · exact apart_of_excludes h (fun x hx => hs x (.child hx)) ha hb
  · match q, r, h with
    | within q q', within r r', h =>
      obtain ⟨heq, hinner⟩ := Bool.and_eq_true_iff.1 h
      obtain rfl := of_decide_eq_true heq
      obtain ⟨d, hd, had⟩ := List.mem_flatMap.1 ha
      obtain ⟨e, he, hbe⟩ := List.mem_flatMap.1 hb
      by_cases hde : d = e
      · -- Both go through the same site, and are apart inside of it.
        subst hde
        obtain ⟨a', ha', rfl⟩ := List.mem_map.1 had
        obtain ⟨b', hb', rfl⟩ := List.mem_map.1 hbe
        exact (apart_of_excludes hinner (fun x hx => hs x (.step hx d.property)) ha' hb').of_within
          d.property.within
      · exact (Site.apart_of_ne (q.pairwise_pick s) hd he hde).mono (d.within_of_mem_lift had)
          (e.within_of_mem_lift hbe)

end Query

/-! ## The rules of the languages -/

def Treatment.queries (treatment : Treatment) : List Query :=
  treatment.parts.map Part.query

/-- The kinds of the clauses that rules find by their kind beside labelled children. -/
def clauseKinds : List String :=
  ["class_heritage", "extends_type_clause", "import_clause", "import_require_clause",
   "export_clause"]

/-- What the rule for an import by `require` looks at: the name in its clause, and then the clause
itself. -/
def requireQueries : List Query :=
  [.within (.childOfKind "import_require_clause") (.childOfKind "identifier"),
   .childOfKind "import_require_clause"]

/-- The parts of a rule look in different places. The only exception is the rule for an import by
`require`. -/
theorem Language.queries_apart {language : Language}
    (h : language ∈ Registry.standard.languages) :
    (∀ rule ∈ language.rules,
      rule.treatment.queries.Pairwise (fun q r => q.apart clauseKinds r = true) ∨
        language = .typeScript ∧ rule.treatment.queries = requireQueries) ∧
    ∀ treatment, language.otherwise = some treatment →
      treatment.queries.Pairwise fun q r => q.apart clauseKinds r = true := by
  rcases Registry.mem_languages.1 h with rfl | rfl | rfl
  · have hrules : ∀ rule ∈ cSharp.rules,
        rule.treatment.queries.Pairwise fun q r => q.apart clauseKinds r = true := by decide
    refine ⟨fun rule hrule => .inl (hrules rule hrule), fun treatment ht => ?_⟩
    obtain rfl := Option.some.inj ht
    decide
  · have hrules : ∀ rule ∈ php.rules,
        rule.treatment.queries.Pairwise fun q r => q.apart clauseKinds r = true := by decide
    exact ⟨fun rule hrule => .inl (hrules rule hrule), by simp [php]⟩
  · have hrules : ∀ rule ∈ typeScript.rules,
        rule.treatment.queries.Pairwise (fun q r => q.apart clauseKinds r = true) ∨
          rule.treatment.queries = requireQueries := by decide
    exact ⟨fun rule hrule => (hrules rule hrule).imp_right fun h => ⟨rfl, h⟩,
      by simp [typeScript]⟩

end FactStream
