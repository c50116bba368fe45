import FactStream.Proofs.DocumentOrder
import FactStream.Proofs.FactForest
import FactStream.Proofs.Offsets
import FactStream.Proofs.Reach
import FactStream.Proofs.Stream
import Mathlib.Data.List.Pairwise

/-!
# Spans nest

In a well-formed tree every node lies inside the one around it, and siblings do not overlap
(`Node.WellFormed`). The facts of a walk are then nested in the same way (`WalkContext.spans_nest`),
by the offsets that they carry. This is so for the facts of nodes, also where nodes between a fact
and its parent give none, and for containers: members of a group are in document order
(`Query.pairwise_pick`), so the first and the last of them bound all the others.
-/

namespace FactStream

/-! ## Trees -/

/-- Nodes start before they end and lie inside the node around them, siblings stand one after the
other, and all offsets fit a signed 64-bit number. -/
structure Node.WellFormed (root : Node) : Prop where
  ordered : ∀ n ∈ root.preorder, n.head.span.startOffset ≤ n.head.span.endOffset
  inside : ∀ n ∈ root.preorder, ∀ child ∈ n.children,
    n.head.span.startOffset ≤ child.head.span.startOffset ∧
      child.head.span.endOffset ≤ n.head.span.endOffset
  apart : ∀ n ∈ root.preorder,
    n.children.Pairwise fun a b => a.head.span.endOffset ≤ b.head.span.startOffset
  small : ∀ n ∈ root.preorder, n.head.span.endOffset < Nat.pow 2 63

namespace Site

def start (s : Site) : Nat := s.head.span.startOffset

def stop (s : Site) : Nat := s.head.span.endOffset

variable {s d a b : Site}

theorem start_le_stop (h : s.node.WellFormed) : s.start ≤ s.stop :=
  h.ordered _ s.node.mem_preorder_self

theorem stop_lt (h : s.node.WellFormed) : s.stop < Nat.pow 2 63 :=
  h.small _ s.node.mem_preorder_self

theorem Below.wellFormed (h : d.Below s) (hs : s.node.WellFormed) : d.node.WellFormed :=
  ⟨fun m hm => hs.ordered m (h.mem_preorder hm), fun m hm => hs.inside m (h.mem_preorder hm),
    fun m hm => hs.apart m (h.mem_preorder hm), fun m hm => hs.small m (h.mem_preorder hm)⟩

theorem inside_of_mem_children (hs : s.node.WellFormed) (hd : d ∈ s.children) :
    s.start ≤ d.start ∧ d.stop ≤ s.stop :=
  hs.inside _ s.node.mem_preorder_self _ (node_mem_of_mem_children hd)

theorem Below.inside (h : d.Below s) (hs : s.node.WellFormed) :
    s.start ≤ d.start ∧ d.stop ≤ s.stop := by
  induction h with
  | child hm => exact inside_of_mem_children hs hm
  | step hm hd ih =>
    obtain ⟨hstart, hstop⟩ := inside_of_mem_children (hd.wellFormed hs) hm
    obtain ⟨hstart', hstop'⟩ := ih hs
    exact ⟨Nat.le_trans hstart' hstart, Nat.le_trans hstop hstop'⟩

theorem Within.wellFormed (h : d.Within s) (hs : s.node.WellFormed) : d.node.WellFormed := by
  rcases h with rfl | h
  · exact hs
  · exact h.wellFormed hs

theorem Within.inside (h : d.Within s) (hs : s.node.WellFormed) :
    s.start ≤ d.start ∧ d.stop ≤ s.stop := by
  rcases h with rfl | h
  · exact ⟨Nat.le_refl _, Nat.le_refl _⟩
  · exact h.inside hs

theorem Before.stop_le (h : s.Before a b) (hs : s.node.WellFormed) : a.stop ≤ b.start := by
  cases h with
  | @intro t x y _ _ ht hsub ha hb =>
    have hwf := ht.wellFormed hs
    have hx : x ∈ t.children := hsub.subset (by simp)
    have hy : y ∈ t.children := hsub.subset (by simp)
    have hxy : x.stop ≤ y.start := by
      have happart := hwf.apart _ t.node.mem_preorder_self
      rw [← t.map_node_children, List.pairwise_map] at happart
      exact List.rel_of_pairwise_cons (happart.sublist hsub) (List.mem_singleton_self y)
    have hax := ha.inside (Below.wellFormed (.child hx) hwf)
    have hby := hb.inside (Below.wellFormed (.child hy) hwf)
    omega

end Site

/-! ## Groups -/

section Groups

variable {s : Site} {members : List (Inner s)}

/-- `d` starts and ends no later than `e`. -/
def Inner.Leads (d e : Inner s) : Prop := d.val.start ≤ e.val.start ∧ d.val.stop ≤ e.val.stop

theorem InOrderBelow.leads (h : InOrderBelow members) (hs : s.node.WellFormed) :
    members.Pairwise Inner.Leads := by
  refine h.imp fun {a b} hab => ?_
  have hle := hab.stop_le hs
  have ha := Site.start_le_stop (a.property.wellFormed hs)
  have hb := Site.start_le_stop (b.property.wellFormed hs)
  exact ⟨by omega, by omega⟩

theorem groupSpan_bounds (h : InOrderBelow members) (hs : s.node.WellFormed) :
    let span := WalkContext.groupSpan members
    (s.start ≤ span.startOffset ∧ span.startOffset ≤ span.endOffset ∧ span.endOffset ≤ s.stop) ∧
      ∀ d ∈ members, span.startOffset ≤ d.val.start ∧ d.val.stop ≤ span.endOffset := by
  intro span
  by_cases hempty : members = []
  · subst hempty
    exact ⟨⟨Nat.le_refl _, Site.start_le_stop hs, Nat.le_refl _⟩, nofun⟩
  · have hleads := h.leads hs
    have hspan : span =
        (members.head hempty).head.span.cover (members.getLast hempty).head.span := by
      simp only [span, WalkContext.groupSpan, List.head?_eq_some_head hempty,
        List.getLast?_eq_some_getLast hempty]
    have hfirst : ∀ d ∈ members, span.startOffset ≤ d.val.start := by
      intro d hd
      rw [hspan]
      exact (hleads.rel_head_of_rel_head_head hd ⟨Nat.le_refl _, Nat.le_refl _⟩).1
    have hlast : ∀ d ∈ members, d.val.stop ≤ span.endOffset := by
      intro d hd
      rw [hspan]
      exact (hleads.rel_getLast_of_rel_getLast_getLast hd ⟨Nat.le_refl _, Nat.le_refl _⟩).2
    have hin := (members.head hempty).property.inside hs
    have hin' := (members.getLast hempty).property.inside hs
    have hstart : span.startOffset = (members.head hempty).val.start := by
      rw [hspan]
      rfl
    have hstop : span.endOffset = (members.getLast hempty).val.stop := by
      rw [hspan]
      rfl
    have hle := Site.start_le_stop ((members.head hempty).property.wellFormed hs)
    have hle' := hlast _ (List.head_mem hempty)
    exact ⟨⟨by omega, by omega, by omega⟩, fun d hd => ⟨hfirst d hd, hlast d hd⟩⟩

/-- The groups of a node are in document order, whatever the rules are. -/
theorem Language.inOrder_group (language : Language) (source : String) {name : String} {kept : Bool}
    (h : .group name members kept ∈ (language.outcome source s).branches) :
    InOrderBelow members := by
  have htreatment : ∀ treatment : Treatment,
      .group name members kept ∈ (treatment.outcome source s).branches → InOrderBelow members := by
    intro treatment hmem
    rw [treatment.branches_outcome] at hmem
    obtain ⟨part, -, hpart⟩ := List.mem_flatMap.1 hmem
    cases part with
    | nodes q => simp [Part.branches] at hpart
    | group name' q kept' =>
      rw [Part.branches, List.mem_singleton, Branch.group.injEq] at hpart
      rw [hpart.2.1]
      exact q.pairwise_pick s
  rcases language.outcome_cases source s with ⟨rule, -, -, hr⟩ | ⟨treatment, -, hr⟩ | hr
  · exact htreatment _ (hr ▸ h)
  · exact htreatment _ (hr ▸ h)
  · rw [hr] at h
    simp [Outcome.branches] at h

end Groups

/-! ## Forests -/

/-- Every fact of a forest lies between two offsets, and those below it inside it. -/
def Forest.Nested (low high : Nat) : Forest → Prop
  | .nil => True
  | .fact content below after =>
    (∃ start stop, content.Spans start stop ∧ low ≤ start ∧ start ≤ stop ∧ stop ≤ high ∧
      below.Nested start stop) ∧ after.Nested low high
  | .gap after => after.Nested low high

namespace Forest.Nested

variable {f g : Forest} {low high low' high' : Nat}

theorem append (hf : f.Nested low high) (hg : g.Nested low high) : (f ++ g).Nested low high := by
  induction f with
  | nil => exact hg
  | fact content below after _ ih => exact ⟨hf.1, ih hf.2⟩
  | gap after ih => exact ih hf

theorem mono (hf : f.Nested low high) (hlow : low' ≤ low) (hhigh : high ≤ high') :
    f.Nested low' high' := by
  induction f with
  | nil => trivial
  | fact content below after _ ih =>
    obtain ⟨⟨start, stop, hspans, hstart, hle, hstop, hbelow⟩, hafter⟩ := hf
    exact ⟨⟨start, stop, hspans, by omega, hle, by omega, hbelow⟩, ih hafter⟩
  | gap after ih => exact ih hf

end Forest.Nested

namespace Reading

variable {r t : Reading} {low high : Nat}

theorem nested_followedBy (hr : r.forest.Nested low high) (ht : t.forest.Nested low high) :
    (r.followedBy t).forest.Nested low high := by
  unfold followedBy
  cases r.stop with
  | none => exact hr.append ht
  | some limit => exact hr

theorem nested_under {content : Content} {start stop : Nat} (hspans : content.Spans start stop)
    (hbounds : low ≤ start ∧ start ≤ stop ∧ stop ≤ high) (hr : r.forest.Nested start stop) :
    (r.under content).forest.Nested low high :=
  ⟨⟨start, stop, hspans, hbounds.1, hbounds.2.1, hbounds.2.2, hr⟩, trivial⟩

end Reading

namespace WalkContext

variable {c : WalkContext}

mutual

theorem nested_reading (hc : c.language.KeepsCommon) (s : Site) (hs : s.node.WellFormed)
    (grouped : Bool) (depth : Nat) :
    (c.reading s grouped depth).forest.Nested s.start s.stop := by
  have hgroups : ∀ name members kept,
      .group name members kept ∈ (c.language.outcome c.source s).branches →
        InOrderBelow members :=
    fun _ _ _ => c.language.inOrder_group c.source
  unfold reading
  cases c.maxDepth.filter (· < depth) with
  | some limit => trivial
  | none =>
    dsimp only
    split
    · cases ho : c.language.outcome c.source s with
      | elided => trivial
      | unhandled => trivial
      | passing todo =>
        rw [ho] at hgroups
        exact nested_readBranches hc s hs todo hgroups depth
      | fact kind given positional todo =>
        rw [ho] at hgroups
        have hle := Site.start_le_stop hs
        have hlt := Site.stop_lt hs
        exact Reading.nested_under
          (spans_content _ _ (hc c.source s kind given positional todo ho)
            (Nat.lt_of_le_of_lt hle hlt) hlt)
          ⟨Nat.le_refl _, hle, Nat.le_refl _⟩ (nested_readBranches hc s hs todo hgroups depth)
    · trivial
termination_by (sizeOf s.node, 2, 0)

theorem nested_readBranches (hc : c.language.KeepsCommon) (s : Site) (hs : s.node.WellFormed)
    (todo : List (Branch s))
    (hgroups : ∀ name members kept, .group name members kept ∈ todo → InOrderBelow members)
    (depth : Nat) : (c.readBranches s todo depth).forest.Nested s.start s.stop := by
  match todo, hgroups with
  | [], _ =>
    unfold readBranches
    trivial
  | .node d :: rest, hgroups =>
    have hrest := nested_readBranches hc s hs rest
      (fun name members kept hmem => hgroups name members kept (List.mem_cons_of_mem _ hmem)) depth
    obtain ⟨hstart, hstop⟩ := d.property.inside hs
    have hd := nested_reading hc d.val (d.property.wellFormed hs) false (depth + 1)
    unfold readBranches
    exact Reading.nested_followedBy (hd.mono hstart hstop) hrest
  | .group name members kept :: rest, hgroups =>
    have hrest := nested_readBranches hc s hs rest
      (fun name members kept hmem => hgroups name members kept (List.mem_cons_of_mem _ hmem)) depth
    unfold readBranches
    dsimp only
    split
    · exact hrest
    · -- Of the members only the live ones count, and these are in order as well.
      have horder : InOrderBelow (members.filter (·.head.live)) :=
        (hgroups name members kept List.mem_cons_self).filter _
      obtain ⟨hbounds, hmembers⟩ := groupSpan_bounds horder hs
      have hlt := Site.stop_lt hs
      refine Reading.nested_followedBy (Reading.nested_under (spans_content _ _ nofun ?_ ?_)
        hbounds (nested_readMembers hc s hs _ hmembers depth)) hrest
      · omega
      · omega
termination_by (sizeOf s.node, 1, todo.length)
decreasing_by
  · exact .right _ (.right _ (Nat.lt_succ_self _))
  · exact .left _ _ d.property.sizeOf_lt
  · exact .right _ (.right _ (Nat.lt_succ_self _))
  · exact .right _ (.left _ _ Nat.zero_lt_one)

theorem nested_readMembers (hc : c.language.KeepsCommon) (s : Site) (hs : s.node.WellFormed)
    {low high : Nat} (todo : List (Inner s))
    (hbounds : ∀ d ∈ todo, low ≤ d.val.start ∧ d.val.stop ≤ high) (depth : Nat) :
    (c.readMembers s todo depth).forest.Nested low high := by
  match todo, hbounds with
  | [], _ =>
    unfold readMembers
    trivial
  | d :: rest, hbounds =>
    obtain ⟨⟨hlow, hhigh⟩, hrest⟩ := List.forall_mem_cons.1 hbounds
    have hd := nested_reading hc d.val (d.property.wellFormed hs) true (depth + 2)
    unfold readMembers
    exact Reading.nested_followedBy (hd.mono hlow hhigh)
      (nested_readMembers hc s hs rest hrest depth)
termination_by (sizeOf s.node, 0, todo.length)
decreasing_by
  · exact .left _ _ d.property.sizeOf_lt
  · exact .right _ (.right _ (Nat.lt_succ_self _))

end

end WalkContext

/-! ## Facts -/

/-- The offsets of a fact, read as decimals, lie between two others, the start before the end. -/
def Fact.Between (f : Fact) (low high : Nat) : Prop :=
  ∃ start stop, f.properties.number? "start_offset" = some start ∧
    f.properties.number? "end_offset" = some stop ∧ low ≤ start ∧ start ≤ stop ∧ stop ≤ high

/-- A fact lies between the offsets of another one. -/
def Fact.Inside (f p : Fact) : Prop :=
  ∃ low high, p.properties.number? "start_offset" = some low ∧
    p.properties.number? "end_offset" = some high ∧ f.Between low high

theorem Fact.Between.mono {f : Fact} {low high low' high' : Nat} (h : f.Between low high)
    (hlow : low' ≤ low) (hhigh : high ≤ high') : f.Between low' high' := by
  obtain ⟨start, stop, hstart, hstop, h₁, h₂, h₃⟩ := h
  exact ⟨start, stop, hstart, hstop, by omega, h₂, by omega⟩

theorem split_append {α : Type} {l r before after : List α} {x : α}
    (h : l ++ r = before ++ x :: after) :
    (∃ rest, l = before ++ x :: rest) ∨ ∃ mid, before = l ++ mid ∧ r = mid ++ x :: after := by
  rcases List.append_eq_append_iff.1 h with ⟨mid, hbefore, hr⟩ | ⟨rest, hl, hx⟩
  · exact .inr ⟨mid, hbefore, hr⟩
  · cases rest with
    | nil => exact .inr ⟨[], by simpa using hl.symm, by simpa using hx.symm⟩
    | cons y rest =>
      obtain ⟨rfl, -⟩ := List.cons.inj hx
      exact .inl ⟨rest, hl⟩

/-- The facts of a nested forest lie where the forest does. Each of them belongs to the parent of
the forest, or lies inside its own parent, which comes before it. -/
theorem Forest.Nested.facts {f : Forest} {low high : Nat} (h : f.Nested low high)
    {keys : KeyCounter} {parent : Frame} {before after : List Fact} {g : Fact}
    (hs : f.facts keys parent = before ++ g :: after) :
    g.Between low high ∧
      (g.parentKey = parent.key ∨ ∃ p ∈ before, p.key = g.parentKey ∧ g.Inside p) := by
  induction f generalizing keys parent before after low high with
  | nil => simp [Forest.facts] at hs
  | gap rest ih => exact ih h hs
  | fact content below rest ihb iha =>
    obtain ⟨⟨start, stop, hspans, hlow, hle, hhigh, hbelow⟩, hrest⟩ := h
    rw [Forest.facts] at hs
    cases before with
    | nil =>
      obtain ⟨rfl, -⟩ := List.cons.inj hs
      exact ⟨⟨start, stop, hspans.1, hspans.2, hlow, hle, hhigh⟩, .inl rfl⟩
    | cons first before =>
      obtain ⟨rfl, htail⟩ := List.cons.inj hs
      rcases split_append htail with ⟨_, hhere⟩ | ⟨mid, rfl, hlater⟩
      · obtain ⟨hbetween, hparent⟩ := ihb hbelow hhere
        refine ⟨hbetween.mono hlow hhigh, .inr ?_⟩
        rcases hparent with hparent | ⟨p, hp, hkey, hinside⟩
        · exact ⟨_, List.mem_cons_self, hparent.symm, start, stop, hspans.1, hspans.2, hbetween⟩
        · exact ⟨p, List.mem_cons_of_mem _ hp, hkey, hinside⟩
      · obtain ⟨hbetween, hparent⟩ := iha hrest hlater
        refine ⟨hbetween, hparent.imp_right ?_⟩
        rintro ⟨p, hp, hkey, hinside⟩
        exact ⟨p, List.mem_cons_of_mem _ (List.mem_append_right _ hp), hkey, hinside⟩

theorem Forest.nodup_keys (f : Forest) (keys : KeyCounter) (parent : Frame) :
    ((f.facts keys parent).map (·.key)).Nodup := by
  rw [map_key_facts]
  exact ((f.pairwise_numbers keys.last).imp Nat.ne_of_lt).map _ fun m n hne hkey =>
    hne (keys.key_inj.1 hkey)

namespace WalkContext

/-- In a well-formed tree the facts of a walk are nested, by the offsets written into them. Every
fact lies inside the root, and a fact that does not belong to the parent of the whole tree comes
after its own parent and lies inside it. The walk may have a limit, and its sink may fail. -/
theorem spans_nest {c : WalkContext} (hc : c.language ∈ Registry.standard.languages) {root : Node}
    (hroot : root.WellFormed) {σ : Type} (out : Sink σ) (parentKey : String) (keys : KeyCounter)
    (start : σ) :
    let facts := c.emitted out root parentKey keys start
    (∀ f ∈ facts, f.Between root.head.span.startOffset root.head.span.endOffset) ∧
      (∀ before f after, facts = before ++ f :: after →
        f.parentKey = parentKey ∨ ∃ p ∈ before, p.key = f.parentKey) ∧
      ∀ p ∈ facts, ∀ f ∈ facts, f.parentKey = p.key → p.key ≠ parentKey → f.Inside p := by
  intro facts
  have hnested := c.nested_reading (Language.keepsCommon hc) { node := root } hroot false 0
  have hpre := out.taken_prefix
    ((c.reading { node := root } false 0).forest.facts keys { key := parentKey }) start
  rw [← c.emitted_eq] at hpre
  obtain ⟨unsent, hunsent⟩ := hpre
  -- A split of the facts that were taken in is one of all facts.
  have hsplit : ∀ before f after, facts = before ++ f :: after →
      f.Between root.head.span.startOffset root.head.span.endOffset ∧
        (f.parentKey = parentKey ∨ ∃ p ∈ before, p.key = f.parentKey ∧ f.Inside p) := by
    intro before f after hs
    rw [show c.emitted out root parentKey keys start = _ from hs, List.append_assoc,
      List.cons_append] at hunsent
    exact hnested.facts hunsent.symm
  have hinj : ∀ p ∈ facts, ∀ q ∈ facts, p.key = q.key → p = q := by
    have hnodup := (c.reading { node := root } false 0).forest.nodup_keys keys { key := parentKey }
    rw [← hunsent] at hnodup
    intro p hp q hq
    exact List.inj_on_of_nodup_map hnodup (List.mem_append_left _ hp) (List.mem_append_left _ hq)
  refine ⟨fun f hf => ?_, fun before f after hs => ?_, fun p hp f hf hkey hne => ?_⟩
  · obtain ⟨before, after, hs⟩ := List.append_of_mem hf
    exact (hsplit before f after hs).1
  · refine (hsplit before f after hs).2.imp_right ?_
    rintro ⟨p, hp, hkey, -⟩
    exact ⟨p, hp, hkey⟩
  · obtain ⟨before, after, hs⟩ := List.append_of_mem hf
    rcases (hsplit before f after hs).2 with htop | ⟨q, hq, hqkey, hinside⟩
    · exact absurd (hkey.symm.trans htop) hne
    · have hmem : q ∈ facts := by
        rw [hs]
        exact List.mem_append_left _ hq
      rwa [hinj p hp q hmem (hkey.symm.trans hqkey.symm)]

/-- The call `f()` without arguments. -/
def bareCall : Node :=
  ⟨{ kind := "call_expression", span := { endOffset := 3 } },
   [⟨{ kind := "identifier", span := { endOffset := 1 }, label := some "function" }, []⟩,
    ⟨{ kind := "arguments", span := { startOffset := 1, endOffset := 3 },
       label := some "arguments" },
     [⟨{ kind := "(", named := false, span := { startOffset := 1, endOffset := 2 } }, []⟩,
      ⟨{ kind := ")", named := false, span := { startOffset := 2, endOffset := 3 } }, []⟩]⟩]⟩

def bareCallWalk : WalkContext where
  language := .typeScript
  source := "f()"
  filename := "a.ts"

theorem reading_bareCall : ∃ call name args,
    (bareCallWalk.reading { node := bareCall } false 0).forest =
      .fact call (.fact name .nil (.fact args .nil .nil)) .nil ∧ args.kind = "args" := by
  let name : Site := ({ node := bareCall } : Site).child 0
    ⟨{ kind := "identifier", span := { endOffset := 1 }, label := some "function" }, []⟩
  have hname : name.Below { node := bareCall } := .child (by simp [Site.children, name, bareCall])
  have hcall : bareCallWalk.language.outcome bareCallWalk.source { node := bareCall } =
      .fact none [("optional", false)] false [.node ⟨name, hname⟩, .group "args" [] true] := rfl
  have hleaf : bareCallWalk.language.outcome bareCallWalk.source name =
      .fact none [("name", (View.of bareCallWalk.source name).text)] false [] := rfl
  refine ⟨bareCallWalk.content "call_expr" bareCall.head.span [("optional", false)] false,
    bareCallWalk.content "ident" name.head.span
      [("name", (View.of bareCallWalk.source name).text)] false,
    bareCallWalk.content "args" bareCall.head.span [] true, ?_, rfl⟩
  rw [(reading_unlimited rfl _ _ _).2, forest_of_fact _ rfl hcall]
  simp only [List.map_cons, List.map_nil, Forest.concat_cons, Forest.concat_nil, branchForest,
    forest_of_fact _ rfl hleaf]
  rfl

/-- The container of the arguments is kept although it is empty, and it lies inside the call. -/
theorem spans_nest_bareCall :
    bareCallWalk.language ∈ Registry.standard.languages ∧ bareCall.WellFormed ∧
      ∃ call name args,
        bareCallWalk.emitted .collect bareCall "1_0" ⟨1, 0⟩ #[] = [call, name, args] ∧
        args.kind = "args" ∧ name.Inside call ∧ args.Inside call := by
  have hlanguage : bareCallWalk.language ∈ Registry.standard.languages :=
    Registry.mem_languages.2 (.inr (.inr rfl))
  have hwf : bareCall.WellFormed := ⟨by decide, by decide, by decide, by decide⟩
  obtain ⟨-, -, hnest⟩ := spans_nest hlanguage hwf .collect "1_0" ⟨1, 0⟩ #[]
  obtain ⟨call, name, args, hforest, hargs⟩ := reading_bareCall
  have hfacts : bareCallWalk.emitted .collect bareCall "1_0" ⟨1, 0⟩ #[] =
      [call.toFact "1_1" { key := "1_0" }, name.toFact "1_2" { key := "1_1" },
       args.toFact "1_3" { key := "1_1", children := ["1_2"] }] := by
    rw [emitted_eq, hforest]
    rfl
  have hne : "1_1" ≠ "1_0" := by decide
  rw [hfacts] at hnest
  refine ⟨hlanguage, hwf, _, _, _, hfacts, hargs, ?_, ?_⟩
  · exact hnest _ (by simp) _ (by simp) rfl hne
  · exact hnest _ (by simp) _ (by simp) rfl hne

end WalkContext

end FactStream
