import FactStream.Proofs.Forest
import Mathlib.Data.List.Nodup

/-!
# Parents and siblings in a stream

In the stream of a forest, each fact is a child of the fact before it or of one of its ancestors
(`Forest.facts_follow`), and names exactly the children its parent had before
(`Forest.siblings_facts`). Both laws hold of a first part of a stream if they hold of the stream.

A stream whose facts follow each other in this way, with no key given twice, has the descendants of
every fact in one block right after the fact (`InOrder.descendants_in_block`).
-/

namespace FactStream

/-! ## Ancestors -/

/-- Among `facts`, the fact `p` is the one whose key `f` names as its parent. -/
def ParentAmong (facts : List Fact) (p f : Fact) : Prop :=
  p ∈ facts ∧ f.parentKey = p.key

/-- Among `facts`, following parents from `f` leads to `a`. -/
def Ancestor (facts : List Fact) : Fact → Fact → Prop :=
  Relation.TransGen (ParentAmong facts)

theorem Ancestor.mono {facts facts' : List Fact} (hsub : ∀ f ∈ facts, f ∈ facts') {a f : Fact}
    (h : Ancestor facts a f) : Ancestor facts' a f := by
  induction h with
  | single hp => exact .single ⟨hsub _ hp.1, hp.2⟩
  | tail _ hp ih => exact .tail ih ⟨hsub _ hp.1, hp.2⟩

theorem Ancestor.mem {facts : List Fact} {a f : Fact} (h : Ancestor facts a f) : a ∈ facts := by
  induction h with
  | single hp => exact hp.1
  | tail _ _ ih => exact ih

/-- A fact that comes next to `f` is a child of `f` or of one of its ancestors. -/
def ChildAlong (facts : List Fact) (f g : Fact) : Prop :=
  g.parentKey = f.key ∨ ∃ a, Ancestor facts a f ∧ g.parentKey = a.key

/-! ## Facts that follow each other -/

/-- With the keys of `path` open, the innermost first, `facts` can come next and leave the keys of
`path'` open: each fact is a child under an open key, and closes the keys inside of it. -/
inductive Follow : List String → List Fact → List String → Prop where
  | nil (path : List String) : Follow path [] path
  | cons {inner above path' : List String} {f : Fact} {rest : List Fact} :
      Follow (f.key :: f.parentKey :: above) rest path' →
      Follow (inner ++ f.parentKey :: above) (f :: rest) path'

theorem Follow.append {path path₁ path₂ : List String} {fs gs : List Fact}
    (h : Follow path fs path₁) (h' : Follow path₁ gs path₂) : Follow path (fs ++ gs) path₂ := by
  induction h with
  | nil _ => exact h'
  | cons _ ih => exact .cons (ih h')

theorem Follow.split {fs gs : List Fact} {path path₂ : List String}
    (h : Follow path (fs ++ gs) path₂) : ∃ path₁, Follow path fs path₁ ∧ Follow path₁ gs path₂ := by
  induction fs generalizing path with
  | nil => exact ⟨path, .nil path, h⟩
  | cons f fs ih =>
    cases h with
    | cons h =>
      obtain ⟨path₁, h₁, h₂⟩ := ih h
      exact ⟨path₁, .cons h₁, h₂⟩

theorem Forest.facts_follow (f : Forest) (keys : KeyCounter) (parent : Frame)
    (inner above : List String) :
    ∃ inner', Follow (inner ++ parent.key :: above) (f.facts keys parent)
      (inner' ++ parent.key :: above) := by
  induction f generalizing keys parent inner above with
  | nil => exact ⟨inner, .nil _⟩
  | fact content below after ihb iha =>
    -- The facts below keep the new key open, those after it close it with all inside.
    obtain ⟨inner₁, h₁⟩ := ihb (keys.advance 1) { key := keys.key (keys.last + 1) } []
      (parent.key :: above)
    obtain ⟨inner₂, h₂⟩ := iha (keys.advance (below.size + 1))
      (parent.addChild (keys.key (keys.last + 1))).2 (inner₁ ++ [keys.key (keys.last + 1)]) above
    rw [List.append_assoc] at h₂
    exact ⟨inner₂, .cons (f := content.toFact _ parent) (h₁.append h₂)⟩
  | gap after ih => exact ih (keys.advance 1) parent inner above

/-- The keys of `path` are those of `f` and of its ancestors up to a root. -/
inductive PathOf (facts : List Fact) : Fact → List String → Prop where
  | root (f : Fact) : PathOf facts f [f.key]
  | step {p f : Fact} {path : List String} :
      ParentAmong facts p f → PathOf facts p path → PathOf facts f (f.key :: path)

theorem PathOf.exists_key {facts : List Fact} {f : Fact} {inner above : List String} {k : String}
    (h : PathOf facts f (inner ++ k :: above)) :
    ∃ p, p.key = k ∧ PathOf facts p (k :: above) ∧ (p = f ∨ Ancestor facts p f) := by
  induction inner generalizing f with
  | nil =>
    cases h with
    | root => exact ⟨f, rfl, .root f, .inl rfl⟩
    | step hp h => exact ⟨f, rfl, .step hp h, .inl rfl⟩
  | cons k' inner ih =>
    generalize hpath : k' :: inner ++ k :: above = path at h
    cases h with
    | root => simp at hpath
    | step hp h =>
      obtain ⟨-, rfl⟩ := List.cons.inj hpath
      obtain ⟨a, hk, ha, rfl | hanc⟩ := ih h
      · exact ⟨a, hk, ha, .inr (.single hp)⟩
      · exact ⟨a, hk, ha, .inr (.tail hanc hp)⟩

/-- The open keys are always those of the last fact and its ancestors. -/
theorem Follow.pathOf {facts fs : List Fact} {path path' : List String} {f : Fact}
    (h : Follow path fs path') (hf : f ∈ facts) (hfs : ∀ g ∈ fs, g ∈ facts)
    (hpath : PathOf facts f path) :
    PathOf facts ((f :: fs).getLast (List.cons_ne_nil _ _)) path' := by
  induction h generalizing f with
  | nil => exact hpath
  | @cons inner above path' g rest h ih =>
    obtain ⟨p, hk, hp, hpf⟩ := hpath.exists_key
    have hmem : p ∈ facts := by
      rcases hpf with rfl | hanc
      · exact hf
      · exact hanc.mem
    rw [List.getLast_cons (List.cons_ne_nil _ _)]
    exact ih (hfs g List.mem_cons_self) (fun x hx => hfs x (List.mem_cons_of_mem _ hx))
      (.step ⟨hmem, hk.symm⟩ hp)

theorem Follow.childAlong {root g : Fact} {fs gs : List Fact} {path : List String}
    (h : Follow [root.key] (fs ++ g :: gs) path) :
    ChildAlong (root :: fs) ((root :: fs).getLast (List.cons_ne_nil _ _)) g := by
  obtain ⟨path₁, h₁, h₂⟩ := h.split
  have hpath := h₁.pathOf List.mem_cons_self (fun f hf => List.mem_cons_of_mem root hf)
    (.root root)
  cases h₂ with
  | cons _ =>
    obtain ⟨p, hk, -, rfl | hanc⟩ := hpath.exists_key
    · exact .inl hk.symm
    · exact .inr ⟨p, hanc, hk.symm⟩

/-! ## Blocks of descendants -/

section Blocks

variable {facts : List Fact}

/-- The facts of a stream follow each other, and the keys tell them apart. -/
structure InOrder (facts : List Fact) : Prop where
  /-- No key is given twice. -/
  nodup : (facts.map (·.key)).Nodup
  /-- The first fact has no parent. -/
  root : ∀ f, facts.head? = some f → ∀ g ∈ facts, f.parentKey ≠ g.key
  /-- Each further fact is a child of the fact before it or of one of its ancestors. -/
  next : ∀ before f g after, facts = before ++ f :: g :: after → ChildAlong (before ++ [f]) f g

theorem InOrder.eq_of_key (h : InOrder facts) {f g : Fact} (hf : f ∈ facts) (hg : g ∈ facts)
    (hk : f.key = g.key) : f = g :=
  List.inj_on_of_nodup_map h.nodup hf hg hk

theorem InOrder.exists_parent (h : InOrder facts) {before after : List Fact} {g : Fact}
    (hs : facts = before ++ g :: after) (hne : before ≠ []) :
    ∃ p ∈ before, g.parentKey = p.key := by
  obtain ⟨init, f, rfl⟩ := List.eq_nil_or_concat before |>.resolve_left hne
  rw [List.concat_eq_append] at hs ⊢
  rcases h.next init f g after (by rw [hs, List.append_assoc]; rfl) with hk | ⟨a, ha, hk⟩
  · exact ⟨f, List.mem_append_right _ (List.mem_singleton_self f), hk⟩
  · exact ⟨a, ha.mem, hk⟩

theorem InOrder.parent_mem (h : InOrder facts) {before after : List Fact} {p g : Fact}
    (hs : facts = before ++ g :: after) (hp : ParentAmong facts p g) : p ∈ before := by
  by_cases hne : before = []
  · rw [hne] at hs
    exact absurd hp.2 (h.root g (by rw [hs]; rfl) p hp.1)
  · obtain ⟨q, hq, hk⟩ := h.exists_parent hs hne
    have hmem : q ∈ facts := by
      rw [hs]
      exact List.mem_append_left _ hq
    rwa [h.eq_of_key hp.1 hmem (hp.2.symm.trans hk)]

theorem InOrder.ancestor_mem (h : InOrder facts) {a g : Fact} (ha : Ancestor facts a g)
    {before after : List Fact} (hs : facts = before ++ g :: after) : a ∈ before := by
  induction ha generalizing before after with
  | single hp => exact h.parent_mem hs hp
  | @tail p g _ hp ih =>
    obtain ⟨init, rest, rfl⟩ := List.append_of_mem (h.parent_mem hs hp)
    have hs' : facts = init ++ p :: (rest ++ g :: after) := by
      rw [hs, List.append_assoc]
      rfl
    exact List.mem_append_left _ (ih hs')

/-- After a fact that is neither `f` nor below it, no fact is below `f`. -/
theorem InOrder.not_ancestor_after (h : InOrder facts) {f : Fact} (hf : f ∈ facts) :
    ∀ (after before : List Fact) (e : Fact), facts = before ++ e :: after → e ≠ f →
      f ∉ after → ¬ Ancestor facts f e → ∀ g ∈ after, ¬ Ancestor facts f g
  | [], _, _, _, _, _, _ => fun g hg => absurd hg (List.not_mem_nil)
  | g :: after, before, e, hs, hef, hfa, hnot => by
    have hsub : ∀ x ∈ before ++ [e], x ∈ facts := by
      intro x hx
      rw [hs]
      rcases List.mem_append.1 hx with hx | hx
      · exact List.mem_append_left _ hx
      · rw [List.mem_singleton.1 hx]
        exact List.mem_append_right _ List.mem_cons_self
    have he : e ∈ facts := hsub e (List.mem_append_right _ (List.mem_singleton_self e))
    have hg : ¬ Ancestor facts f g := by
      intro hanc
      -- The parent of `g` is `f` or below `f`; it is also `e` or above `e`.
      obtain ⟨p, hp, hfp⟩ : ∃ p, ParentAmong facts p g ∧ (p = f ∨ Ancestor facts f p) := by
        cases hanc with
        | single hp => exact ⟨f, hp, .inl rfl⟩
        | tail hanc hp => exact ⟨_, hp, .inr hanc⟩
      rcases h.next before e g after hs with hk | ⟨a, ha, hk⟩
      · obtain rfl : p = e := h.eq_of_key hp.1 he (hp.2.symm.trans hk)
        exact hfp.elim hef hnot
      · have ha := ha.mono hsub
        obtain rfl : p = a := h.eq_of_key hp.1 ha.mem (hp.2.symm.trans hk)
        rcases hfp with rfl | hfp
        · exact hnot ha
        · exact hnot (hfp.trans ha)
    have hgf : g ≠ f := fun hgf => hfa (hgf ▸ List.mem_cons_self)
    have hrest := h.not_ancestor_after hf after (before ++ [e]) g
      (by rw [hs, List.append_assoc]; rfl) hgf (fun hm => hfa (List.mem_cons_of_mem _ hm)) hg
    intro x hx
    rcases List.mem_cons.1 hx with rfl | hx
    · exact hg
    · exact hrest x hx

/-- A list starts with a block of elements that satisfy `P`, up to the first that does not. -/
theorem exists_block {α : Type} (P : α → Prop) (l : List α) :
    ∃ block rest, l = block ++ rest ∧ (∀ x ∈ block, P x) ∧ ∀ x, rest.head? = some x → ¬ P x := by
  induction l with
  | nil => exact ⟨[], [], rfl, by simp, by simp⟩
  | cons a l ih =>
    by_cases ha : P a
    · obtain ⟨block, rest, rfl, hblock, hrest⟩ := ih
      refine ⟨a :: block, rest, rfl, ?_, hrest⟩
      intro x hx
      rcases List.mem_cons.1 hx with rfl | hx
      · exact ha
      · exact hblock x hx
    · refine ⟨[], a :: l, rfl, by simp, ?_⟩
      rintro x hx
      obtain rfl : a = x := by simpa using hx
      exact ha

/-- The descendants of a fact are those in one block right after it. -/
theorem InOrder.descendants_in_block (h : InOrder facts) {before after : List Fact} {f : Fact}
    (hs : facts = before ++ f :: after) :
    ∃ below rest, after = below ++ rest ∧ (∀ g ∈ below, Ancestor facts f g) ∧
      ∀ g ∈ before ++ rest, ¬ Ancestor facts f g := by
  have hnodup : (before ++ f :: after).Nodup := hs ▸ List.Nodup.of_map _ h.nodup
  rw [List.nodup_middle, List.nodup_cons, List.mem_append, not_or] at hnodup
  obtain ⟨⟨hbefore, hafter⟩, -⟩ := hnodup
  have hf : f ∈ facts := by
    rw [hs]
    exact List.mem_append_right _ List.mem_cons_self
  obtain ⟨below, rest, rfl, hbelow, hrest⟩ := exists_block (Ancestor facts f) after
  refine ⟨below, rest, rfl, hbelow, ?_⟩
  intro g hg hanc
  rcases List.mem_append.1 hg with hg | hg
  · obtain ⟨init, tail, rfl⟩ := List.append_of_mem hg
    have hs' : facts = init ++ g :: (tail ++ f :: (below ++ rest)) := by
      rw [hs, List.append_assoc]
      rfl
    exact hbefore (List.mem_append_left _ (h.ancestor_mem hanc hs'))
  · cases rest with
    | nil => exact absurd hg List.not_mem_nil
    | cons e rest =>
      rw [List.mem_append, not_or, List.mem_cons, not_or] at hafter
      obtain ⟨-, hfe, hfrest⟩ := hafter
      have hstop : ¬ Ancestor facts f e := hrest e rfl
      rcases List.mem_cons.1 hg with rfl | hg
      · exact hstop hanc
      · have hs' : facts = before ++ f :: below ++ e :: rest := by
          rw [hs, List.append_assoc]
          rfl
        exact h.not_ancestor_after hf rest _ e hs' (Ne.symm hfe) hfrest hstop g hg hanc

theorem inOrder_nil : InOrder [] where
  nodup := .nil
  root := by simp
  next := by simp

theorem inOrder_of_follow {root : Fact} {rest : List Fact} {path : List String}
    (hfollow : Follow [root.key] rest path) (hnodup : ((root :: rest).map (·.key)).Nodup)
    (hroot : ∀ g ∈ root :: rest, root.parentKey ≠ g.key) : InOrder (root :: rest) where
  nodup := hnodup
  root := by
    intro f hf
    obtain rfl : root = f := by simpa using hf
    exact hroot
  next := by
    intro before f g after hs
    cases before with
    | nil =>
      obtain ⟨rfl, rfl⟩ := List.cons.inj hs
      rw [← List.nil_append (g :: after)] at hfollow
      exact hfollow.childAlong
    | cons p before =>
      obtain ⟨rfl, hrest⟩ := List.cons.inj hs
      rw [List.append_eq, List.append_cons] at hrest
      rw [hrest] at hfollow
      simpa using hfollow.childAlong

end Blocks

/-! ## Older siblings -/

/-- The keys of the facts that have a given parent, in order. -/
def childrenOf (facts : List Fact) (key : String) : List String :=
  (facts.filter (·.parentKey = key)).map (·.key)

/-- Every fact names the children its parent had before, where `known` are the children before the
first fact. -/
def Siblings (known : String → List String) : List Fact → Prop
  | [] => True
  | f :: rest =>
    f.olderSiblings = known f.parentKey ∧
      Siblings (fun key => known key ++ childrenOf [f] key) rest

theorem childrenOf_append (fs gs : List Fact) (key : String) :
    childrenOf (fs ++ gs) key = childrenOf fs key ++ childrenOf gs key := by
  simp [childrenOf]

theorem childrenOf_cons (f : Fact) (fs : List Fact) (key : String) :
    childrenOf (f :: fs) key = childrenOf [f] key ++ childrenOf fs key :=
  childrenOf_append [f] fs key

theorem childrenOf_eq_nil {facts : List Fact} {key : String}
    (h : ∀ f ∈ facts, f.parentKey ≠ key) : childrenOf facts key = [] := by
  rw [childrenOf, List.map_eq_nil_iff, List.filter_eq_nil_iff]
  intro f hf
  simpa using h f hf

theorem childrenOf_toFact (content : Content) (key : String) (parent : Frame) (k : String) :
    childrenOf [content.toFact key parent] k = if parent.key = k then [key] else [] := by
  by_cases h : parent.key = k <;> simp [childrenOf, Content.toFact, h]

theorem siblings_append {known : String → List String} {fs gs : List Fact} :
    Siblings known (fs ++ gs) ↔
      Siblings known fs ∧ Siblings (fun key => known key ++ childrenOf fs key) gs := by
  induction fs generalizing known with
  | nil => simp [Siblings, childrenOf]
  | cons f fs ih =>
    rw [List.cons_append, Siblings, Siblings, ih, and_assoc]
    simp only [childrenOf_cons f fs, List.append_assoc]

theorem Siblings.older {known : String → List String} {before after : List Fact} {f : Fact}
    (h : Siblings known (before ++ f :: after)) :
    f.olderSiblings = known f.parentKey ++ childrenOf before f.parentKey :=
  (siblings_append.1 h).2.1

namespace Forest

theorem parentKey_mem (f : Forest) {keys : KeyCounter} {parent : Frame} {g : Fact}
    (h : g ∈ f.facts keys parent) :
    g.parentKey = parent.key ∨
      ∃ m, keys.last < m ∧ m ≤ keys.last + f.size ∧ g.parentKey = keys.key m := by
  induction f generalizing keys parent with
  | nil => simp [facts] at h
  | fact content below after ihb iha =>
    rw [facts, List.mem_cons, List.mem_append] at h
    rw [size]
    rcases h with rfl | h | h
    · exact .inl rfl
    · right
      rcases ihb h with hk | ⟨m, hlo, hhi, hk⟩
      · exact ⟨keys.last + 1, by omega, by omega, hk⟩
      · rw [KeyCounter.advance_last] at hlo hhi
        exact ⟨m, by omega, by omega, hk⟩
    · rcases iha h with hk | ⟨m, hlo, hhi, hk⟩
      · exact .inl hk
      · rw [KeyCounter.advance_last] at hlo hhi
        exact .inr ⟨m, by omega, by omega, hk⟩
  | gap after ih =>
    rw [size]
    rcases ih h with hk | ⟨m, hlo, hhi, hk⟩
    · exact .inl hk
    · rw [KeyCounter.advance_last] at hlo hhi
      exact .inr ⟨m, by omega, by omega, hk⟩

theorem childrenOf_outside (f : Forest) {keys : KeyCounter} {parent : Frame} {key : String}
    (hparent : parent.key ≠ key)
    (hkey : ∀ m, keys.last < m → m ≤ keys.last + f.size → keys.key m ≠ key) :
    childrenOf (f.facts keys parent) key = [] := by
  refine childrenOf_eq_nil fun g hg => ?_
  rcases f.parentKey_mem hg with hk | ⟨m, hlo, hhi, hk⟩
  · rwa [hk]
  · rw [hk]
    exact hkey m hlo hhi

/-- Below a parent that gets no key any more, each fact of a forest names the children that its
parent had before it. -/
theorem siblings_facts (f : Forest) {keys : KeyCounter} {parent : Frame}
    {known : String → List String} (hp : ∀ n, keys.last < n → parent.key ≠ keys.key n)
    (hparent : known parent.key = parent.children)
    (hknown : ∀ n, keys.last < n → known (keys.key n) = []) :
    Siblings known (f.facts keys parent) := by
  induction f generalizing keys parent known with
  | nil => trivial
  | fact content below after ihb iha =>
    have hnew : ∀ n, keys.last + 1 < n → keys.key (keys.last + 1) ≠ keys.key n := by
      intro n hn heq
      rw [KeyCounter.key_inj] at heq
      omega
    have hlater : ∀ n, keys.last < n →
        known (keys.key n) ++
          childrenOf [content.toFact (keys.key (keys.last + 1)) parent] (keys.key n) = [] := by
      intro n hn
      rw [hknown n hn, childrenOf_toFact, if_neg (hp n hn), List.append_nil]
    rw [facts, Siblings, siblings_append]
    refine ⟨hparent.symm, ihb hnew (hlater _ (Nat.lt_succ_self _)) ?_, iha ?_ ?_ ?_⟩
    · intro n hn
      rw [KeyCounter.advance_last] at hn
      exact hlater n (by omega)
    · intro n hn
      rw [KeyCounter.advance_last] at hn
      exact hp n (by omega)
    · show (known parent.key ++ childrenOf [content.toFact _ parent] parent.key) ++
        childrenOf (below.facts _ _) parent.key = parent.children ++ [_]
      rw [below.childrenOf_outside (hp _ (Nat.lt_succ_self _)).symm, List.append_nil, hparent,
        childrenOf_toFact, if_pos rfl]
      intro m hm _
      rw [KeyCounter.advance_last] at hm
      exact (hp m (by omega)).symm
    · intro n hn
      rw [KeyCounter.advance_last] at hn
      rw [KeyCounter.advance_key, hlater n (by omega), List.nil_append]
      refine below.childrenOf_outside (hnew n (by omega)) fun m _ hm heq => ?_
      rw [KeyCounter.advance_key, KeyCounter.key_inj] at heq
      rw [KeyCounter.advance_last] at hm
      omega
  | gap after ih =>
    refine ih ?_ hparent ?_
    · intro n hn
      rw [KeyCounter.advance_last] at hn
      exact hp n (by omega)
    · intro n hn
      rw [KeyCounter.advance_last] at hn
      exact hknown n (by omega)

end Forest

end FactStream
