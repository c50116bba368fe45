import FactStream.Proofs.Lineage

/-!
# Picking facts from a stream

Some facts of a stream are asked for, by their content. Those that are wanted then are the facts
asked for, all that is below them, and the directories above them. `Forest.pick` replaces all others
by gaps, so the facts that stay keep their keys. The stream of what is picked is the old stream
without the facts that are not wanted, and without their keys among the older siblings
(`Forest.facts_pick`).

A forest that `Stands` in a stream has its facts there in one block. So the descendants of a fact in
the stream are the facts below it in the forest (`Forest.Stands.descendants`).
-/

namespace FactStream

/-- What a fact says apart from its place in the stream. -/
def Fact.content (f : Fact) : Content where
  commonKind := f.commonKind
  kind := f.kind
  nameSpace := f.nameSpace
  orderable := f.orderable
  properties := f.properties

/-- The fact without the older siblings that are not among the facts kept. -/
def Fact.restrict (kept : List Fact) (f : Fact) : Fact :=
  { f with olderSiblings := f.olderSiblings.filter fun k => k ∈ kept.map (·.key) }

/-! ## Wanted facts -/

section Wanted

variable (asked : Content → Bool) (facts : List Fact)

/-- The fact is asked for, or is below one that is. -/
def InAsked (f : Fact) : Prop :=
  ∃ a ∈ facts, asked a.content = true ∧ (a = f ∨ Ancestor facts a f)

/-- There is a fact asked for below the fact. -/
def AboveAsked (f : Fact) : Prop :=
  ∃ a ∈ facts, asked a.content = true ∧ Ancestor facts f a

/-- The fact of the project, a fact in what is asked for, or a directory above it. -/
def Wanted (f : Fact) : Prop :=
  f.parentKey = "" ∨ InAsked asked facts f ∨ (f.commonKind = .dir ∧ AboveAsked asked facts f)

end Wanted

/-! ## Forests in a stream -/

/-- If what follows a block is a child of a fact before `f`, then nothing that follows is below
`f`. -/
theorem InOrder.mem_of_ancestor {stream before block rest : List Fact} {f g : Fact}
    (h : InOrder stream) (hs : stream = before ++ f :: (block ++ rest))
    (hnext : ∀ e, rest.head? = some e → ∃ p ∈ before, e.parentKey = p.key) (hg : g ∈ stream)
    (hanc : Ancestor stream f g) : g ∈ block := by
  have hnodup : (before ++ f :: (block ++ rest)).Nodup := hs ▸ List.Nodup.of_map _ h.nodup
  rw [List.nodup_middle, List.nodup_cons, List.mem_append, List.mem_append, not_or,
    not_or] at hnodup
  obtain ⟨⟨hbefore, -, hrest⟩, -⟩ := hnodup
  have hsub : ∀ p ∈ before, p ∈ stream := fun p hp => hs ▸ List.mem_append_left _ hp
  have hnot : ∀ p ∈ before, ¬ Ancestor stream f p := by
    intro p hp hfp
    obtain ⟨init, tail, rfl⟩ := List.append_of_mem hp
    have hs' : stream = init ++ p :: (tail ++ f :: (block ++ rest)) := by
      rw [hs, List.append_assoc]
      rfl
    exact hbefore (List.mem_append_left _ (h.ancestor_mem hfp hs'))
  rw [hs, List.mem_append, List.mem_cons, List.mem_append] at hg
  rcases hg with hg | rfl | hg | hg
  · exact absurd hanc (hnot g hg)
  · exact absurd (h.ancestor_mem hanc hs) hbefore
  · exact hg
  · cases rest with
    | nil => simp at hg
    | cons e rest =>
      obtain ⟨p, hp, hk⟩ := hnext e rfl
      have hstop : ¬ Ancestor stream f e := by
        intro hfe
        cases hfe with
        | single hq => exact hbefore (h.eq_of_key hq.1 (hsub p hp) (hq.2.symm.trans hk) ▸ hp)
        | tail hfq hq =>
          rw [h.eq_of_key hq.1 (hsub p hp) (hq.2.symm.trans hk)] at hfq
          exact hnot p hp hfq
      rw [List.mem_cons, not_or] at hrest
      rcases List.mem_cons.1 hg with rfl | hg
      · exact absurd hanc hstop
      · have hs' : stream = (before ++ f :: block) ++ e :: rest := by
          rw [hs, List.append_assoc]
          rfl
        have hf : f ∈ stream := hanc.mem
        exact absurd hanc
          (h.not_ancestor_after hf rest _ e hs' (Ne.symm hrest.1) hrest.2 hstop g hg)

namespace Forest

theorem parentKey_of_head {f : Forest} {keys : KeyCounter} {parent : Frame} {e : Fact}
    (h : (f.facts keys parent).head? = some e) : e.parentKey = parent.key := by
  induction f generalizing keys with
  | nil => simp [facts] at h
  | fact content below after _ _ =>
    obtain rfl := Option.some.inj h
    rfl
  | gap after ih => exact ih h

/-- In a stream, the facts of a forest stand between `before` and `rest`. Their parent comes before
them, and what comes after them is not below them. -/
structure Stands (stream before : List Fact) (f : Forest) (keys : KeyCounter) (parent : Frame)
    (rest : List Fact) (holder : Fact) : Prop where
  split : stream = before ++ (f.facts keys parent ++ rest)
  holder_mem : holder ∈ before
  holder_key : holder.key = parent.key
  next : ∀ e, rest.head? = some e → ∃ p ∈ before, e.parentKey = p.key

variable {stream before rest : List Fact} {keys : KeyCounter} {parent : Frame} {holder : Fact}

namespace Stands

variable {content : Content} {below after : Forest}

theorem of_gap (h : Stands stream before (gap after) keys parent rest holder) :
    Stands stream before after (keys.advance 1) parent rest holder :=
  ⟨h.split, h.holder_mem, h.holder_key, h.next⟩

theorem mem_facts {f : Forest} (h : Stands stream before f keys parent rest holder) {g : Fact}
    (hg : g ∈ f.facts keys parent) : g ∈ stream := by
  rw [h.split]
  exact List.mem_append_right _ (List.mem_append_left _ hg)

theorem holder_mem_stream {f : Forest} (h : Stands stream before f keys parent rest holder) :
    holder ∈ stream := by
  rw [h.split]
  exact List.mem_append_left _ h.holder_mem

variable (h : Stands stream before (fact content below after) keys parent rest holder)

include h

theorem head_mem : content.toFact (keys.key (keys.last + 1)) parent ∈ stream :=
  h.mem_facts List.mem_cons_self

theorem parentAmong :
    ParentAmong stream holder (content.toFact (keys.key (keys.last + 1)) parent) :=
  ⟨h.holder_mem_stream, h.holder_key.symm⟩

theorem next_after {e : Fact}
    (he : (after.facts (keys.advance (below.size + 1))
      (parent.addChild (keys.key (keys.last + 1))).2 ++ rest).head? = some e) :
    ∃ p ∈ before, e.parentKey = p.key := by
  rw [List.head?_append, Option.or_eq_some_iff] at he
  rcases he with he | ⟨-, he⟩
  · exact ⟨holder, h.holder_mem, (parentKey_of_head he).trans h.holder_key.symm⟩
  · exact h.next e he

theorem below_stands :
    Stands stream (before ++ [content.toFact (keys.key (keys.last + 1)) parent]) below
      (keys.advance 1) { key := keys.key (keys.last + 1) }
      (after.facts (keys.advance (below.size + 1)) (parent.addChild (keys.key (keys.last + 1))).2 ++
        rest) (content.toFact (keys.key (keys.last + 1)) parent) where
  split := by
    rw [h.split, facts]
    simp only [List.append_assoc, List.cons_append, List.nil_append]
  holder_mem := List.mem_append_right _ (List.mem_singleton_self _)
  holder_key := rfl
  next e he := by
    obtain ⟨p, hp, hk⟩ := h.next_after he
    exact ⟨p, List.mem_append_left _ hp, hk⟩

theorem after_stands :
    Stands stream
      (before ++ content.toFact (keys.key (keys.last + 1)) parent ::
        below.facts (keys.advance 1) { key := keys.key (keys.last + 1) }) after
      (keys.advance (below.size + 1)) (parent.addChild (keys.key (keys.last + 1))).2 rest
      holder where
  split := by
    rw [h.split, facts]
    simp only [List.append_assoc, List.cons_append]
  holder_mem := List.mem_append_left _ h.holder_mem
  holder_key := h.holder_key
  next e he := by
    obtain ⟨p, hp, hk⟩ := h.next e he
    exact ⟨p, List.mem_append_left _ hp, hk⟩

end Stands

theorem Stands.ancestor {f : Forest} (h : Stands stream before f keys parent rest holder) :
    ∀ g ∈ f.facts keys parent, Ancestor stream holder g := by
  induction f generalizing before keys parent rest holder with
  | nil => simp [facts]
  | fact content below after ihb iha =>
    intro g hg
    rw [facts, List.mem_cons, List.mem_append] at hg
    rcases hg with rfl | hg | hg
    · exact .single h.parentAmong
    · exact .trans (.single h.parentAmong) (ihb h.below_stands g hg)
    · exact iha h.after_stands g hg
  | gap after ih => exact ih h.of_gap

section Order

variable {content : Content} {below after : Forest} (horder : InOrder stream)
  (h : Stands stream before (fact content below after) keys parent rest holder)

include horder h

theorem Stands.ancestor_head {a : Fact} :
    Ancestor stream a (content.toFact (keys.key (keys.last + 1)) parent) ↔
      a = holder ∨ Ancestor stream a holder := by
  have huniq : ∀ p, ParentAmong stream p (content.toFact (keys.key (keys.last + 1)) parent) →
      p = holder := fun p hp =>
    horder.eq_of_key hp.1 h.holder_mem_stream (hp.2.symm.trans h.holder_key.symm)
  constructor
  · intro hanc
    cases hanc with
    | single hp => exact .inl (huniq a hp)
    | tail hanc hp =>
      rw [huniq _ hp] at hanc
      exact .inr hanc
  · rintro (rfl | hanc)
    · exact .single h.parentAmong
    · exact .tail hanc h.parentAmong

theorem Stands.descendants {g : Fact} (hg : g ∈ stream) :
    Ancestor stream (content.toFact (keys.key (keys.last + 1)) parent) g ↔
      g ∈ below.facts (keys.advance 1) { key := keys.key (keys.last + 1) } := by
  refine ⟨fun hanc => ?_, h.below_stands.ancestor g⟩
  have hsplit := h.below_stands.split
  rw [List.append_assoc, List.singleton_append] at hsplit
  exact horder.mem_of_ancestor hsplit (fun e => h.next_after) hg hanc

end Order

/-- There is a fact with this content in a forest, and `inner` is what is below it. -/
def Has : Forest → (content : Content) → (inner : Forest) → Prop
  | nil, _, _ => False
  | fact c below after, content, inner =>
    (c = content ∧ below = inner) ∨ below.Has content inner ∨ after.Has content inner
  | gap after, content, inner => after.Has content inner

theorem has_append {content : Content} {inner f g : Forest}
    (h : f.Has content inner ∨ g.Has content inner) : (f ++ g).Has content inner := by
  induction f with
  | nil => exact h.resolve_left not_false
  | fact c below after _ ih =>
    rcases h with (hhere | hbelow | hafter) | hg
    · exact .inl hhere
    · exact .inr (.inl hbelow)
    · exact .inr (.inr (ih (.inl hafter)))
    · exact .inr (.inr (ih (.inr hg)))
  | gap after ih => exact ih h

theorem Stands.of_has {content : Content} {inner f : Forest}
    (h : Stands stream before f keys parent rest holder) (hhas : f.Has content inner) :
    ∃ n before' parent' after rest' holder',
      Stands stream before' (fact content inner after) (keys.advance n) parent' rest' holder' := by
  induction f generalizing before keys parent rest holder with
  | nil => exact hhas.elim
  | fact c below after ihb iha =>
    rcases hhas with ⟨rfl, rfl⟩ | hbelow | hafter
    · exact ⟨0, _, _, _, _, _, h⟩
    · obtain ⟨n, before', parent', after', rest', holder', h'⟩ := ihb h.below_stands hbelow
      rw [KeyCounter.advance_advance] at h'
      exact ⟨_, _, _, _, _, _, h'⟩
    · obtain ⟨n, before', parent', after', rest', holder', h'⟩ := iha h.after_stands hafter
      rw [KeyCounter.advance_advance] at h'
      exact ⟨_, _, _, _, _, _, h'⟩
  | gap after ih =>
    obtain ⟨n, before', parent', after', rest', holder', h'⟩ := ih h.of_gap hhas
    rw [KeyCounter.advance_advance] at h'
    exact ⟨_, _, _, _, _, _, h'⟩

/-! ## Picking -/

/-- Whether a fact of a forest is asked for. -/
def any (asked : Content → Bool) : Forest → Bool
  | nil => false
  | fact content below after => asked content || below.any asked || after.any asked
  | gap after => after.any asked

/-- Gaps before a forest. -/
def skip : Nat → Forest → Forest
  | 0, f => f
  | n + 1, f => gap (skip n f)

/-- The forest with gaps for the facts that are neither asked for nor above one that is. If the
forest is `inside` a fact asked for, all of it stays. -/
def pick (asked : Content → Bool) (inside : Bool) : Forest → Forest
  | nil => nil
  | fact content below after =>
    if inside || asked content || below.any asked then
      fact content (below.pick asked (inside || asked content)) (after.pick asked inside)
    else skip (below.size + 1) (after.pick asked inside)
  | gap after => gap (after.pick asked inside)

/-- Only directories have facts below them that are asked for. -/
def Framed (asked : Content → Bool) : Forest → Prop
  | nil => True
  | fact content below after =>
    (below.any asked = true → content.commonKind = .dir) ∧ below.Framed asked ∧ after.Framed asked
  | gap after => after.Framed asked

section Pick

variable {asked : Content → Bool}

theorem size_skip (n : Nat) (f : Forest) : (skip n f).size = n + f.size := by
  induction n with
  | zero => simp [skip]
  | succ n ih =>
    rw [skip, size, ih]
    omega

theorem facts_skip (n : Nat) (f : Forest) (keys : KeyCounter) (parent : Frame) :
    (skip n f).facts keys parent = f.facts (keys.advance n) parent := by
  induction n generalizing keys with
  | zero => rfl
  | succ n ih => rw [skip, facts, ih, KeyCounter.advance_advance, Nat.add_comm]

theorem skip_append (n : Nat) (f g : Forest) : skip n f ++ g = skip n (f ++ g) := by
  induction n with
  | zero => rfl
  | succ n ih => rw [skip, skip, gap_append, ih]

theorem hasFact_skip (n : Nat) (f : Forest) : (skip n f).hasFact = f.hasFact := by
  induction n with
  | zero => rfl
  | succ n ih => rw [skip, hasFact, ih]

theorem pick_append (inside : Bool) (f g : Forest) :
    (f ++ g).pick asked inside = f.pick asked inside ++ g.pick asked inside := by
  induction f with
  | nil => rfl
  | fact content below after _ ih =>
    rw [fact_append, pick, pick, ih]
    split
    · rw [fact_append]
    · rw [skip_append]
  | gap after ih => rw [gap_append, pick, pick, ih, gap_append]

theorem size_pick (inside : Bool) (f : Forest) : (f.pick asked inside).size = f.size := by
  induction f generalizing inside with
  | nil => rfl
  | fact content below after ihb iha =>
    rw [pick]
    split
    · rw [size, size, ihb, iha]
    · rw [size_skip, size, iha]
  | gap after ih => rw [pick, size, size, ih]

theorem hasFact_pick (f : Forest) : (f.pick asked false).hasFact = f.any asked := by
  induction f with
  | nil => rfl
  | fact content below after _ ih =>
    rw [pick, any]
    split
    next h =>
      rw [Bool.false_or] at h
      rw [h, Bool.true_or]
      rfl
    next h =>
      rw [Bool.false_or, Bool.not_eq_true] at h
      rw [h, hasFact_skip, ih, Bool.false_or]
  | gap after ih => rw [pick, hasFact, any, ih]

theorem any_iff (f : Forest) (keys : KeyCounter) (parent : Frame) :
    f.any asked = true ↔ ∃ g ∈ f.facts keys parent, asked g.content = true := by
  induction f generalizing keys parent with
  | nil => simp [any, facts]
  | fact content below after ihb iha =>
    have hhead : asked (content.toFact (keys.key (keys.last + 1)) parent).content = asked content :=
      rfl
    rw [any, Bool.or_eq_true, Bool.or_eq_true, ihb (keys.advance 1)
      { key := keys.key (keys.last + 1) }, iha (keys.advance (below.size + 1))
      (parent.addChild (keys.key (keys.last + 1))).2, facts]
    simp only [List.mem_cons, List.mem_append, or_and_right, exists_or, exists_eq_left, hhead,
      or_assoc]
  | gap after ih => exact ih (keys.advance 1) parent

theorem framed_of_not_any {f : Forest} (h : f.any asked = false) : f.Framed asked := by
  induction f with
  | nil => trivial
  | fact content below after ihb iha =>
    rw [any, Bool.or_eq_false_iff, Bool.or_eq_false_iff] at h
    obtain ⟨⟨-, hbelow⟩, hafter⟩ := h
    refine ⟨fun hany => ?_, ihb hbelow, iha hafter⟩
    rw [hbelow] at hany
    exact absurd hany (by decide)
  | gap after ih => exact ih h

theorem framed_append {f g : Forest} (hf : f.Framed asked) (hg : g.Framed asked) :
    (f ++ g).Framed asked := by
  induction f with
  | nil => exact hg
  | fact content below after _ ih => exact ⟨hf.1, hf.2.1, ih hf.2.2⟩
  | gap after ih => exact ih hf

/-! ## The stream of what is picked -/

section Stream

variable {content : Content} {below after : Forest} (horder : InOrder stream)

include horder

theorem Stands.inAsked_head
    (h : Stands stream before (fact content below after) keys parent rest holder) :
    InAsked asked stream (content.toFact (keys.key (keys.last + 1)) parent) ↔
      asked content = true ∨ InAsked asked stream holder := by
  constructor
  · rintro ⟨a, ha, hasked, rfl | hanc⟩
    · exact .inl hasked
    · rcases (h.ancestor_head horder).1 hanc with rfl | hanc
      · exact .inr ⟨a, ha, hasked, .inl rfl⟩
      · exact .inr ⟨a, ha, hasked, .inr hanc⟩
  · rintro (hasked | ⟨a, ha, hasked, hanc⟩)
    · exact ⟨_, h.head_mem, hasked, .inl rfl⟩
    · exact ⟨a, ha, hasked, .inr ((h.ancestor_head horder).2 (hanc.imp_left id))⟩

theorem Stands.aboveAsked_head
    (h : Stands stream before (fact content below after) keys parent rest holder) :
    AboveAsked asked stream (content.toFact (keys.key (keys.last + 1)) parent) ↔
      below.any asked = true := by
  rw [any_iff below (keys.advance 1) { key := keys.key (keys.last + 1) }]
  constructor
  · rintro ⟨a, ha, hasked, hanc⟩
    exact ⟨a, (h.descendants horder ha).1 hanc, hasked⟩
  · rintro ⟨a, ha, hasked⟩
    have hmem := h.below_stands.mem_facts ha
    exact ⟨a, hmem, hasked, (h.descendants horder hmem).2 ha⟩

theorem Stands.wanted_head (hroot : parent.key ≠ "")
    (h : Stands stream before (fact content below after) keys parent rest holder)
    (hdir : below.any asked = true → content.commonKind = .dir) :
    Wanted asked stream (content.toFact (keys.key (keys.last + 1)) parent) ↔
      (asked content = true ∨ InAsked asked stream holder) ∨ below.any asked = true := by
  rw [Wanted, h.inAsked_head horder, h.aboveAsked_head horder]
  constructor
  · rintro (hempty | hin | ⟨-, hany⟩)
    · exact absurd hempty hroot
    · exact .inl hin
    · exact .inr hany
  · rintro (hin | hany)
    · exact .inr (.inl hin)
    · exact .inr (.inr ⟨hdir hany, hany⟩)

theorem key_mem_kept {keep : Fact → Bool} {f : Fact} (hf : f ∈ stream) :
    f.key ∈ (stream.filter keep).map (·.key) ↔ keep f = true := by
  rw [List.mem_map]
  constructor
  · rintro ⟨g, hg, hk⟩
    obtain ⟨hg, hkeep⟩ := List.mem_filter.1 hg
    rwa [← horder.eq_of_key hg hf hk]
  · intro hkeep
    exact ⟨f, List.mem_filter.2 ⟨hf, hkeep⟩, rfl⟩

theorem filter_children (keep : Fact → Bool) {f : Fact} (hf : f ∈ stream)
    (children : List String) :
    (children ++ [f.key]).filter (fun k => k ∈ (stream.filter keep).map (·.key)) =
      children.filter (fun k => k ∈ (stream.filter keep).map (·.key)) ++
        if keep f then [f.key] else [] := by
  rw [List.filter_append, List.filter_singleton]
  simp only [key_mem_kept horder hf, Bool.decide_eq_true, Bool.cond_eq_ite]

/-- What is picked from a forest gives the facts that are wanted. -/
theorem facts_pick {keep : Fact → Bool} (hkeep : ∀ f, keep f = true ↔ Wanted asked stream f)
    (f : Forest) {parent' : Frame} {inside : Bool}
    (h : Stands stream before f keys parent rest holder) (hframed : f.Framed asked)
    (hinside : inside = true ↔ InAsked asked stream holder)
    (hroot : parent.key ≠ "") (hkey : parent'.key = parent.key)
    (hchildren : parent'.children =
      parent.children.filter fun k => k ∈ (stream.filter keep).map (·.key)) :
    (f.pick asked inside).facts keys parent' =
      ((f.facts keys parent).filter keep).map (Fact.restrict (stream.filter keep)) := by
  induction f generalizing before rest keys parent parent' holder inside with
  | nil => rfl
  | gap after ih => exact ih h.of_gap hframed hinside hroot hkey hchildren
  | fact content below after ihb iha =>
    -- Whether the first fact is wanted decides how the rest of the induction goes on.
    generalize hx : content.toFact (keys.key (keys.last + 1)) parent = x
    have hmem : x ∈ stream := hx ▸ h.head_mem
    have hin : (inside || asked content) = true ↔ InAsked asked stream x := by
      rw [← hx, h.inAsked_head horder, ← hinside, Bool.or_eq_true, or_comm]
    have hkept : (inside || asked content || below.any asked) = keep x := by
      rw [Bool.eq_iff_iff, Bool.or_eq_true, hin, hkeep, ← hx, h.inAsked_head horder,
        h.wanted_head horder hroot hframed.1]
    have hlast := filter_children horder keep hmem parent.children
    rw [← hchildren, show x.key = keys.key (keys.last + 1) from hx ▸ rfl] at hlast
    have hbelow := ihb h.below_stands hframed.2.1 (hx ▸ hin) (keys.key_ne_empty _) rfl rfl
    rw [pick, hkept, facts, hx]
    cases hkeepx : keep x with
    | true =>
      rw [hkeepx, if_pos rfl] at hlast
      have hgrown : (parent'.addChild (keys.key (keys.last + 1))).2.key = parent.key := hkey
      have hafter := iha h.after_stands hframed.2.2 hinside hroot hgrown hlast.symm
      have hhead : content.toFact (keys.key (keys.last + 1)) parent' =
          x.restrict (stream.filter keep) := by
        rw [← hx, Fact.restrict, Content.toFact, hkey, hchildren]
        rfl
      rw [if_pos rfl, facts, size_pick, hhead, hbelow, hafter, List.filter_cons_of_pos hkeepx,
        List.filter_append, List.map_cons, List.map_append]
    | false =>
      rw [hkeepx, if_neg Bool.false_ne_true, List.append_nil] at hlast
      rw [hkeepx, Bool.or_eq_false_iff] at hkept
      obtain ⟨houtside, hnone⟩ := hkept
      -- Nothing is asked for below, so nothing below is wanted either.
      have hnothing : (below.pick asked false).hasFact = false := by rw [hasFact_pick, hnone]
      rw [houtside, facts_of_not_hasFact hnothing, eq_comm, List.map_eq_nil_iff] at hbelow
      have hafter := iha h.after_stands hframed.2.2 hinside hroot hkey hlast.symm
      rw [if_neg Bool.false_ne_true, facts_skip, hafter,
        List.filter_cons_of_neg (by rw [hkeepx]; exact Bool.false_ne_true), List.filter_append,
        hbelow, List.nil_append]

end Stream

end Pick

end Forest

end FactStream
