import FactStream.Proofs.Diagnosis
import FactStream.Tree.Query

/-!
# Document order

Two sites stand one before the other if they lie within two children of one site, in this order.
Their addresses are then different (`Site.Before.address_ne`). The sites that a query names always
stand like this, each before all that follow it (`Query.pairwise_pick`).
-/

namespace FactStream

namespace Site

/-- `d` is `s` itself or below it. -/
def Within (d s : Site) : Prop := d = s ∨ d.Below s

/-- Within `s`, the site `a` stands before `b`. -/
inductive Before (s : Site) : Site → Site → Prop where
  | intro {t x y a b : Site} : t.Within s → [x, y].Sublist t.children → a.Within x → b.Within y →
      Before s a b

theorem Within.refl (s : Site) : s.Within s := .inl rfl

theorem Below.within {d s : Site} (h : d.Below s) : d.Within s := .inr h

theorem Within.trans {e d s : Site} (h : e.Within d) (h' : d.Within s) : e.Within s := by
  rcases h with rfl | h
  · exact h'
  · rcases h' with rfl | h'
    · exact .inr h
    · exact .inr (h.trans h')

theorem Before.mono {s a b a' b' : Site} (h : s.Before a b) (ha : a'.Within a)
    (hb : b'.Within b) : s.Before a' b' := by
  obtain ⟨ht, hsub, hx, hy⟩ := h
  exact ⟨ht, hsub, ha.trans hx, hb.trans hy⟩

theorem Before.of_within {d s a b : Site} (h : d.Before a b) (hd : d.Within s) :
    s.Before a b := by
  obtain ⟨ht, hsub, hx, hy⟩ := h
  exact ⟨ht.trans hd, hsub, hx, hy⟩

theorem map_val_inner (s : Site) : s.inner.map (·.val) = s.children :=
  (List.map_map ..).trans (List.attach_map_subtype_val s.children)

theorem mem_children_of_mem_inner {s : Site} {d : Inner s} (h : d ∈ s.inner) :
    d.val ∈ s.children := by
  rw [← s.map_val_inner]
  exact List.mem_map_of_mem h

theorem map_node_children (s : Site) : s.children.map (·.node) = s.node.children := by
  rw [children, List.map_map]
  exact List.zipIdx_map_fst 0 s.node.children

theorem Below.mem_preorder {d s : Site} (h : d.Below s) {m : Node} (hm : m ∈ d.node.preorder) :
    m ∈ s.node.preorder := by
  induction h with
  | child hd => exact Node.mem_preorder_of_child (node_mem_of_mem_children hd) hm
  | step he _ ih => exact ih (Node.mem_preorder_of_child (node_mem_of_mem_children he) hm)

/-! ## Addresses -/

theorem map_address_children (s : Site) :
    s.children.map (·.address) =
      (List.range' 0 s.node.children.length).map (· :: s.address) := by
  rw [children, List.map_map, ← List.zipIdx_map_snd, List.map_map]
  rfl

theorem exists_address_of_mem_children {d s : Site} (h : d ∈ s.children) :
    ∃ i, d.address = i :: s.address := by
  have hmem : d.address ∈ s.children.map (·.address) := List.mem_map_of_mem h
  rw [map_address_children] at hmem
  obtain ⟨i, -, hi⟩ := List.mem_map.1 hmem
  exact ⟨i, hi.symm⟩

theorem Below.address_length_lt {d s : Site} (h : d.Below s) :
    s.address.length < d.address.length := by
  induction h with
  | child hd =>
    obtain ⟨i, hi⟩ := exists_address_of_mem_children hd
    rw [hi]
    exact Nat.lt_succ_self _
  | step he _ ih =>
    obtain ⟨i, hi⟩ := exists_address_of_mem_children he
    rw [hi]
    exact Nat.lt_succ_of_lt ih

theorem Within.address_suffix {d s : Site} (h : d.Within s) : s.address <:+ d.address := by
  rcases h with rfl | h
  · exact List.suffix_rfl
  · induction h with
    | child hd =>
      obtain ⟨i, hi⟩ := exists_address_of_mem_children hd
      exact ⟨[i], hi.symm⟩
    | step he _ ih =>
      obtain ⟨i, hi⟩ := exists_address_of_mem_children he
      rw [hi]
      exact ih.trans (List.suffix_cons i _)

/-- Sites that stand one before the other are not at the same place: their addresses end
differently from the child on in which they lie. -/
theorem Before.address_ne {s a b : Site} (h : s.Before a b) : a.address ≠ b.address := by
  cases h with
  | @intro t x y _ _ _ hsub ha hb =>
    have hxy : x.address ≠ y.address := by
      have hnodup : (t.children.map (·.address)).Nodup := by
        rw [map_address_children]
        exact List.Pairwise.map _ (fun i j hne heq => hne (List.cons.inj heq).1) List.nodup_range'
      have hpair := (List.pairwise_map.1 hnodup).sublist hsub
      exact List.rel_of_pairwise_cons hpair (List.mem_singleton_self y)
    have hlength : x.address.length = y.address.length := by
      obtain ⟨i, hi⟩ := exists_address_of_mem_children (hsub.subset (List.mem_cons_self (a := x)))
      obtain ⟨j, hj⟩ := exists_address_of_mem_children
        (hsub.subset (List.mem_cons_of_mem x (List.mem_singleton_self y)))
      rw [hi, hj, List.length_cons, List.length_cons]
    intro heq
    have hx := ha.address_suffix
    rw [heq] at hx
    exact hxy ((List.suffix_of_suffix_length_le hx hb.address_suffix
      (Nat.le_of_eq hlength)).eq_of_length hlength)

end Site

/-! ## Queries -/

/-- Sites below `s` that stand one before the other. -/
def InOrderBelow {s : Site} (l : List (Inner s)) : Prop :=
  l.Pairwise fun a b => s.Before a.val b.val

namespace InOrderBelow

variable {s : Site} {l : List (Inner s)}

theorem inner (s : Site) : InOrderBelow s.inner := by
  have h : s.children.Pairwise s.Before := by
    rw [List.pairwise_iff_forall_sublist]
    intro x y hxy
    exact .intro (.refl s) hxy (.refl x) (.refl y)
  rwa [← s.map_val_inner, List.pairwise_map] at h

theorem namedInner (s : Site) : InOrderBelow (Query.namedInner s) :=
  (inner s).filter _

theorem lift (d : Inner s) {l : List (Inner d.val)} (h : InOrderBelow l) :
    InOrderBelow (l.map d.lift) :=
  List.pairwise_map.2 (h.imp fun hab => hab.of_within d.property.within)

theorem flatMap {f : Inner s → List (Inner s)} (hl : InOrderBelow l)
    (hwithin : ∀ d, ∀ e ∈ f d, e.val.Within d.val) (hf : ∀ d, InOrderBelow (f d)) :
    InOrderBelow (l.flatMap f) := by
  refine List.pairwise_flatMap.2 ⟨fun d _ => hf d, hl.imp fun {a b} hab => ?_⟩
  intro x hx y hy
  exact hab.mono (hwithin a x hx) (hwithin b y hy)

end InOrderBelow

theorem Inner.within_of_mem_lift {s : Site} (d : Inner s) {l : List (Inner d.val)} {e : Inner s}
    (h : e ∈ l.map d.lift) : e.val.Within d.val := by
  obtain ⟨e, -, rfl⟩ := List.mem_map.1 h
  exact e.property.within

namespace Query

theorem within_of_mem_unwrap {s : Site} {kinds : List String} {d e : Inner s}
    (h : e ∈ if kinds.contains d.head.kind then (namedInner d.val).map d.lift else [d]) :
    e.val.Within d.val := by
  split at h
  · exact d.within_of_mem_lift h
  · rw [List.mem_singleton.1 h]
    exact .refl _

theorem within_strip {s : Site} (kind : String) (d : Inner s) :
    (if d.head.kind == kind then
      match namedInner d.val with
      | [] => d
      | e :: _ => d.lift e
    else d).val.Within d.val := by
  split
  · cases namedInner d.val with
    | nil => exact .refl _
    | cons e _ => exact e.property.within
  · exact .refl _

/-- The answer to a query is in document order. -/
theorem pairwise_pick (q : Query) (s : Site) : InOrderBelow (q.pick s) := by
  induction q generalizing s with
  | field label =>
    rw [pick]
    cases s.inner.find? _ with
    | none => exact .nil
    | some d => exact List.pairwise_singleton _ d
  | named => exact .namedInner s
  | filter t q ih => exact (ih s).filter _
  | first q ih => exact (ih s).sublist (List.take_sublist 1 _)
  | within q r ihq ihr =>
    exact (ihq s).flatMap (fun d e he => d.within_of_mem_lift he) fun d => .lift d (ihr d.val)
  | orElse q r ihq ihr =>
    rw [pick]
    split
    · exact ihr s
    · exact ihq s
  | unwrap kinds q ih =>
    refine (ih s).flatMap (fun d e he => within_of_mem_unwrap he) fun d => ?_
    split
    · exact .lift d (.namedInner d.val)
    · exact List.pairwise_singleton _ d
  | strip kind q ih =>
    rw [pick, List.map_eq_flatMap]
    refine (ih s).flatMap (fun d e he => ?_) fun d => List.pairwise_singleton _ _
    rw [List.mem_singleton.1 he]
    exact within_strip kind d

end Query

end FactStream
