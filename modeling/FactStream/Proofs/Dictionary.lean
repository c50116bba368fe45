import FactStream.Dictionary

/-!
# Looking up what was inserted

A look-up finds what was inserted last under a key, and an insertion changes no other look-up
(`Dictionary.get?_insert`). So of several entries laid over a dictionary the last one under a key
counts (`Dictionary.get?_foldl_insert`). For dictionaries of numbers, inserting one more than what
was there raises the sum of the values by one (`Dictionary.sum_insert_succ`).
-/

namespace FactStream

theorem mem_of_lookup {β : Type} {l : List (String × β)} {k : String} {b : β}
    (h : l.lookup k = some b) : (k, b) ∈ l := by
  obtain ⟨l₁, l₂, rfl, -⟩ := List.lookup_eq_some_iff.1 h
  exact List.mem_append_right _ List.mem_cons_self

namespace Dictionary

variable {α : Type}

theorem lookup_place (key k : String) (value : α) (l : List (String × α)) :
    (place key value l).lookup k = if k = key then some value else l.lookup k := by
  induction l with
  | nil =>
    by_cases hk : k = key
    · simp [place, hk]
    · simp [place, hk, List.lookup_cons, beq_eq_false_iff_ne.2 hk]
  | cons head rest ih =>
    obtain ⟨k', v⟩ := head
    rw [place]
    split
    next heq =>
      subst heq
      by_cases hk : k = key
      · simp [hk]
      · simp [hk, List.lookup_cons, beq_eq_false_iff_ne.2 hk]
    next hne =>
      split
      next =>
        by_cases hk : k = key
        · simp [hk]
        · simp [hk, List.lookup_cons, beq_eq_false_iff_ne.2 hk]
      next =>
        rw [List.lookup_cons, List.lookup_cons, ih]
        by_cases hk : k = key
        · subst hk
          simp [beq_eq_false_iff_ne.2 hne]
        · simp [hk]

theorem get?_insert (d : Dictionary α) (key k : String) (value : α) :
    (d.insert key value).get? k = if k = key then some value else d.get? k :=
  lookup_place key k value d.entries

/-- Of the entries laid over a dictionary, the last one under a key counts. -/
theorem get?_foldl_insert {β : Type} (f : β → α) (given : List (String × β)) (d : Dictionary α)
    (k : String) :
    (given.foldl (fun d p => d.insert p.1 (f p.2)) d).get? k =
      ((given.reverse.lookup k).map f).or (d.get? k) := by
  induction given generalizing d with
  | nil => simp
  | cons p rest ih =>
    obtain ⟨key, value⟩ := p
    rw [List.foldl_cons, ih, get?_insert, List.reverse_cons, List.lookup_append]
    cases rest.reverse.lookup k with
    | some later => simp
    | none =>
      by_cases hk : k = key
      · simp [hk]
      · simp [hk, List.lookup_cons, beq_eq_false_iff_ne.2 hk]

theorem get?_filter_ne (d : Dictionary α) (key k : String) :
    (d.filter fun k _ => k ≠ key).get? k = if k = key then none else d.get? k := by
  simp only [get?, filter]
  induction d.entries with
  | nil => simp
  | cons head rest ih =>
    obtain ⟨k', v⟩ := head
    by_cases hkey : k' = key
    · subst hkey
      by_cases hk : k = k'
      · simpa [hk] using ih
      · simpa [hk, List.lookup_cons, beq_eq_false_iff_ne.2 hk] using ih
    · by_cases hk : k = k'
      · simp [hk, hkey]
      · simpa [hkey, List.lookup_cons, beq_eq_false_iff_ne.2 hk] using ih

theorem get?_of_mem (d : Dictionary α) {e : String × α} (h : e ∈ d.entries) :
    d.get? e.1 = some e.2 := by
  obtain ⟨entries, ascending⟩ := d
  show entries.lookup e.1 = some e.2
  induction entries with
  | nil => simp at h
  | cons head rest ih =>
    obtain ⟨hhead, hrest⟩ := List.pairwise_cons.1 ascending
    rcases List.mem_cons.1 h with rfl | h
    · exact List.lookup_cons_self
    · have hne : (e.1 == head.1) = false := by
        rw [beq_eq_false_iff_ne]
        intro heq
        have hlt := hhead e h
        rw [heq] at hlt
        exact String.lt_irrefl _ hlt
      rw [List.lookup_cons, hne]
      exact ih hrest h

/-! ## Sums -/

theorem lookup_eq_none_of_lt {key : String} {l : List (String × α)}
    (h : ∀ e ∈ l, key < e.1) : l.lookup key = none := by
  rw [List.lookup_eq_none_iff]
  intro e he
  rw [bne_iff_ne]
  intro hke
  have hlt := h e he
  rw [hke] at hlt
  exact String.lt_irrefl _ hlt

def sum (d : Dictionary Nat) : Nat :=
  d.values.foldr (· + ·) 0

theorem sum_place_succ {key : String} {l : List (String × Nat)}
    (h : l.Pairwise fun a b => a.1 < b.1) :
    ((place key ((l.lookup key).getD 0 + 1) l).map (·.2)).foldr (· + ·) 0 =
      (l.map (·.2)).foldr (· + ·) 0 + 1 := by
  induction l with
  | nil => rfl
  | cons head rest ih =>
    obtain ⟨k, v⟩ := head
    obtain ⟨hk, hrest⟩ := List.pairwise_cons.1 h
    rw [place]
    split
    next heq =>
      subst heq
      simp only [List.lookup_cons, beq_self_eq_true, List.map_cons, List.foldr_cons,
        Option.getD_some]
      omega
    next hne =>
      rw [List.lookup_cons, beq_eq_false_iff_ne.2 hne]
      split
      next hlt =>
        -- The entries ascend, so the key is not further on either.
        have hnone := lookup_eq_none_of_lt fun e he => String.lt_trans hlt (hk e he)
        simp only [hnone, List.map_cons, List.foldr_cons, Option.getD_none]
        omega
      next =>
        have := ih hrest
        simp only [List.map_cons, List.foldr_cons] at this ⊢
        omega

theorem sum_insert_succ (d : Dictionary Nat) (key : String) :
    (d.insert key ((d.get? key).getD 0 + 1)).sum = d.sum + 1 :=
  sum_place_succ d.ascending

end Dictionary

end FactStream
