import FactStream.Text.Slice

/-!
# Cutting what was put together

A text that is put together from parts is cut into the same parts again: a known start or end
(`dropStart?_append`, `dropEnd?_append`), a number of bytes (`takeBytes?_append`), parts with a
separator between them (`split_joinLists`).
-/

namespace FactStream.Text

/-! ## Starts and ends -/

@[simp] theorem dropStart?_append (start rest : List Char) :
    dropStart? start (start ++ rest) = some rest := by
  have hstart : start.isPrefixOf (start ++ rest) = true :=
    List.isPrefixOf_iff_prefix.2 (List.prefix_append _ _)
  rw [dropStart?, if_pos hstart, List.drop_left]

theorem dropStart?_cons_of_ne {c d : Char} (h : c ≠ d) (start rest : List Char) :
    dropStart? (c :: start) (d :: rest) = none := by
  rw [dropStart?, if_neg]
  intro hprefix
  exact h (List.cons_prefix_cons.1 (List.isPrefixOf_iff_prefix.1 hprefix)).1

theorem dropStart?_of_not_mem {start cs : List Char} {x : Char} (hx : x ∈ start) (h : x ∉ cs) :
    dropStart? start cs = none := by
  rw [dropStart?, if_neg]
  intro hprefix
  exact h ((List.isPrefixOf_iff_prefix.1 hprefix).subset hx)

@[simp] theorem dropEnd?_append (rest stop : List Char) :
    dropEnd? stop (rest ++ stop) = some rest := by
  have hstop : stop.isSuffixOf (rest ++ stop) = true :=
    List.isSuffixOf_iff_suffix.2 (List.suffix_append _ _)
  rw [dropEnd?, if_pos hstop, List.length_append, Nat.add_sub_cancel, List.take_left]

theorem dropEnd?_of_getLast?_ne {stop cs : List Char} (hstop : stop ≠ [])
    (h : cs.getLast? ≠ stop.getLast?) : dropEnd? stop cs = none := by
  rw [dropEnd?, if_neg]
  intro hsuffix
  obtain ⟨rest, rfl⟩ := List.isSuffixOf_iff_suffix.1 hsuffix
  rw [List.getLast?_append, Option.or_of_isSome (List.getLast?_isSome.2 hstop)] at h
  exact h rfl

theorem trimEnd_append {p : Char → Bool} {l r : List Char}
    (hl : ∀ c, l.getLast? = some c → p c = false) (hr : ∀ c ∈ r, p c = true) :
    trimEnd p (l ++ r) = l := by
  have hdrop : l.reverse.dropWhile p = l.reverse := by
    rw [← List.head?_reverse] at hl
    cases hrev : l.reverse with
    | nil => rfl
    | cons c rest =>
      rw [hrev] at hl
      rw [List.dropWhile_cons, hl c rfl]
      rfl
  rw [trimEnd, List.reverse_append,
    List.dropWhile_append_of_pos fun c hc => hr c (List.mem_reverse.1 hc), hdrop,
    List.reverse_reverse]

/-! ## Bytes -/

@[simp] theorem byteLength_append (l r : List Char) :
    byteLength (l ++ r) = byteLength l + byteLength r := by
  induction l with
  | nil => simp [byteLength]
  | cons c rest ih => simp [byteLength, ih, Nat.add_assoc]

theorem byteLength_replicate (n : Nat) (c : Char) :
    byteLength (List.replicate n c) = n * c.utf8Size := by
  induction n with
  | zero => simp [byteLength]
  | succ n ih => rw [List.replicate_succ, byteLength, ih, Nat.succ_mul, Nat.add_comm]

theorem takeBytes?_append (l r : List Char) : takeBytes? (byteLength l) (l ++ r) = some l := by
  induction l with
  | nil => rw [byteLength, takeBytes?]
  | cons c rest ih =>
    have hpos : 0 < c.utf8Size := c.utf8Size_pos
    obtain ⟨n, hn⟩ : ∃ n, byteLength (c :: rest) = n + 1 :=
      Nat.exists_eq_succ_of_ne_zero (by rw [byteLength]; omega)
    have hrest : n + 1 - c.utf8Size = byteLength rest := by
      rw [byteLength] at hn
      omega
    have hle : c.utf8Size ≤ n + 1 := by
      rw [byteLength] at hn
      omega
    rw [hn, List.cons_append, takeBytes?, if_pos hle, hrest, ih, Option.map_some]

/-! ## Separators -/

section Separators

variable {p : Char → Bool}

theorem split_of_forall {l : List Char} (h : ∀ c ∈ l, p c = false) : split p l = [l] := by
  induction l with
  | nil => rfl
  | cons c rest ih =>
    obtain ⟨hc, hrest⟩ := List.forall_mem_cons.1 h
    rw [split, hc, ih hrest]
    rfl

theorem split_append {l : List Char} (h : ∀ c ∈ l, p c = false) {separator : Char}
    (hp : p separator = true) (rest : List Char) :
    split p (l ++ separator :: rest) = l :: split p rest := by
  induction l with
  | nil => rw [List.nil_append, split, if_pos hp]
  | cons c l ih =>
    obtain ⟨hc, hl⟩ := List.forall_mem_cons.1 h
    rw [List.cons_append, split, hc, ih hl]
    rfl

theorem joinLists_cons_cons (separator l m : List Char) (rest : List (List Char)) :
    joinLists separator (l :: m :: rest) = l ++ separator ++ joinLists separator (m :: rest) := rfl

theorem mem_joinLists {separator : List Char} {parts : List (List Char)} {c : Char}
    (h : c ∈ joinLists separator parts) : c ∈ separator ∨ ∃ l ∈ parts, c ∈ l := by
  induction parts with
  | nil => simp [joinLists] at h
  | cons l parts ih =>
    cases parts with
    | nil => exact .inr ⟨l, List.mem_cons_self, h⟩
    | cons m rest =>
      rw [joinLists_cons_cons, List.mem_append, List.mem_append] at h
      rcases h with (hc | hc) | hc
      · exact .inr ⟨l, List.mem_cons_self, hc⟩
      · exact .inl hc
      · refine (ih hc).imp_right ?_
        rintro ⟨k, hk, hc⟩
        exact ⟨k, List.mem_cons_of_mem _ hk, hc⟩

theorem split_joinLists {separator : Char} (hp : p separator = true) {parts : List (List Char)}
    (hne : parts ≠ []) (h : ∀ l ∈ parts, ∀ c ∈ l, p c = false) :
    split p (joinLists [separator] parts) = parts := by
  induction parts with
  | nil => exact absurd rfl hne
  | cons l parts ih =>
    obtain ⟨hl, hparts⟩ := List.forall_mem_cons.1 h
    cases parts with
    | nil => exact split_of_forall hl
    | cons m rest =>
      rw [joinLists_cons_cons, List.append_assoc, List.singleton_append, split_append hl hp,
        ih (List.cons_ne_nil _ _) hparts]

end Separators

end FactStream.Text
