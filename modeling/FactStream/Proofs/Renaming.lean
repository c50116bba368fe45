import FactStream.Proofs.Forest
import Mathlib.Data.List.Nodup

/-!
# Renaming the keys of a stream

The keys of a stream only name its facts. Two forests that are the same without their gaps have the
same stream up to the names of the keys, whatever the counters and the parents they start from. The
keys are matched in the order of the stream, so the match preserves the order of their numbers.

Main statement: `Forest.exists_renaming`.
-/

namespace FactStream

def Fact.rename (ρ : String → String) (f : Fact) : Fact :=
  { f with
    key := ρ f.key
    parentKey := ρ f.parentKey
    olderSiblings := f.olderSiblings.map ρ }

def Frame.rename (ρ : String → String) (frame : Frame) : Frame where
  key := ρ frame.key
  children := frame.children.map ρ

theorem Fact.rename_id (f : Fact) : f.rename id = f := by
  simp [rename]

theorem Frame.rename_addChild (ρ : String → String) (frame : Frame) (key : String) :
    (frame.addChild key).2.rename ρ = ((frame.rename ρ).addChild (ρ key)).2 := by
  simp [rename, addChild]

theorem Content.rename_toFact (content : Content) (ρ : String → String) (key : String)
    (parent : Frame) :
    (content.toFact key parent).rename ρ = content.toFact (ρ key) (parent.rename ρ) := rfl

namespace Forest

def dense : Forest → Forest
  | nil => nil
  | fact content below after => fact content below.dense after.dense
  | gap after => after.dense

theorem dense_append (f g : Forest) : (f ++ g).dense = f.dense ++ g.dense := by
  induction f with
  | nil => rfl
  | fact content below after _ ih => rw [fact_append, dense, dense, ih, fact_append]
  | gap after ih => rw [gap_append, dense, dense, ih]

theorem hasFact_dense (f : Forest) : f.dense.hasFact = f.hasFact := by
  induction f with
  | nil => rfl
  | fact content below after _ _ => rfl
  | gap after ih => rw [dense, hasFact, ih]

theorem dense_of_not_hasFact {f : Forest} (h : f.hasFact = false) : f.dense = nil := by
  induction f with
  | nil => rfl
  | fact content below after _ _ => simp [hasFact] at h
  | gap after ih => exact ih h

theorem length_numbers (f : Forest) (n : Nat) : (f.numbers n).length = f.count := by
  induction f generalizing n with
  | nil => rfl
  | fact content below after ihb iha =>
    rw [numbers, count, List.length_cons, List.length_append, ihb, iha]
    omega
  | gap after ih => rw [numbers, count, ih]

theorem count_dense (f : Forest) : f.dense.count = f.count := by
  induction f with
  | nil => rfl
  | fact content below after ihb iha => rw [dense, count, count, ihb, iha]
  | gap after ih => rw [dense, count, ih]

theorem rename_facts_dense (f : Forest) {keys keys' : KeyCounter} {parent parent' : Frame}
    {ρ σ : String → String}
    (hkeys : (f.numbers keys.last).map (fun n => ρ (keys.key n)) =
      (f.dense.numbers keys'.last).map (fun n => σ (keys'.key n)))
    (hparent : parent.rename ρ = parent'.rename σ) :
    (f.facts keys parent).map (Fact.rename ρ) =
      (f.dense.facts keys' parent').map (Fact.rename σ) := by
  induction f generalizing keys keys' parent parent' with
  | nil => rfl
  | fact content below after ihb iha =>
    simp only [dense, numbers, List.map_cons, List.map_append, List.cons.injEq] at hkeys
    obtain ⟨hkey, hrest⟩ := hkeys
    have hlength : ((below.numbers (keys.last + 1)).map fun n => ρ (keys.key n)).length =
        ((below.dense.numbers (keys'.last + 1)).map fun n => σ (keys'.key n)).length := by
      rw [List.length_map, List.length_map, length_numbers, length_numbers, count_dense]
    obtain ⟨hbelow, hafter⟩ := List.append_inj hrest hlength
    have hnew : ({ key := keys.key (keys.last + 1) } : Frame).rename ρ =
        ({ key := keys'.key (keys'.last + 1) } : Frame).rename σ := by
      simp [Frame.rename, hkey]
    have hgrown : (parent.addChild (keys.key (keys.last + 1))).2.rename ρ =
        (parent'.addChild (keys'.key (keys'.last + 1))).2.rename σ := by
      rw [Frame.rename_addChild, Frame.rename_addChild, hparent, hkey]
    simp only [dense, facts, List.map_cons, List.map_append, Content.rename_toFact]
    rw [hkey, hparent, @ihb (keys.advance 1) (keys'.advance 1) _ _ hbelow hnew,
      @iha (keys.advance (below.size + 1)) (keys'.advance (below.dense.size + 1)) _ _ hafter hgrown]
  | gap after ih => exact @ih (keys.advance 1) keys' _ _ hkeys hparent

/-! ## Matching keys -/

theorem exists_map_eq {α β : Type} [DecidableEq α] (other : α → β) {l : List α} (hl : l.Nodup) :
    ∀ {l' : List β}, l.length = l'.length →
      ∃ φ : α → β, l.map φ = l' ∧ ∀ a, a ∉ l → φ a = other a := by
  induction l with
  | nil =>
    intro l' hlength
    exact ⟨other, (List.eq_nil_of_length_eq_zero hlength.symm).symm, fun a _ => rfl⟩
  | cons a l ih =>
    intro l' hlength
    cases l' with
    | nil => simp at hlength
    | cons b l' =>
      obtain ⟨ha, hl⟩ := List.nodup_cons.1 hl
      obtain ⟨φ, hmap, hother⟩ := ih hl (Nat.succ.inj hlength)
      refine ⟨Function.update φ a b, ?_, ?_⟩
      · rw [List.map_cons, Function.update_self, ← hmap]
        congr 1
        refine List.map_congr_left fun x hx => Function.update_of_ne ?_ b φ
        rintro rfl
        exact ha hx
      · intro x hx
        rw [List.mem_cons, not_or] at hx
        rw [Function.update_of_ne hx.1, hother x hx.2]

theorem lt_of_pairwise_map {l : List Nat} {shift : Nat → Nat} (hl : l.Pairwise (· < ·))
    (hshift : (l.map shift).Pairwise (· < ·)) {m n : Nat} (hm : m ∈ l) (hn : n ∈ l)
    (hlt : m < n) : shift m < shift n := by
  rw [List.pairwise_map] at hshift
  induction l with
  | nil => simp at hm
  | cons a l ih =>
    rw [List.pairwise_cons] at hl hshift
    rcases List.mem_cons.1 hm with hma | hml
    · rcases List.mem_cons.1 hn with hna | hnl
      · omega
      · rw [hma]
        exact hshift.1 n hnl
    · rcases List.mem_cons.1 hn with hna | hnl
      · have := hl.1 m hml
        omega
      · exact ih hl.2 hshift.2 hml hnl

section Match

variable {keys : KeyCounter} {key : String}

theorem exists_names (f : Forest) (hkey : ∀ n, keys.last < n → keys.key n ≠ key) (key' : String)
    {names : List String} (hlength : names.length = f.count) :
    ∃ ρ : String → String, ρ key = key' ∧
      (f.numbers keys.last).map (fun n => ρ (keys.key n)) = names ∧
      ∀ k, k ≠ key → k ∉ (f.numbers keys.last).map keys.key → ρ k = k := by
  have hnodup : (key :: (f.numbers keys.last).map keys.key).Nodup := by
    rw [List.nodup_cons]
    refine ⟨?_, List.Nodup.map (fun m n h => keys.key_inj.1 h) ?_⟩
    · intro hmem
      obtain ⟨n, hn, hk⟩ := List.mem_map.1 hmem
      exact hkey n (mem_numbers _ hn).1 hk
    · exact (pairwise_numbers _ _).imp fun h => Nat.ne_of_lt h
  have hsame : (key :: (f.numbers keys.last).map keys.key).length = (key' :: names).length := by
    simp [length_numbers, hlength]
  obtain ⟨ρ, hmap, hother⟩ := exists_map_eq id hnodup hsame
  rw [List.map_cons, List.map_map, List.cons.injEq] at hmap
  refine ⟨ρ, hmap.1, hmap.2, fun k hne hk => hother k ?_⟩
  rw [List.mem_cons, not_or]
  exact ⟨hne, hk⟩

/-- Forests that differ in their gaps alone have the same stream up to the names of the keys, and
the numbers of the facts keep their order. -/
theorem exists_renaming {f g : Forest} (h : f.dense = g.dense)
    (hkey : ∀ n, keys.last < n → keys.key n ≠ key) (keys' : KeyCounter) (key' : String) :
    ∃ (shift : Nat → Nat) (ρ : String → String),
      (∀ m ∈ f.numbers keys.last, ∀ n ∈ f.numbers keys.last, m < n → shift m < shift n) ∧
      (∀ n ∈ f.numbers keys.last, ρ (keys.key n) = keys'.key (shift n)) ∧ ρ key = key' ∧
      (∀ k, k ≠ key → k ∉ (f.numbers keys.last).map keys.key → ρ k = k) ∧
      (f.facts keys { key }).map (Fact.rename ρ) = g.facts keys' { key := key' } := by
  have hcount : f.count = g.count := by rw [← count_dense, h, count_dense]
  have hnodup : (f.numbers keys.last).Nodup :=
    (pairwise_numbers _ _).imp fun hlt => Nat.ne_of_lt hlt
  have hsame : (f.numbers keys.last).length = (g.numbers keys'.last).length := by
    rw [length_numbers, length_numbers, hcount]
  obtain ⟨shift, hshift, -⟩ := exists_map_eq id hnodup hsame
  have hlength : ((g.numbers keys'.last).map keys'.key).length = g.count := by
    rw [List.length_map, length_numbers]
  obtain ⟨ρ, hρ, hnames, hother⟩ := f.exists_names hkey key' (hlength.trans hcount.symm)
  -- The forest without gaps takes the same names, and so lies between the two.
  obtain ⟨σ, hσ, hnames', -⟩ :=
    g.dense.exists_names hkey key' (hlength.trans g.count_dense.symm)
  refine ⟨shift, ρ, ?_, ?_, hρ, hother, ?_⟩
  · intro m hm n hn hlt
    refine lt_of_pairwise_map (pairwise_numbers _ _) ?_ hm hn hlt
    rw [hshift]
    exact pairwise_numbers _ _
  · rw [← hshift, List.map_map] at hnames
    exact List.map_inj_left.1 hnames
  · have hf : (f.facts keys { key }).map (Fact.rename ρ) =
        (f.dense.facts keys { key }).map (Fact.rename σ) :=
      f.rename_facts_dense (by rw [hnames, h, hnames']) (by simp [Frame.rename, hρ, hσ])
    have hg : (g.facts keys' { key := key' }).map (Fact.rename id) =
        (g.dense.facts keys { key }).map (Fact.rename σ) :=
      g.rename_facts_dense (by rw [hnames']; rfl) (by simp [Frame.rename, hσ])
    rw [hf, h, ← hg, show Fact.rename id = id from funext Fact.rename_id, List.map_id]

end Match

end Forest

end FactStream
