/-!
# Dictionaries with text keys

A `Dictionary` lists its entries in strictly ascending order of their keys. The order is part of
the type, so a key has at most one entry and two dictionaries with the same entries are equal.
Inserting a key that is already there replaces its value: the last one wins.
-/

namespace FactStream

/-- A finite map from texts to values, listed in strictly ascending order of the keys. -/
structure Dictionary (α : Type) where
  /-- The entries, in order. -/
  entries : List (String × α)
  /-- The keys ascend strictly. -/
  ascending : entries.Pairwise fun a b => a.1 < b.1
  deriving DecidableEq

namespace Dictionary

variable {α β : Type}

/-! ## Building -/

/-- The dictionary without entries. -/
def empty : Dictionary α := ⟨[], .nil⟩

instance : Inhabited (Dictionary α) := ⟨empty⟩

/-- Places an entry in an ascending list, in the place of one with the same key. -/
def place (key : String) (value : α) : List (String × α) → List (String × α)
  | [] => [(key, value)]
  | (k, v) :: rest =>
    if key = k then (key, value) :: rest
    else if key < k then (key, value) :: (k, v) :: rest
    else (k, v) :: place key value rest

theorem place_key {key : String} {value : α} {l : List (String × α)} {e : String × α}
    (h : e ∈ place key value l) : e.1 = key ∨ e ∈ l := by
  induction l with
  | nil => simp_all [place]
  | cons head rest ih =>
    obtain ⟨k, v⟩ := head
    unfold place at h
    split at h
    · grind
    · split at h <;> grind

theorem place_ascending (key : String) (value : α) {l : List (String × α)}
    (h : l.Pairwise fun a b => a.1 < b.1) :
    (place key value l).Pairwise fun a b => a.1 < b.1 := by
  induction l with
  | nil => simp [place]
  | cons head rest ih =>
    obtain ⟨k, v⟩ := head
    obtain ⟨hk, hrest⟩ := List.pairwise_cons.1 h
    unfold place
    split
    next heq =>
      subst heq
      exact List.pairwise_cons.2 ⟨hk, hrest⟩
    next hne =>
      split
      next hlt =>
        refine List.pairwise_cons.2 ⟨fun e he => ?_, h⟩
        rcases List.mem_cons.1 he with rfl | he
        · exact hlt
        · exact String.lt_trans hlt (hk e he)
      next hnlt =>
        refine List.pairwise_cons.2 ⟨fun e he => ?_, ih hrest⟩
        rcases place_key he with hkey | he
        · rw [hkey]
          exact Std.lt_of_le_of_ne (String.not_lt.1 hnlt) (fun h => hne h.symm)
        · exact hk e he

/-- The dictionary with `value` at `key`, whatever stood there before. -/
def insert (d : Dictionary α) (key : String) (value : α) : Dictionary α :=
  ⟨place key value d.entries, place_ascending key value d.ascending⟩

/-- The dictionary of a list of entries; of two entries with one key the later one stays. -/
def ofList (entries : List (String × α)) : Dictionary α :=
  entries.foldl (fun d e => d.insert e.1 e.2) empty

/-! ## Looking up -/

/-- The value at a key. -/
def get? (d : Dictionary α) (key : String) : Option α :=
  d.entries.lookup key

/-- The keys, ascending. -/
def keys (d : Dictionary α) : List String :=
  d.entries.map (·.1)

/-- The values, in the order of their keys. -/
def values (d : Dictionary α) : List α :=
  d.entries.map (·.2)

/-- Keeps the entries that satisfy `p`. -/
def filter (d : Dictionary α) (p : String → α → Bool) : Dictionary α :=
  ⟨d.entries.filter fun e => p e.1 e.2, d.ascending.filter _⟩

end Dictionary

end FactStream
