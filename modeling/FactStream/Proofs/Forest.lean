import FactStream.Fact
import FactStream.Proofs.Key

/-!
# Forests of facts

A `Forest` holds facts without their keys, each with the facts below it, in the order of the
stream. It may also hold gaps, which stand for keys that no fact gets. `Forest.facts` numbers a
forest in document order and links each fact to its parent and its older siblings; this is the
stream of the forest.

The numbers of the facts ascend (`pairwise_numbers`), and together with those of the gaps they are
all the numbers in turn (`numbers_gaps_perm`).
-/

namespace FactStream

/-- What a fact says apart from its place in the stream. -/
structure Content where
  commonKind : CommonKind
  kind : String
  nameSpace : String
  orderable : Bool
  properties : Dictionary Property

/-- The fact with a content, as the next child of a parent. -/
def Content.toFact (content : Content) (key : String) (parent : Frame) : Fact where
  key
  parentKey := parent.key
  commonKind := content.commonKind
  kind := content.kind
  nameSpace := content.nameSpace
  orderable := content.orderable
  olderSiblings := parent.children
  properties := content.properties

/-- Facts in their order, each with the facts below it. -/
inductive Forest where
  | nil
  /-- A fact, those below it and those after it. -/
  | fact (content : Content) (below after : Forest)
  /-- A key that no fact gets. -/
  | gap (after : Forest)

namespace Forest

def append : Forest → Forest → Forest
  | nil, g => g
  | fact content below after, g => fact content below (after.append g)
  | gap after, g => gap (after.append g)

instance : Append Forest := ⟨append⟩

/-- The number of keys that a forest takes. -/
def size : Forest → Nat
  | nil => 0
  | fact _ below after => below.size + 1 + after.size
  | gap after => 1 + after.size

def count : Forest → Nat
  | nil => 0
  | fact _ below after => below.count + 1 + after.count
  | gap after => after.count

def hasFact : Forest → Bool
  | nil => false
  | fact .. => true
  | gap after => after.hasFact

/-- The stream of a forest below a parent. -/
def facts (keys : KeyCounter) (parent : Frame) : Forest → List Fact
  | nil => []
  | fact content below after =>
    let key := keys.key (keys.last + 1)
    content.toFact key parent ::
      (below.facts (keys.advance 1) { key } ++
        after.facts (keys.advance (below.size + 1)) (parent.addChild key).2)
  | gap after => after.facts (keys.advance 1) parent

/-- The parent with the children it gets from a forest. -/
def grow (keys : KeyCounter) (parent : Frame) : Forest → Frame
  | nil => parent
  | fact _ below after =>
    after.grow (keys.advance (below.size + 1)) (parent.addChild (keys.key (keys.last + 1))).2
  | gap after => after.grow (keys.advance 1) parent

/-- The numbers of the facts, if `n` was given out last. -/
def numbers (n : Nat) : Forest → List Nat
  | nil => []
  | fact _ below after =>
    (n + 1) :: (below.numbers (n + 1) ++ after.numbers (n + (below.size + 1)))
  | gap after => after.numbers (n + 1)

/-- The numbers of the gaps, if `n` was given out last. -/
def gaps (n : Nat) : Forest → List Nat
  | nil => []
  | fact _ below after => below.gaps (n + 1) ++ after.gaps (n + (below.size + 1))
  | gap after => (n + 1) :: after.gaps (n + 1)

/-- There is no gap, and the content of every fact satisfies `P`. -/
def All (P : Content → Prop) : Forest → Prop
  | nil => True
  | fact content below after => P content ∧ below.All P ∧ after.All P
  | gap _ => False

/-! ## One forest after the other -/

variable {f g : Forest}

@[simp] theorem nil_append (g : Forest) : nil ++ g = g := rfl

@[simp] theorem fact_append (content : Content) (below after g : Forest) :
    fact content below after ++ g = fact content below (after ++ g) := rfl

@[simp] theorem gap_append (after g : Forest) : gap after ++ g = gap (after ++ g) := rfl

@[simp] theorem append_nil (f : Forest) : f ++ nil = f := by
  induction f with
  | nil => rfl
  | fact content below after _ ih => rw [fact_append, ih]
  | gap after ih => rw [gap_append, ih]

@[simp] theorem size_append (f g : Forest) : (f ++ g).size = f.size + g.size := by
  induction f with
  | nil => simp [size]
  | fact content below after _ ih =>
    rw [fact_append, size, size, ih]
    omega
  | gap after ih =>
    rw [gap_append, size, size, ih]
    omega

@[simp] theorem count_append (f g : Forest) : (f ++ g).count = f.count + g.count := by
  induction f with
  | nil => simp [count]
  | fact content below after _ ih =>
    rw [fact_append, count, count, ih]
    omega
  | gap after ih => rw [gap_append, count, count, ih]

@[simp] theorem hasFact_append (f g : Forest) : (f ++ g).hasFact = (f.hasFact || g.hasFact) := by
  induction f with
  | nil => rfl
  | fact content below after _ _ => rfl
  | gap after ih => rw [gap_append, hasFact, hasFact, ih]

theorem facts_append (f g : Forest) (keys : KeyCounter) (parent : Frame) :
    (f ++ g).facts keys parent =
      f.facts keys parent ++ g.facts (keys.advance f.size) (f.grow keys parent) := by
  induction f generalizing keys parent with
  | nil => simp [facts, size, grow]
  | fact content below after _ ih => simp [facts, size, grow, ih]
  | gap after ih => simp [facts, size, grow, ih]

theorem grow_append (f g : Forest) (keys : KeyCounter) (parent : Frame) :
    (f ++ g).grow keys parent = g.grow (keys.advance f.size) (f.grow keys parent) := by
  induction f generalizing keys parent with
  | nil => simp [size, grow]
  | fact content below after _ ih => simp [size, grow, ih]
  | gap after ih => simp [size, grow, ih]

theorem gaps_append (f g : Forest) (n : Nat) :
    (f ++ g).gaps n = f.gaps n ++ g.gaps (n + f.size) := by
  induction f generalizing n with
  | nil => simp [gaps, size]
  | fact content below after _ ih => simp [gaps, size, ih, Nat.add_assoc]
  | gap after ih => simp [gaps, size, ih, Nat.add_assoc]

theorem all_append {P : Content → Prop} (hf : f.All P) (hg : g.All P) : (f ++ g).All P := by
  induction f with
  | nil => exact hg
  | fact content below after _ ih => exact ⟨hf.1, hf.2.1, ih hf.2.2⟩
  | gap after _ => exact hf.elim

theorem gaps_of_all {P : Content → Prop} (h : f.All P) (n : Nat) : f.gaps n = [] := by
  induction f generalizing n with
  | nil => rfl
  | fact content below after ihb iha => rw [gaps, ihb h.2.1, iha h.2.2, List.nil_append]
  | gap after _ => exact h.elim

/-! ## Forests without facts -/

theorem facts_of_not_hasFact (h : f.hasFact = false) (keys : KeyCounter) (parent : Frame) :
    f.facts keys parent = [] := by
  induction f generalizing keys with
  | nil => rfl
  | fact content below after _ _ => simp [hasFact] at h
  | gap after ih => exact ih h _

theorem grow_of_not_hasFact (h : f.hasFact = false) (keys : KeyCounter) (parent : Frame) :
    f.grow keys parent = parent := by
  induction f generalizing keys with
  | nil => rfl
  | fact content below after _ _ => simp [hasFact] at h
  | gap after ih => exact ih h _

@[simp] theorem grow_key (f : Forest) (keys : KeyCounter) (parent : Frame) :
    (f.grow keys parent).key = parent.key := by
  induction f generalizing keys parent with
  | nil => rfl
  | fact content below after _ ih => rw [grow, ih, Frame.addChild]
  | gap after ih => rw [grow, ih]

theorem forall_facts_of_all {P : Content → Prop} {Q : Fact → Prop} (h : f.All P)
    (hQ : ∀ content key parent, P content → Q (content.toFact key parent)) (keys : KeyCounter)
    (parent : Frame) : ∀ g ∈ f.facts keys parent, Q g := by
  induction f generalizing keys parent with
  | nil => simp [facts]
  | fact content below after ihb iha =>
    intro g hg
    rw [facts, List.mem_cons, List.mem_append] at hg
    rcases hg with rfl | hg | hg
    · exact hQ content _ parent h.1
    · exact ihb h.2.1 _ _ g hg
    · exact iha h.2.2 _ _ g hg
  | gap after _ => exact h.elim

/-! ## Numbers -/

theorem map_key_facts (f : Forest) (keys : KeyCounter) (parent : Frame) :
    (f.facts keys parent).map (·.key) = (f.numbers keys.last).map keys.key := by
  induction f generalizing keys parent with
  | nil => rfl
  | fact content below after ihb iha => simp [facts, numbers, ihb, iha, Content.toFact]
  | gap after ih => simp [facts, numbers, ih]

theorem mem_numbers (f : Forest) {n m : Nat} (h : m ∈ f.numbers n) : n < m ∧ m ≤ n + f.size := by
  induction f generalizing n with
  | nil => simp [numbers] at h
  | fact content below after ihb iha =>
    rw [numbers, List.mem_cons, List.mem_append] at h
    rw [size]
    rcases h with rfl | h | h
    · omega
    · have := ihb h
      omega
    · have := iha h
      omega
  | gap after ih =>
    have := ih h
    rw [size]
    omega

theorem pairwise_numbers (f : Forest) (n : Nat) : (f.numbers n).Pairwise (· < ·) := by
  induction f generalizing n with
  | nil => exact .nil
  | fact content below after ihb iha =>
    rw [numbers, List.pairwise_cons, List.pairwise_append]
    refine ⟨fun m hm => ?_, ihb _, iha _, fun a ha b hb => ?_⟩
    · rcases List.mem_append.1 hm with hm | hm
      · have := mem_numbers below hm
        omega
      · have := mem_numbers after hm
        omega
    · have := mem_numbers below ha
      have := mem_numbers after hb
      omega
  | gap after ih => exact ih _

/-- Each number goes to one fact or to one gap. -/
theorem numbers_gaps_perm (f : Forest) (n : Nat) :
    (f.numbers n ++ f.gaps n).Perm (List.range' (n + 1) f.size) := by
  induction f generalizing n with
  | nil => exact .refl _
  | fact content below after ihb iha =>
    have hsize : below.size + 1 + after.size = below.size + after.size + 1 := by omega
    have hstart : n + (below.size + 1) + 1 = n + 1 + 1 + below.size := by omega
    have hafter := iha (n + (below.size + 1))
    rw [hstart] at hafter
    rw [numbers, gaps, size, List.cons_append, hsize, List.range'_succ, ← List.range'_append_1]
    refine List.Perm.cons _ (List.Perm.trans ?_ ((ihb (n + 1)).append hafter))
    -- The facts after come before the gaps below, and only these two change places.
    rw [List.append_assoc, List.append_assoc, ← List.append_assoc (after.numbers _),
      ← List.append_assoc (below.gaps _)]
    exact List.Perm.append_left _ (List.Perm.append_right _ List.perm_append_comm)
  | gap after ih =>
    rw [numbers, gaps, size, Nat.add_comm 1, List.range'_succ]
    exact List.perm_middle.trans (List.Perm.cons _ (ih (n + 1)))

end Forest

end FactStream
