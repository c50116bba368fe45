import FactStream.Tree.Diagnosis

/-!
# Diagnoses of whole trees

If the marks of a tree are right, a diagnosis takes in all of its nodes, although it only looks
below those that are marked (`Node.diagnosis_eq`). In particular it finds an error if there is one
(`Node.firstError_isSome`).
-/

namespace FactStream

/-- A node is marked just if it or one below it is an error or missing. -/
def Node.Consistent (root : Node) : Prop :=
  ∀ n ∈ root.preorder, n.head.hasError = true ↔
    ∃ m ∈ n.preorder, m.head.error = true ∨ m.head.missing = true

namespace Node

theorem mem_preorder_self (n : Node) : n ∈ n.preorder := by
  obtain ⟨head, children⟩ := n
  exact List.mem_cons_self

theorem mem_preorder_all {n : Node} :
    ∀ {nodes : List Node}, n ∈ preorder.all nodes ↔ ∃ c ∈ nodes, n ∈ c.preorder
  | [] => by simp [preorder.all]
  | c :: rest => by simp [preorder.all, mem_preorder_all]

theorem mem_preorder_of_child {n child m : Node} (hchild : child ∈ n.children)
    (hm : m ∈ child.preorder) : m ∈ n.preorder := by
  obtain ⟨head, children⟩ := n
  exact List.mem_cons_of_mem _ (mem_preorder_all.2 ⟨child, hchild, hm⟩)

theorem Consistent.child {head : Head} {children : List Node} {c : Node}
    (h : Consistent ⟨head, children⟩) (hc : c ∈ children) : c.Consistent :=
  fun n hn => h n (mem_preorder_of_child hc hn)

end Node

namespace Diagnosis

/-- Takes in several nodes, without looking below them. -/
def noteAll (d : Diagnosis) (nodes : List Node) : Diagnosis :=
  nodes.foldl (fun d n => d.note n.head) d

theorem noteAll_append (d : Diagnosis) (nodes more : List Node) :
    d.noteAll (nodes ++ more) = (d.noteAll nodes).noteAll more :=
  List.foldl_append

theorem noteAll_of_sound {nodes : List Node} (d : Diagnosis)
    (h : ∀ n ∈ nodes, n.head.error = false ∧ n.head.missing = false) : d.noteAll nodes = d := by
  induction nodes with
  | nil => rfl
  | cons n rest ih =>
    obtain ⟨herror, hmissing⟩ := h n List.mem_cons_self
    have hn : d.note n.head = d := by simp [note, herror, hmissing]
    show noteAll (d.note n.head) rest = d
    rw [hn]
    exact ih fun m hm => h m (List.mem_cons_of_mem _ hm)

theorem sound_of_unmarked {n : Node} (h : n.Consistent) (hmark : n.head.hasError = false) :
    ∀ m ∈ n.preorder, m.head.error = false ∧ m.head.missing = false := by
  intro m hm
  have hnone := mt (h n n.mem_preorder_self).2 (by simp [hmark])
  refine ⟨Bool.eq_false_iff.2 ?_, Bool.eq_false_iff.2 ?_⟩
  · intro herror
    exact hnone ⟨m, hm, .inl herror⟩
  · intro hmissing
    exact hnone ⟨m, hm, .inr hmissing⟩

mutual

theorem visit_eq : ∀ (n : Node) (d : Diagnosis), n.Consistent → d.visit n = d.noteAll n.preorder
  | ⟨head, children⟩, d, h => by
    show (if head.hasError then visit.visitAll (d.note head) children else d.note head) =
      noteAll (d.note head) (Node.preorder.all children)
    cases hmark : head.hasError with
    | true => exact visitAll_eq children (d.note head) fun c hc => h.child hc
    | false =>
      refine (noteAll_of_sound _ fun m hm => ?_).symm
      exact sound_of_unmarked h hmark m (List.mem_cons_of_mem _ hm)

theorem visitAll_eq : ∀ (nodes : List Node) (d : Diagnosis), (∀ n ∈ nodes, n.Consistent) →
    visit.visitAll d nodes = d.noteAll (Node.preorder.all nodes)
  | [], _, _ => rfl
  | n :: rest, d, h => by
    rw [visit.visitAll, Node.preorder.all, noteAll_append, visit_eq n d (h n List.mem_cons_self)]
    exact visitAll_eq rest _ fun m hm => h m (List.mem_cons_of_mem _ hm)

end

theorem firstError_noteAll (d : Diagnosis) (nodes : List Node) :
    (d.noteAll nodes).firstError.isSome ↔
      d.firstError.isSome ∨ ∃ n ∈ nodes, n.head.error = true := by
  induction nodes generalizing d with
  | nil => simp [noteAll]
  | cons n rest ih =>
    show (noteAll (d.note n.head) rest).firstError.isSome ↔ _
    rw [ih]
    cases herror : n.head.error with
    | true => simp [note, herror]
    | false =>
      have hfirst : (d.note n.head).firstError = d.firstError := by
        cases hmissing : n.head.missing <;> simp [note, herror, hmissing]
      simp [hfirst, herror]

end Diagnosis

namespace Node

/-- The diagnosis of a tree takes in all of its nodes. -/
theorem diagnosis_eq {root : Node} (h : root.Consistent) :
    root.diagnosis = ({} : Diagnosis).noteAll root.preorder := by
  unfold diagnosis
  cases hmark : root.head.hasError with
  | true => exact Diagnosis.visit_eq root {} h
  | false => exact (Diagnosis.noteAll_of_sound {} (Diagnosis.sound_of_unmarked h hmark)).symm

theorem firstError_isSome {root : Node} (h : root.Consistent) :
    root.diagnosis.firstError.isSome ↔ ∃ n ∈ root.preorder, n.head.error = true := by
  rw [diagnosis_eq h, Diagnosis.firstError_noteAll]
  simp

end Node

end FactStream
