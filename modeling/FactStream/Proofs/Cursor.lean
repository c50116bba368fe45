import FactStream.Proofs.Diagnosis

/-!
# Diagnosing with a cursor

A diagnosis can be made without recursion, by a cursor that moves over the tree: to the first child
of a marked node, else to the next sibling, else to the next sibling of the innermost node around it
that has one. `Cursor.Ends` says with which diagnosis such a loop ends, and after how many turns. It
always ends, with the same diagnosis (`Cursor.ends_diagnosis`).

Main statement: `Node.diagnosis_counts`, with what is counted in the whole of a tree whose marks are
right.
-/

namespace FactStream

/-- A place in a tree, with all that is needed to move on from it. -/
structure Cursor where
  node : Node
  /-- The siblings after the node. -/
  later : List Node := []
  /-- The nodes around the node, the innermost first, each with the siblings after it. -/
  around : List (Node × List Node) := []

namespace Cursor

/-! ## Moves -/

def firstChild? (c : Cursor) : Option Cursor :=
  match c.node.children with
  | [] => none
  | child :: rest => some ⟨child, rest, (c.node, c.later) :: c.around⟩

def nextSibling? (c : Cursor) : Option Cursor :=
  match c.later with
  | [] => none
  | sibling :: rest => some ⟨sibling, rest, c.around⟩

def parent? (c : Cursor) : Option Cursor :=
  match c.around with
  | [] => none
  | (parent, later) :: around => some ⟨parent, later, around⟩

theorem length_around_parent? {c p : Cursor} (h : c.parent? = some p) :
    p.around.length < c.around.length := by
  unfold parent? at h
  split at h
  · simp at h
  next heq =>
    obtain rfl := Option.some.inj h
    simp [heq]

/-- The next sibling of the node, or of the innermost node around it that has one. -/
def onward? (c : Cursor) : Option Cursor :=
  match c.nextSibling? with
  | some next => some next
  | none =>
    match _h : c.parent? with
    | some parent => parent.onward?
    | none => none
termination_by c.around.length
decreasing_by exact length_around_parent? _h

/-- Where the cursor goes after a node. -/
def next? (c : Cursor) : Option Cursor :=
  (if c.node.head.hasError then c.firstChild? else none).or c.onward?

/-- From a place on, with the diagnosis so far, the loop ends after some turns with a diagnosis. -/
inductive Ends : Cursor → Diagnosis → Nat → Diagnosis → Prop where
  | last {c : Cursor} {d : Diagnosis} : c.next? = none → Ends c d 1 (d.note c.node.head)
  | turn {c next : Cursor} {d result : Diagnosis} {turns : Nat} : c.next? = some next →
      Ends next (d.note c.node.head) turns result → Ends c d (turns + 1) result

/-! ## Turns -/

/-- Where the cursor goes on, given the siblings after a node and the nodes around it. -/
def resume? : List Node → List (Node × List Node) → Option Cursor
  | sibling :: rest, around => some ⟨sibling, rest, around⟩
  | [], [] => none
  | [], (_, later) :: around => resume? later around

theorem onward?_eq (node : Node) (later : List Node) (around : List (Node × List Node)) :
    onward? ⟨node, later, around⟩ = resume? later around := by
  induction around generalizing node later with
  | nil => cases later <;> rw [onward?] <;> rfl
  | cons parent around ih =>
    cases later with
    | cons sibling rest =>
      rw [onward?]
      rfl
    | nil =>
      rw [onward?]
      exact ih parent.1 parent.2

/-- From the last child of a node the cursor goes on as from the node itself, so a marked node
without children is no exception. -/
theorem next?_eq (c : Cursor) :
    c.next? = if c.node.head.hasError then resume? c.node.children ((c.node, c.later) :: c.around)
      else resume? c.later c.around := by
  obtain ⟨⟨head, children⟩, later, around⟩ := c
  unfold next? firstChild?
  cases hmark : head.hasError with
  | false => simp [onward?_eq]
  | true => cases children <;> simp [onward?_eq, resume?]

/-- The loop goes on from where a cursor resumes, or ends with the diagnosis so far. -/
def Resumes (later : List Node) (around : List (Node × List Node)) (d : Diagnosis) (turns : Nat)
    (result : Diagnosis) : Prop :=
  match resume? later around with
  | some next => Ends next d turns result
  | none => turns = 0 ∧ result = d

theorem resumes_cons {n : Node} {rest : List Node} {around : List (Node × List Node)}
    {d result : Diagnosis} {turns : Nat} :
    Resumes (n :: rest) around d turns result ↔ Ends ⟨n, rest, around⟩ d turns result := by
  rw [Resumes, resume?]

theorem resumes_nil_cons {n : Node} {later : List Node} {around : List (Node × List Node)}
    {d result : Diagnosis} {turns : Nat} :
    Resumes [] ((n, later) :: around) d turns result ↔ Resumes later around d turns result := by
  rw [Resumes, resume?, Resumes]

theorem ends_of_resumes {c : Cursor} {later : List Node} {around : List (Node × List Node)}
    {d result : Diagnosis} {turns : Nat} (hnext : c.next? = resume? later around)
    (h : Resumes later around (d.note c.node.head) turns result) :
    Ends c d (turns + 1) result := by
  unfold Resumes at h
  split at h
  next heq => exact .turn (hnext.trans heq) h
  next heq =>
    obtain ⟨rfl, rfl⟩ := h
    exact .last (hnext.trans heq)

mutual

theorem ends_visit : ∀ (n : Node) {later : List Node} {around : List (Node × List Node)}
    {d result : Diagnosis} {turns : Nat}, Resumes later around (d.visit n) turns result →
    ∃ k ≤ n.preorder.length, Ends ⟨n, later, around⟩ d (turns + k) result
  | ⟨head, children⟩, later, around, d, result, turns, h => by
    have hnext := next?_eq ⟨⟨head, children⟩, later, around⟩
    rw [Diagnosis.visit] at h
    cases hmark : head.hasError with
    | true =>
      rw [hmark, if_pos rfl] at h hnext
      obtain ⟨k, hk, hchildren⟩ := resumes_visitAll children (resumes_nil_cons.2 h)
      exact ⟨k + 1, Nat.succ_le_succ hk, ends_of_resumes hnext hchildren⟩
    | false =>
      rw [hmark, if_neg (by simp)] at h hnext
      exact ⟨1, Nat.succ_pos _, ends_of_resumes hnext h⟩

theorem resumes_visitAll : ∀ (nodes : List Node) {around : List (Node × List Node)}
    {d result : Diagnosis} {turns : Nat},
    Resumes [] around (Diagnosis.visit.visitAll d nodes) turns result →
    ∃ k ≤ (Node.preorder.all nodes).length, Resumes nodes around d (turns + k) result
  | [], _, _, _, _, h => ⟨0, Nat.le_refl _, h⟩
  | n :: rest, around, d, result, turns, h => by
    rw [Diagnosis.visit.visitAll] at h
    obtain ⟨k, hk, hrest⟩ := resumes_visitAll rest h
    obtain ⟨j, hj, hends⟩ := ends_visit n hrest
    refine ⟨k + j, ?_, ?_⟩
    · rw [Node.preorder.all, List.length_append]
      omega
    · rw [resumes_cons, ← Nat.add_assoc]
      exact hends

end

/-- The loop ends after as many turns as there are nodes at most, with the diagnosis of the tree. -/
theorem ends_diagnosis (root : Node) (h : root.head.hasError = true) :
    ∃ turns ≤ root.preorder.length, Ends ⟨root, [], []⟩ {} turns root.diagnosis := by
  have hresumes : Resumes [] [] (({} : Diagnosis).visit root) 0 root.diagnosis := by
    rw [Resumes, resume?, Node.diagnosis, if_pos h]
    exact ⟨rfl, rfl⟩
  obtain ⟨k, hk, hends⟩ := ends_visit root hresumes
  exact ⟨0 + k, by omega, hends⟩

theorem Ends.unique {c : Cursor} {d first second : Diagnosis} {turns more : Nat}
    (h : Ends c d turns first) (h' : Ends c d more second) : turns = more ∧ first = second := by
  induction h generalizing more second with
  | last hnone =>
    cases h' with
    | last _ => exact ⟨rfl, rfl⟩
    | turn hsome _ => simp [hnone] at hsome
  | turn hsome _ ih =>
    cases h' with
    | last hnone => simp [hnone] at hsome
    | turn hsome' hends =>
      obtain rfl := Option.some.inj (hsome.symm.trans hsome')
      obtain ⟨rfl, rfl⟩ := ih hends
      exact ⟨rfl, rfl⟩

end Cursor

namespace Diagnosis

theorem errors_noteAll (d : Diagnosis) (nodes : List Node) :
    (d.noteAll nodes).errors = d.errors + nodes.countP (·.head.error) := by
  induction nodes generalizing d with
  | nil => rfl
  | cons n rest ih =>
    show (noteAll (d.note n.head) rest).errors = _
    rw [ih, List.countP_cons]
    cases herror : n.head.error with
    | true =>
      simp only [note, herror, if_true]
      omega
    | false => cases hmissing : n.head.missing <;> simp [note, herror, hmissing]

theorem missing_noteAll (d : Diagnosis) (nodes : List Node) :
    (d.noteAll nodes).missing =
      d.missing + nodes.countP fun n => n.head.missing && !n.head.error := by
  induction nodes generalizing d with
  | nil => rfl
  | cons n rest ih =>
    show (noteAll (d.note n.head) rest).missing = _
    rw [ih, List.countP_cons]
    cases herror : n.head.error with
    | true => simp [note, herror]
    | false =>
      cases hmissing : n.head.missing with
      | true =>
        simp only [note, herror, hmissing, Bool.false_eq_true, if_false, if_true, Bool.not_false,
          Bool.and_self]
        omega
      | false => simp [note, herror, hmissing]

def start (n : Node) : Nat × Nat :=
  (n.head.span.startLine, n.head.span.startColumn)

theorem firstError_noteAll_eq (d : Diagnosis) (nodes : List Node) :
    (d.noteAll nodes).firstError =
      d.firstError.or ((nodes.find? (·.head.error)).map start) := by
  induction nodes generalizing d with
  | nil => simp [noteAll]
  | cons n rest ih =>
    show (noteAll (d.note n.head) rest).firstError = _
    rw [ih]
    cases herror : n.head.error <;> cases hmissing : n.head.missing <;>
      simp [note, herror, hmissing, start]

end Diagnosis

namespace Node

/-- If the marks of a tree are right, its diagnosis counts all error nodes and all other missing
nodes of the tree, and tells where the first error node starts. The loop with a cursor ends with
this diagnosis and no other, after one turn for each node at most; if the root has no mark, there is
nothing to do. -/
theorem diagnosis_counts {root : Node} (h : root.Consistent) :
    (root.head.hasError = true →
      (∃ turns ≤ root.preorder.length, Cursor.Ends ⟨root, [], []⟩ {} turns root.diagnosis) ∧
        ∀ turns d, Cursor.Ends ⟨root, [], []⟩ {} turns d → d = root.diagnosis) ∧
    (root.head.hasError = false → root.diagnosis = {}) ∧
    root.diagnosis.errors = root.preorder.countP (·.head.error) ∧
    root.diagnosis.missing = root.preorder.countP (fun n => n.head.missing && !n.head.error) ∧
    root.diagnosis.firstError =
      (root.preorder.find? (·.head.error)).map
        (fun n => (n.head.span.startLine, n.head.span.startColumn)) ∧
    (root.diagnosis.firstError = none ↔ ∀ n ∈ root.preorder, n.head.error = false) := by
  refine ⟨fun hmark => ?_, fun hmark => if_neg (by simp [hmark]), ?_⟩
  · obtain ⟨turns, hle, hends⟩ := Cursor.ends_diagnosis root hmark
    exact ⟨⟨turns, hle, hends⟩, fun _ _ hother => (hother.unique hends).2⟩
  · rw [diagnosis_eq h, Diagnosis.errors_noteAll, Diagnosis.missing_noteAll,
      Diagnosis.firstError_noteAll_eq]
    refine ⟨Nat.zero_add _, Nat.zero_add _, Option.none_or, ?_⟩
    simp

/-- A tree with a missing token inside of an error, and a sound node that is not looked into. -/
def troubled : Node :=
  ⟨{ kind := "program", hasError := true },
    [⟨{ kind := "block" }, [⟨{ kind := "name" }, []⟩]⟩,
     ⟨{ kind := "ERROR", error := true, hasError := true,
        span := { startLine := 2, startColumn := 4 } },
       [⟨{ kind := ")", missing := true, hasError := true }, []⟩]⟩]⟩

theorem diagnosis_counts_troubled :
    troubled.Consistent ∧ troubled.head.hasError = true ∧ troubled.preorder.length = 5 ∧
      (∃ turns ≤ 5, Cursor.Ends ⟨troubled, [], []⟩ {} turns troubled.diagnosis) ∧
      troubled.diagnosis.errors = 1 ∧ troubled.diagnosis.missing = 1 ∧
      troubled.diagnosis.firstError = some (2, 4) := by
  have hconsistent : troubled.Consistent := by
    simp [Consistent, troubled, preorder, preorder.all]
  obtain ⟨hloop, -, herrors, hmissing, hfirst, -⟩ := diagnosis_counts hconsistent
  exact ⟨hconsistent, rfl, rfl, (hloop rfl).1, herrors, hmissing, hfirst⟩

end Node

end FactStream
