import FactStream.Project
import FactStream.Proofs.Forest

/-!
# Directories whose facts are held back

The trail of a run lists the directories that are being visited, the innermost first. A forest that
is found in the innermost of them brings out the facts that are held back, if there is a fact in it
at all: `RunPlan.released` are all the facts that then come out, and `settle` is the trail
afterwards. Both follow a forest piece by piece (`released_append`, `settle_append`), so that it
does not matter in how many pieces it is found.
-/

namespace FactStream

namespace RunPlan

/-- The content of the fact for the project, a directory or a file. -/
def framing (plan : RunPlan) (kind filename : String) (orderable : Bool) : Content where
  commonKind := plan.language.commonKind kind
  kind
  nameSpace := plan.language.nameSpace
  orderable
  properties := commonProperties plan.language.naming filename {}

theorem framingFact_eq (plan : RunPlan) (kind key : String) (parent : Frame) (filename : String)
    (orderable : Bool) :
    plan.framingFact kind key parent filename orderable =
      (plan.framing kind filename orderable).toFact key parent := rfl

/-- A trail after the facts held back were given. -/
def opened : List OpenFolder → List OpenFolder
  | [] => []
  | here :: above =>
    match here.emitted, opened above with
    | false, parent :: rest =>
      { here with emitted := true } ::
        { parent with frame := (parent.frame.addChild here.frame.key).2 } :: rest
    | _, above => here :: above

/-- The facts held back in a trail, the outermost first. -/
def heldBack (plan : RunPlan) : List OpenFolder → List Fact
  | [] => []
  | here :: above =>
    match here.emitted, opened above with
    | false, parent :: _ =>
      plan.heldBack above ++
        [plan.framingFact "dir" here.frame.key parent.frame here.filename false]
    | _, _ => plan.heldBack above

/-- The trail after a forest was found in the innermost directory. -/
def settle (keys : KeyCounter) (forest : Forest) (trail : List OpenFolder) : List OpenFolder :=
  if forest.hasFact then
    match opened trail with
    | [] => []
    | here :: above => { here with frame := forest.grow keys here.frame } :: above
  else trail

/-- The facts that come out when a forest is found in the innermost directory. -/
def released (plan : RunPlan) (keys : KeyCounter) (forest : Forest) (trail : List OpenFolder) :
    List Fact :=
  if forest.hasFact then
    plan.heldBack trail ++
      match opened trail with
      | [] => []
      | here :: _ => forest.facts keys here.frame
  else []

/-- The number of facts held back that come out when a forest is found. -/
def releasedFolders (plan : RunPlan) (forest : Forest) (trail : List OpenFolder) : Nat :=
  if forest.hasFact then (plan.heldBack trail).length else 0

/-! ## Trails of a run -/

/-- The fact of the outermost entry, which is the project, was given. -/
def Rooted (trail : List OpenFolder) : Prop :=
  ∃ top, trail.getLast? = some top ∧ top.emitted = true

/-- The fact of every entry was given. -/
def AllGiven (trail : List OpenFolder) : Prop :=
  ∀ entry ∈ trail, entry.emitted = true

theorem Rooted.cons {trail : List OpenFolder} (h : Rooted trail) (entry : OpenFolder) :
    Rooted (entry :: trail) := by
  obtain ⟨top, htop, hgiven⟩ := h
  refine ⟨top, ?_, hgiven⟩
  rw [List.getLast?_cons, htop]
  rfl

theorem Rooted.of_cons {entry next : OpenFolder} {rest : List OpenFolder}
    (h : Rooted (entry :: next :: rest)) : Rooted (next :: rest) := by
  obtain ⟨top, htop, hgiven⟩ := h
  rw [List.getLast?_cons_cons] at htop
  exact ⟨top, htop, hgiven⟩

theorem Rooted.ne_nil {trail : List OpenFolder} (h : Rooted trail) : trail ≠ [] := by
  rintro rfl
  obtain ⟨top, htop, -⟩ := h
  simp at htop

theorem AllGiven.rooted {trail : List OpenFolder} (h : AllGiven trail) (hne : trail ≠ []) :
    Rooted trail :=
  ⟨trail.getLast hne, List.getLast?_eq_some_getLast hne, h _ (List.getLast_mem hne)⟩

theorem exists_opened {trail : List OpenFolder} (h : Rooted trail) :
    ∃ here above, opened trail = here :: above ∧ AllGiven (here :: above) := by
  induction trail with
  | nil => exact absurd rfl h.ne_nil
  | cons entry rest ih =>
    rw [opened]
    cases hrest : rest with
    | nil =>
      subst hrest
      obtain ⟨top, htop, hgiven⟩ := h
      obtain rfl : entry = top := by simpa using htop
      refine ⟨entry, [], ?_, by simpa [AllGiven] using hgiven⟩
      simp [opened, hgiven]
    | cons next above =>
      rw [hrest] at h
      obtain ⟨parent, outer, hopened, hall⟩ := ih (hrest ▸ h.of_cons)
      rw [← hrest, hopened]
      cases hgiven : entry.emitted with
      | true =>
        refine ⟨entry, parent :: outer, rfl, ?_⟩
        intro e he
        rcases List.mem_cons.1 he with rfl | he
        · exact hgiven
        · exact hall e he
      | false =>
        refine ⟨_, _, rfl, ?_⟩
        intro e he
        rcases List.mem_cons.1 he with rfl | he
        · rfl
        rcases List.mem_cons.1 he with rfl | he
        · exact hall parent List.mem_cons_self
        · exact hall e (List.mem_cons_of_mem _ he)

theorem opened_of_allGiven {trail : List OpenFolder} (h : AllGiven trail) :
    opened trail = trail := by
  induction trail with
  | nil => rfl
  | cons entry rest ih =>
    rw [opened, ih fun e he => h e (List.mem_cons_of_mem _ he), h entry List.mem_cons_self]

theorem heldBack_of_allGiven (plan : RunPlan) {trail : List OpenFolder} (h : AllGiven trail) :
    plan.heldBack trail = [] := by
  induction trail with
  | nil => rfl
  | cons entry rest ih =>
    rw [heldBack, h entry List.mem_cons_self]
    exact ih fun e he => h e (List.mem_cons_of_mem _ he)

/-! ## Finding a forest in pieces -/

variable {trail : List OpenFolder} {f g : Forest} {keys : KeyCounter}

theorem settle_of_not_hasFact (h : f.hasFact = false) : settle keys f trail = trail := by
  simp [settle, h]

theorem settle_of_hasFact {here : OpenFolder} {above : List OpenFolder}
    (ho : opened trail = here :: above) (h : f.hasFact = true) :
    settle keys f trail = { here with frame := f.grow keys here.frame } :: above := by
  simp [settle, h, ho]

theorem released_of_not_hasFact (plan : RunPlan) (h : f.hasFact = false) :
    plan.released keys f trail = [] := by
  simp [released, h]

theorem released_of_hasFact (plan : RunPlan) {here : OpenFolder} {above : List OpenFolder}
    (ho : opened trail = here :: above) (h : f.hasFact = true) :
    plan.released keys f trail = plan.heldBack trail ++ f.facts keys here.frame := by
  simp [released, h, ho]

theorem allGiven_grown {here : OpenFolder} {above : List OpenFolder} {frame : Frame}
    (h : AllGiven (here :: above)) : AllGiven ({ here with frame } :: above) := by
  intro e he
  rcases List.mem_cons.1 he with rfl | he
  · exact h here List.mem_cons_self
  · exact h e (List.mem_cons_of_mem _ he)

theorem rooted_settle (h : Rooted trail) : Rooted (settle keys f trail) := by
  cases hf : f.hasFact with
  | false => rwa [settle_of_not_hasFact hf]
  | true =>
    obtain ⟨here, above, ho, hall⟩ := exists_opened h
    rw [settle_of_hasFact ho hf]
    exact (allGiven_grown hall).rooted (List.cons_ne_nil _ _)

theorem settle_append (h : Rooted trail) :
    settle keys (f ++ g) trail = settle (keys.advance f.size) g (settle keys f trail) := by
  obtain ⟨here, above, ho, hall⟩ := exists_opened h
  have hfg := Forest.hasFact_append f g
  cases hf : f.hasFact with
  | false =>
    rw [hf, Bool.false_or] at hfg
    rw [settle_of_not_hasFact hf]
    cases hg : g.hasFact with
    | false => rw [settle_of_not_hasFact (hfg.trans hg), settle_of_not_hasFact hg]
    | true =>
      rw [settle_of_hasFact ho (hfg.trans hg), settle_of_hasFact ho hg, Forest.grow_append,
        Forest.grow_of_not_hasFact hf]
  | true =>
    rw [hf, Bool.true_or] at hfg
    -- After the first piece all facts are given, and the second one finds nothing held back.
    have hgrown : AllGiven ({ here with frame := f.grow keys here.frame } :: above) :=
      allGiven_grown hall
    rw [settle_of_hasFact ho hfg, settle_of_hasFact ho hf, Forest.grow_append]
    cases hg : g.hasFact with
    | false => rw [settle_of_not_hasFact hg, Forest.grow_of_not_hasFact hg]
    | true => rw [settle_of_hasFact (opened_of_allGiven hgrown) hg]

theorem released_append (plan : RunPlan) (h : Rooted trail) :
    plan.released keys (f ++ g) trail =
      plan.released keys f trail ++
        plan.released (keys.advance f.size) g (settle keys f trail) := by
  obtain ⟨here, above, ho, hall⟩ := exists_opened h
  have hfg := Forest.hasFact_append f g
  cases hf : f.hasFact with
  | false =>
    rw [hf, Bool.false_or] at hfg
    rw [settle_of_not_hasFact hf, plan.released_of_not_hasFact hf, List.nil_append]
    cases hg : g.hasFact with
    | false =>
      rw [plan.released_of_not_hasFact (hfg.trans hg), plan.released_of_not_hasFact hg]
    | true =>
      rw [plan.released_of_hasFact ho (hfg.trans hg), plan.released_of_hasFact ho hg,
        Forest.facts_append, Forest.facts_of_not_hasFact hf, Forest.grow_of_not_hasFact hf,
        List.nil_append]
  | true =>
    rw [hf, Bool.true_or] at hfg
    have hgrown : AllGiven ({ here with frame := f.grow keys here.frame } :: above) :=
      allGiven_grown hall
    rw [plan.released_of_hasFact ho hfg, plan.released_of_hasFact ho hf,
      settle_of_hasFact ho hf, Forest.facts_append]
    cases hg : g.hasFact with
    | false => rw [plan.released_of_not_hasFact hg, Forest.facts_of_not_hasFact hg]; simp
    | true =>
      rw [plan.released_of_hasFact (opened_of_allGiven hgrown) hg,
        plan.heldBack_of_allGiven hgrown, List.nil_append, List.append_assoc]

theorem releasedFolders_append (plan : RunPlan) (h : Rooted trail) :
    plan.releasedFolders (f ++ g) trail =
      plan.releasedFolders f trail + plan.releasedFolders g (settle keys f trail) := by
  obtain ⟨here, above, ho, hall⟩ := exists_opened h
  cases hf : f.hasFact with
  | false => simp [releasedFolders, settle_of_not_hasFact hf, hf]
  | true =>
    have hgrown : AllGiven ({ here with frame := f.grow keys here.frame } :: above) :=
      allGiven_grown hall
    simp [releasedFolders, settle_of_hasFact ho hf, hf, plan.heldBack_of_allGiven hgrown]

/-! ## Directories that are entered -/

section Entered

variable {filename : String} {here : OpenFolder} {above : List OpenFolder}

/-- A directory that was just entered: its fact is held back. -/
def entered (key filename : String) : OpenFolder where
  frame := { key }
  filename
  emitted := false

theorem opened_entered (key filename : String) (ho : opened trail = here :: above) :
    opened (entered key filename :: trail) =
      { entered key filename with emitted := true } ::
        { here with frame := (here.frame.addChild key).2 } :: above := by
  simp [opened, ho, entered]

theorem heldBack_entered (plan : RunPlan) (key filename : String)
    (ho : opened trail = here :: above) :
    plan.heldBack (entered key filename :: trail) =
      plan.heldBack trail ++ [plan.framingFact "dir" key here.frame filename false] := by
  simp [heldBack, ho, entered]

theorem released_entered (plan : RunPlan) (h : Rooted trail) (hf : f.hasFact = true) :
    plan.released (keys.advance 1) f (entered (keys.key (keys.last + 1)) filename :: trail) =
      plan.released keys (.fact (plan.framing "dir" filename false) f .nil) trail := by
  obtain ⟨here, above, ho, -⟩ := exists_opened h
  rw [plan.released_of_hasFact (opened_entered _ _ ho) hf, plan.heldBack_entered _ _ ho,
    plan.released_of_hasFact ho rfl]
  simp [Forest.facts, framingFact_eq, entered]

theorem settle_entered (plan : RunPlan) (h : Rooted trail) (hf : f.hasFact = true) :
    ∃ entry, entry.emitted = true ∧
      settle (keys.advance 1) f (entered (keys.key (keys.last + 1)) filename :: trail) =
        entry :: settle keys (.fact (plan.framing "dir" filename false) f .nil) trail := by
  obtain ⟨here, above, ho, -⟩ := exists_opened h
  rw [settle_of_hasFact (opened_entered _ _ ho) hf, settle_of_hasFact ho rfl]
  exact ⟨_, rfl, rfl⟩

theorem releasedFolders_entered (plan : RunPlan) (key : String) (h : Rooted trail)
    (hf : f.hasFact = true) :
    plan.releasedFolders f (entered key filename :: trail) =
      1 + plan.releasedFolders (.fact (plan.framing "dir" filename false) f .nil) trail := by
  obtain ⟨here, above, ho, -⟩ := exists_opened h
  simp [releasedFolders, hf, plan.heldBack_entered _ _ ho, Forest.hasFact, Nat.add_comm]

/-- The fact of the directory is given as soon as a fact is found in it. -/
theorem exists_settle (keys : KeyCounter) (f : Forest) (key filename : String) (h : Rooted trail) :
    ∃ here above, settle keys f (entered key filename :: trail) = here :: above ∧
      here.emitted = f.hasFact := by
  cases hf : f.hasFact with
  | false => exact ⟨_, trail, settle_of_not_hasFact hf, rfl⟩
  | true =>
    obtain ⟨here, above, ho, -⟩ := exists_opened h
    exact ⟨_, _, settle_of_hasFact (opened_entered key filename ho) hf, rfl⟩

end Entered

end RunPlan

end FactStream
