import FactStream.Proofs.Reading
import FactStream.Proofs.Views

/-!
# How deep a walk goes

`Language.Reaches` says which nodes of a tree a walk without a limit comes to, and at which depth. A
walk with a limit stops early if one of them lies beyond it, and only then
(`WalkContext.stop_reading_iff`).
-/

namespace FactStream

/-- The sites to be looked at next. -/
def Outcome.branches {s : Site} : Outcome s → List (Branch s)
  | .elided | .unhandled => []
  | .passing todo | .fact _ _ _ todo => todo

theorem Treatment.branches_outcome (treatment : Treatment) (source : String) (s : Site) :
    (treatment.outcome source s).branches = treatment.parts.flatMap (Part.branches s) := by
  cases treatment <;> rfl

/-- A branch leads to its node one level deeper, or to the live members of its group two levels
deeper. -/
inductive Branch.Leads {s : Site} : Branch s → Inner s → Nat → Prop
  | node (d : Inner s) : Leads (.node d) d 1
  | member {name : String} {members : List (Inner s)} {kept : Bool} {d : Inner s} :
      d ∈ members → d.head.live = true → Leads (.group name members kept) d 2

/-- From a site at depth `n` a walk without a limit comes to the site `t` at depth `m`. -/
inductive Language.Reaches (language : Language) (source : String) :
    Site → Nat → Site → Nat → Prop
  | here (s : Site) (n : Nat) : Reaches language source s n s n
  | step {s t : Site} {n m k : Nat} {b : Branch s} {d : Inner s} : s.head.live = true →
      b ∈ (language.outcome source s).branches → b.Leads d k →
      Reaches language source d.val (n + k) t m → Reaches language source s n t m

/-- From a site at depth `n` a walk without a limit comes to a site beyond the limit. -/
def Language.ReachesBeyond (language : Language) (source : String) (limit : Nat) (s : Site)
    (n : Nat) : Prop :=
  ∃ t m, language.Reaches source s n t m ∧ limit < m

namespace Reading

theorem isSome_stop_followedBy (r t : Reading) :
    (r.followedBy t).stop.isSome ↔ r.stop.isSome ∨ t.stop.isSome := by
  unfold followedBy
  cases h : r.stop <;> simp [h]

end Reading

namespace WalkContext

variable {c : WalkContext} {limit : Nat}

/-- The walk goes beyond the limit along one of the branches. -/
def BranchesBeyond (c : WalkContext) (limit : Nat) {s : Site} (todo : List (Branch s))
    (depth : Nat) : Prop :=
  ∃ b ∈ todo, ∃ d k, b.Leads d k ∧ c.language.ReachesBeyond c.source limit d.val (depth + k)

theorem branchesBeyond_cons {s : Site} {b : Branch s} {rest : List (Branch s)} {depth : Nat} :
    c.BranchesBeyond limit (b :: rest) depth ↔
      (∃ d k, b.Leads d k ∧ c.language.ReachesBeyond c.source limit d.val (depth + k)) ∨
        c.BranchesBeyond limit rest depth := by
  simp [BranchesBeyond]

theorem reachesBeyond_iff {s : Site} {depth : Nat} (h : depth ≤ limit) :
    c.language.ReachesBeyond c.source limit s depth ↔
      s.head.live = true ∧
        c.BranchesBeyond limit (c.language.outcome c.source s).branches depth := by
  constructor
  · rintro ⟨t, m, hreach, hm⟩
    cases hreach with
    | here => omega
    | step hlive hb hleads hreach => exact ⟨hlive, _, hb, _, _, hleads, t, m, hreach, hm⟩
  · rintro ⟨hlive, b, hb, d, k, hleads, t, m, hreach, hm⟩
    exact ⟨t, m, .step hlive hb hleads hreach, hm⟩

mutual

theorem stop_reading_iff (hlimit : c.maxDepth = some limit) (s : Site) (grouped : Bool)
    (depth : Nat) :
    (c.reading s grouped depth).stop.isSome ↔
      c.language.ReachesBeyond c.source limit s depth := by
  unfold reading
  rw [hlimit, Option.filter_some]
  by_cases hdepth : limit < depth
  · have hbeyond : c.language.ReachesBeyond c.source limit s depth :=
      ⟨s, depth, .here s depth, hdepth⟩
    simpa [hdepth] using hbeyond
  · rw [reachesBeyond_iff (Nat.le_of_not_lt hdepth)]
    simp only [hdepth, decide_false, Bool.false_eq_true, if_false]
    split
    case isTrue hlive =>
      cases ho : c.language.outcome c.source s with
      | elided => simp [Outcome.branches, BranchesBeyond]
      | unhandled => simp [Outcome.branches, BranchesBeyond]
      | passing todo =>
        simpa [Outcome.branches, hlive] using stop_readBranches_iff hlimit s todo depth
      | fact kind properties positional todo =>
        simpa [Outcome.branches, hlive, Reading.under] using
          stop_readBranches_iff hlimit s todo depth
    case isFalse hlive => simp [hlive]
termination_by (sizeOf s.node, 2, 0)

theorem stop_readBranches_iff (hlimit : c.maxDepth = some limit) (s : Site)
    (todo : List (Branch s)) (depth : Nat) :
    (c.readBranches s todo depth).stop.isSome ↔ c.BranchesBeyond limit todo depth := by
  match todo with
  | [] =>
    unfold readBranches
    simp [BranchesBeyond]
  | .node d :: rest =>
    have hnode : (∃ e k, (Branch.node d).Leads e k ∧
        c.language.ReachesBeyond c.source limit e.val (depth + k)) ↔
        c.language.ReachesBeyond c.source limit d.val (depth + 1) := by
      constructor
      · rintro ⟨e, k, hleads, hbeyond⟩
        cases hleads
        exact hbeyond
      · intro hbeyond
        exact ⟨d, 1, .node d, hbeyond⟩
    unfold readBranches
    rw [Reading.isSome_stop_followedBy, branchesBeyond_cons, hnode,
      stop_reading_iff hlimit d.val false (depth + 1), stop_readBranches_iff hlimit s rest depth]
  | .group name found kept :: rest =>
    have hgroup : (∃ e k, (Branch.group name found kept).Leads e k ∧
        c.language.ReachesBeyond c.source limit e.val (depth + k)) ↔
        ∃ e ∈ found.filter (·.head.live),
          c.language.ReachesBeyond c.source limit e.val (depth + 2) := by
      constructor
      · rintro ⟨e, k, hleads, hbeyond⟩
        cases hleads with
        | member hmem hlive => exact ⟨e, List.mem_filter.2 ⟨hmem, hlive⟩, hbeyond⟩
      · rintro ⟨e, hmem, hbeyond⟩
        obtain ⟨hmem, hlive⟩ := List.mem_filter.1 hmem
        exact ⟨e, 2, .member hmem hlive, hbeyond⟩
    unfold readBranches
    rw [branchesBeyond_cons, hgroup]
    dsimp only
    split
    case isTrue hempty =>
      have hnone : found.filter (·.head.live) = [] := by
        simpa using (Bool.and_eq_true_iff.1 hempty).1
      rw [hnone, stop_readBranches_iff hlimit s rest depth]
      simp
    case isFalse =>
      rw [Reading.isSome_stop_followedBy, stop_readBranches_iff hlimit s rest depth,
        ← stop_readMembers_iff hlimit s (found.filter (·.head.live)) depth]
      rfl
termination_by (sizeOf s.node, 1, todo.length)
decreasing_by
  · exact .left _ _ d.property.sizeOf_lt
  · exact .right _ (.right _ (Nat.lt_succ_self _))
  · exact .right _ (.right _ (Nat.lt_succ_self _))
  · exact .right _ (.left _ _ Nat.zero_lt_one)
  · exact .right _ (.right _ (Nat.lt_succ_self _))

theorem stop_readMembers_iff (hlimit : c.maxDepth = some limit) (s : Site)
    (todo : List (Inner s)) (depth : Nat) :
    (c.readMembers s todo depth).stop.isSome ↔
      ∃ d ∈ todo, c.language.ReachesBeyond c.source limit d.val (depth + 2) := by
  match todo with
  | [] =>
    unfold readMembers
    simp
  | d :: rest =>
    unfold readMembers
    rw [Reading.isSome_stop_followedBy, stop_reading_iff hlimit d.val true (depth + 2),
      stop_readMembers_iff hlimit s rest depth]
    simp
termination_by (sizeOf s.node, 0, todo.length)
decreasing_by
  · exact .left _ _ d.property.sizeOf_lt
  · exact .right _ (.right _ (Nat.lt_succ_self _))

end

end WalkContext

/-- A limited walk tells whether a node lies beyond the limit. -/
instance (language : Language) (source : String) (limit : Nat) (s : Site) (n : Nat) :
    Decidable (language.ReachesBeyond source limit s n) :=
  decidable_of_iff _
    (WalkContext.stop_reading_iff (c := ⟨language, source, "", some limit⟩) rfl s false n)

end FactStream
