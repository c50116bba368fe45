import FactStream.Sink

/-!
# Handing facts to a sink

`out.deliver facts s` hands facts to a sink in the state `s` until one is refused, and
`out.taken facts s` are those it took in. The sink `out.logged` keeps a list of what `out` takes
in, and otherwise goes through the same states.

A computation `Gives` a list of facts if it does nothing to its sink but deliver them, and fails
with the refusal if one of them is refused. The rules for `Gives` follow the computation:
`Gives.bind` for two steps, `Gives.bind_error` for a step that ends it.
-/

namespace FactStream

namespace Sink

variable {σ : Type} (out : Sink σ)

/-- Hands in facts one after the other, up to the first one that is refused. -/
def deliver : List Fact → σ → σ × Option Refusal
  | [], s => (s, none)
  | f :: rest, s =>
    match out.accept s f with
    | (s, none) => deliver rest s
    | (s, some r) => (s, some r)

/-- The facts that are taken in, up to the first one that is refused. -/
def taken : List Fact → σ → List Fact
  | [], _ => []
  | f :: rest, s =>
    match out.accept s f with
    | (s, none) => f :: taken rest s
    | (_, some _) => []

/-- The sink that also lists the facts it takes in. -/
def logged : Sink (σ × List Fact) where
  accept s f :=
    match out.accept s.1 f with
    | (next, none) => ((next, s.2 ++ [f]), none)
    | (next, some r) => ((next, s.2), some r)

/-! ## Deliveries -/

theorem deliver_append (fs gs : List Fact) (s : σ) :
    out.deliver (fs ++ gs) s =
      match out.deliver fs s with
      | (s, none) => out.deliver gs s
      | (s, some r) => (s, some r) := by
  induction fs generalizing s with
  | nil => rfl
  | cons f fs ih =>
    rw [List.cons_append, deliver, deliver]
    rcases out.accept s f with ⟨s', _ | r⟩
    · exact ih s'
    · rfl

theorem deliver_of_accepting (h : ∀ s f, (out.accept s f).2 = none) (facts : List Fact) (s : σ) :
    (out.deliver facts s).2 = none := by
  induction facts generalizing s with
  | nil => rfl
  | cons f rest ih =>
    have hf := h s f
    rw [deliver]
    rcases hs : out.accept s f with ⟨s', _ | r⟩
    · exact ih s'
    · rw [hs] at hf
      simp at hf

theorem taken_prefix (facts : List Fact) (s : σ) : out.taken facts s <+: facts := by
  induction facts generalizing s with
  | nil => exact List.prefix_rfl
  | cons f rest ih =>
    rw [taken]
    rcases out.accept s f with ⟨s', _ | r⟩
    · exact (List.cons_prefix_cons).2 ⟨rfl, ih s'⟩
    · exact List.nil_prefix

theorem taken_of_deliver {facts : List Fact} {s t : σ} (h : out.deliver facts s = (t, none)) :
    out.taken facts s = facts := by
  induction facts generalizing s with
  | nil => rfl
  | cons f rest ih =>
    rw [deliver] at h
    rw [taken]
    rcases hs : out.accept s f with ⟨s', _ | r⟩
    · rw [hs] at h
      exact congrArg (f :: ·) (ih h)
    · rw [hs] at h
      simp at h

theorem deliver_logged (facts : List Fact) (s : σ) (log : List Fact) :
    out.logged.deliver facts (s, log) =
      (((out.deliver facts s).1, log ++ out.taken facts s), (out.deliver facts s).2) := by
  induction facts generalizing s log with
  | nil => simp [deliver, taken]
  | cons f rest ih =>
    rw [deliver, deliver, taken]
    rcases hs : out.accept s f with ⟨s', _ | r⟩
    · simp only [logged, hs]
      rw [← logged, ih]
      simp
    · simp [logged, hs]

end Sink

/-! ## Computations with a sink -/

/-- Where the states of a computation keep the sink, and how the computation fails if the sink
refuses a fact. -/
structure Outlet (σ ε S : Type) where
  sink : S → σ
  refuse : Refusal → ε

namespace Outlet

variable {σ ε S α β : Type}

/-- The state in which a computation ends. -/
def stateOf : EStateM.Result ε S α → S
  | .ok _ st => st
  | .error _ st => st

/-- The computation came to its end, with a value and a state that satisfy `P`. -/
def Ends (P : α → S → Prop) : EStateM.Result ε S α → Prop
  | .ok a st => P a st
  | .error _ _ => False

/-- The computation stopped early, with a failure and a state that satisfy `P`. -/
def Stops (P : ε → S → Prop) : EStateM.Result ε S α → Prop
  | .ok _ _ => False
  | .error e st => P e st

variable (w : Outlet σ ε S) (out : Sink σ)

/-- From `st` on, `m` does nothing to its sink but deliver `facts`. If one is refused, `m` fails
with the refusal, and otherwise it ends as `post` says. -/
def Gives (m : EStateM ε S α) (st : S) (facts : List Fact)
    (post : EStateM.Result ε S α → Prop) : Prop :=
  match out.deliver facts (w.sink st) with
  | (s, none) => post (m st) ∧ w.sink (stateOf (m st)) = s
  | (s, some r) => ∃ st', m st = .error (w.refuse r) st' ∧ w.sink st' = s

variable {w out} {m : EStateM ε S α} {k : α → EStateM ε S β} {st : S} {fs gs : List Fact}
  {post : EStateM.Result ε S α → Prop}

theorem Gives.mono {post' : EStateM.Result ε S α → Prop} (h : w.Gives out m st fs post)
    (hp : ∀ r, post r → post' r) : w.Gives out m st fs post' := by
  unfold Gives at h ⊢
  rcases hd : out.deliver fs (w.sink st) with ⟨s, _ | r⟩
  · rw [hd] at h
    exact ⟨hp _ h.1, h.2⟩
  · rw [hd] at h
    exact h

theorem gives_nil (hs : w.sink (stateOf (m st)) = w.sink st) (hp : post (m st)) :
    w.Gives out m st [] post :=
  ⟨hp, hs⟩

theorem Gives.bind {P : α → S → Prop} {post' : EStateM.Result ε S β → Prop}
    (h : w.Gives out m st fs (Ends P))
    (hk : ∀ a st', P a st' → w.Gives out (k a) st' gs post') :
    w.Gives out (m >>= k) st (fs ++ gs) post' := by
  unfold Gives at h ⊢
  rw [Sink.deliver_append]
  rcases hd : out.deliver fs (w.sink st) with ⟨s, _ | r⟩
  · rw [hd] at h
    obtain ⟨hm, hs⟩ := h
    cases hr : m st with
    | error e st' =>
      rw [hr] at hm
      exact hm.elim
    | ok a st' =>
      rw [hr] at hm hs
      have hb : (m >>= k) st = k a st' := by simp only [Bind.bind, EStateM.bind, hr]
      rw [hb, ← hs]
      exact hk a st' hm
  · rw [hd] at h
    obtain ⟨st', hr, hs⟩ := h
    exact ⟨st', by simp only [Bind.bind, EStateM.bind, hr], hs⟩

theorem Gives.bind_error {P : ε → S → Prop} (h : w.Gives out m st fs (Stops P)) :
    w.Gives out (m >>= k) st fs (Stops P) := by
  unfold Gives at h ⊢
  rcases hd : out.deliver fs (w.sink st) with ⟨s, _ | r⟩
  · rw [hd] at h
    obtain ⟨hm, hs⟩ := h
    cases hr : m st with
    | ok a st' =>
      rw [hr] at hm
      exact hm.elim
    | error e st' =>
      rw [hr] at hm hs
      have hb : (m >>= k) st = .error e st' := by simp only [Bind.bind, EStateM.bind, hr]
      rw [hb]
      exact ⟨hm, hs⟩
  · rw [hd] at h
    obtain ⟨st', hr, hs⟩ := h
    exact ⟨st', by simp only [Bind.bind, EStateM.bind, hr], hs⟩

theorem Gives.nil_bind {P : α → S → Prop} {post' : EStateM.Result ε S β → Prop}
    (h : w.Gives out m st [] (Ends P))
    (hk : ∀ a st', P a st' → w.Gives out (k a) st' gs post') :
    w.Gives out (m >>= k) st gs post' :=
  h.bind hk

theorem Gives.bind_nil {P : α → S → Prop} {post' : EStateM.Result ε S β → Prop}
    (h : w.Gives out m st fs (Ends P))
    (hk : ∀ a st', P a st' → w.Gives out (k a) st' [] post') :
    w.Gives out (m >>= k) st fs post' := by
  simpa using h.bind hk

theorem Gives.of_ok {P : α → S → Prop} {a : α} {st' : S} (h : w.Gives out m st fs (Ends P))
    (hm : m st = .ok a st') : P a st' ∧ out.deliver fs (w.sink st) = (w.sink st', none) := by
  unfold Gives at h
  rcases hd : out.deliver fs (w.sink st) with ⟨s, _ | r⟩
  · rw [hd, hm] at h
    exact ⟨h.1, by rw [← h.2, stateOf]⟩
  · rw [hd, hm] at h
    obtain ⟨_, hr, -⟩ := h
    simp at hr

theorem Gives.of_error {P : α → S → Prop} {e : ε} {st' : S} (h : w.Gives out m st fs (Ends P))
    (hm : m st = .error e st') :
    ∃ r, e = w.refuse r ∧ out.deliver fs (w.sink st) = (w.sink st', some r) := by
  unfold Gives at h
  rcases hd : out.deliver fs (w.sink st) with ⟨s, _ | r⟩
  · rw [hd, hm] at h
    exact h.1.elim
  · rw [hd, hm] at h
    obtain ⟨st₁, hr, rfl⟩ := h
    obtain ⟨rfl, rfl⟩ := EStateM.Result.error.inj hr
    exact ⟨r, rfl, rfl⟩

end Outlet

end FactStream
