import FactStream.Proofs.Cut
import FactStream.Proofs.Outline
import FactStream.Proofs.Renaming

/-!
# The trunk key only names

Two runs of one project from different trunk keys give the same stream, up to the names of the keys:
`KeyCounter.rekey` takes the trunk key of the one run to that of the other, and shifts the numbers
of all other keys. No two keys of a run get the same name by this, not even if a trunk key has
leading zeros or a number of its own.

Main statement: `RunPlan.run_rekey`.
-/

namespace FactStream

/-! ## Names -/

namespace KeyCounter

/-- The number of a key of this counter. -/
def number? (keys : KeyCounter) (key : String) : Option Nat :=
  (Number.readNat? 10 (key.toList.dropWhile (· ≠ '_')).tail).filter fun n => key = keys.key n

/-- What a run that counts on from `trunkKey'` calls the key that a run from `trunkKey` gives. -/
def rekey (trunkKey trunkKey' : String) (keys keys' : KeyCounter) (key : String) : String :=
  if key = trunkKey then trunkKey'
  else match keys.number? key with
    | some n => keys'.key (n - keys.last + keys'.last)
    | none => key

theorem number?_key (keys : KeyCounter) (n : Nat) : keys.number? (keys.key n) = some n := by
  rw [number?, dropWhile_key, List.tail_cons, Number.readNat?_toDigits, Option.filter_some,
    if_pos (by simp)]

theorem number?_empty (keys : KeyCounter) : keys.number? "" = none := rfl

variable {trunkKey trunkKey' : String} {keys keys' : KeyCounter}

theorem rekey_trunkKey : rekey trunkKey trunkKey' keys keys' trunkKey = trunkKey' :=
  if_pos rfl

theorem rekey_key (hkeys : parse? trunkKey = some keys) {n : Nat} (hn : keys.last < n) :
    rekey trunkKey trunkKey' keys keys' (keys.key n) = keys'.key (n - keys.last + keys'.last) := by
  rw [rekey, if_neg (key_ne_trunkKey hkeys hn), number?_key]

theorem rekey_empty (hkeys : parse? trunkKey = some keys) :
    rekey trunkKey trunkKey' keys keys' "" = "" := by
  rw [rekey, if_neg (trunkKey_ne_empty hkeys).symm, number?_empty]

theorem rekey_inj (hkeys : parse? trunkKey = some keys) (hkeys' : parse? trunkKey' = some keys')
    {key key' : String} (hkey : key = trunkKey ∨ ∃ n, keys.last < n ∧ key = keys.key n)
    (hkey' : key' = trunkKey ∨ ∃ n, keys.last < n ∧ key' = keys.key n)
    (h : rekey trunkKey trunkKey' keys keys' key = rekey trunkKey trunkKey' keys keys' key') :
    key = key' := by
  have hfresh : ∀ n, keys.last < n → keys'.key (n - keys.last + keys'.last) ≠ trunkKey' :=
    fun n hn => key_ne_trunkKey hkeys' (by omega)
  rcases hkey with rfl | ⟨m, hm, rfl⟩
  · rcases hkey' with rfl | ⟨n, hn, rfl⟩
    · rfl
    · rw [rekey_trunkKey, rekey_key hkeys hn] at h
      exact absurd h.symm (hfresh n hn)
  · rcases hkey' with rfl | ⟨n, hn, rfl⟩
    · rw [rekey_trunkKey, rekey_key hkeys hm] at h
      exact absurd h (hfresh m hm)
    · rw [rekey_key hkeys hm, rekey_key hkeys hn, key_inj] at h
      obtain rfl : m = n := by omega
      rfl

end KeyCounter

/-! ## Streams -/

/-- The names of the keys that are still to come are shifted from one counter to the other. -/
def KeyCounter.Shifts (ρ : String → String) (keys keys' : KeyCounter) : Prop :=
  ∀ n, keys.last < n → ρ (keys.key n) = keys'.key (n - keys.last + keys'.last)

section Shifts

variable {ρ : String → String} {keys keys' : KeyCounter}

theorem KeyCounter.Shifts.next (h : Shifts ρ keys keys') :
    ρ (keys.key (keys.last + 1)) = keys'.key (keys'.last + 1) := by
  rw [h _ (Nat.lt_succ_self _)]
  congr 1
  omega

theorem KeyCounter.Shifts.advance (h : Shifts ρ keys keys') (k : Nat) :
    Shifts ρ (keys.advance k) (keys'.advance k) := by
  intro n hn
  rw [advance_last] at hn
  rw [advance_key, advance_key, h n (by omega), advance_last, advance_last]
  congr 1
  omega

/-- If the names of the keys are shifted with the counter, so is the stream of a forest. -/
theorem Forest.rename_facts (f : Forest) (h : KeyCounter.Shifts ρ keys keys') (parent : Frame) :
    (f.facts keys parent).map (Fact.rename ρ) = f.facts keys' (parent.rename ρ) := by
  induction f generalizing keys keys' parent with
  | nil => rfl
  | fact content below after ihb iha =>
    have hnew : ({ key := keys.key (keys.last + 1) } : Frame).rename ρ =
        { key := keys'.key (keys'.last + 1) } := by
      simp [Frame.rename, h.next]
    simp only [facts, List.map_cons, List.map_append, Content.rename_toFact, h.next,
      ihb (h.advance 1), iha (h.advance (below.size + 1)), Frame.rename_addChild, hnew]
  | gap after ih => exact ih (h.advance 1) parent

end Shifts

/-- The sink that renames the keys of facts before it takes them in. -/
def Sink.relabelled {σ : Type} (out : Sink σ) (ρ : String → String) : Sink σ where
  accept s f := out.accept s (f.rename ρ)

theorem Sink.deliver_relabelled {σ : Type} (out : Sink σ) (ρ : String → String) (facts : List Fact)
    (s : σ) : (out.relabelled ρ).deliver facts s = out.deliver (facts.map (Fact.rename ρ)) s := by
  induction facts generalizing s with
  | nil => rfl
  | cons f rest ih =>
    rw [deliver, List.map_cons, deliver]
    simp only [relabelled]
    rcases out.accept s (f.rename ρ) with ⟨s', _ | r⟩
    · exact ih s'
    · rfl

namespace RunPlan

variable {plan : RunPlan} {trunkKey trunkKey' : String} {keys keys' : KeyCounter}

theorem stream_rekey (hkeys : KeyCounter.parse? trunkKey = some keys) (root : Folder) :
    (plan.stream trunkKey keys root).map
        (Fact.rename (KeyCounter.rekey trunkKey trunkKey' keys keys')) =
      plan.stream trunkKey' keys' root := by
  rw [stream, List.map_cons,
    Forest.rename_facts _ (fun n hn => KeyCounter.rekey_key hkeys hn) { key := trunkKey }]
  simp only [stream, projectFact, framingFact, Fact.rename, Frame.rename,
    KeyCounter.rekey_trunkKey, KeyCounter.rekey_empty hkeys, List.map_nil]

/-- The trunk key only names the facts of a run. From another trunk key, a run of the same project
comes to the same end with the same totals, and its facts are the same with their keys renamed: the
project has the other trunk key, and the numbers of all other keys are shifted. The names are not
mixed up by this. Whatever the sink is, it gets the renamed facts of the first run one by one. -/
theorem run_rekey (plan : RunPlan) (disk : Disk) (path : String) {trunkKey trunkKey' : String}
    {keys keys' : KeyCounter} (hkeys : KeyCounter.parse? trunkKey = some keys)
    (hkeys' : KeyCounter.parse? trunkKey' = some keys') :
    let ρ := KeyCounter.rekey trunkKey trunkKey' keys keys'
    let first := plan.run .collect disk path trunkKey #[]
    let second := plan.run .collect disk path trunkKey' #[]
    (ρ trunkKey = trunkKey' ∧ ρ "" = "" ∧
      ∀ n, keys.last < n → ρ (keys.key n) = keys'.key (n - keys.last + keys'.last)) ∧
    second.sink.toList = first.sink.toList.map (Fact.rename ρ) ∧ second.result = first.result ∧
    (∀ f ∈ first.sink.toList, ∀ g ∈ first.sink.toList, ρ f.key = ρ g.key → f.key = g.key) ∧
    ∀ {σ : Type} (out : Sink σ) (start : σ),
      (plan.run out disk path trunkKey' start).sink =
          (plan.run (out.relabelled ρ) disk path trunkKey start).sink ∧
        (plan.run out disk path trunkKey' start).result =
          (plan.run (out.relabelled ρ) disk path trunkKey start).result := by
  intro ρ first second
  refine ⟨⟨KeyCounter.rekey_trunkKey, KeyCounter.rekey_empty hkeys,
    fun n hn => KeyCounter.rekey_key hkeys hn⟩, ?_⟩
  cases hscan : plan.scan disk path with
  | error failure =>
    have hfailed : ∀ {σ : Type} (out : Sink σ) (start : σ) {trunk : String} {counter : KeyCounter},
        KeyCounter.parse? trunk = some counter →
        plan.run out disk path trunk start =
          { result := .error failure, sink := start, notices := [] } := by
      intro σ out start trunk counter hparse
      rw [run_eq, hparse, hscan]
    simp only [first, second, hfailed _ _ hkeys, hfailed _ _ hkeys']
    simp
  | ok root =>
    obtain ⟨hfirst, hresult⟩ := run_collect hkeys hscan
    obtain ⟨hsecond, hresult'⟩ := run_collect hkeys' hscan
    have hstream : (plan.stream trunkKey keys root).map (Fact.rename ρ) =
        plan.stream trunkKey' keys' root := stream_rekey hkeys root
    refine ⟨?_, hresult'.trans hresult.symm, ?_, ?_⟩
    · rw [show second.sink.toList = _ from hsecond, show first.sink.toList = _ from hfirst, hstream]
    · have hkey : ∀ f ∈ first.sink.toList,
          f.key = trunkKey ∨ ∃ n, keys.last < n ∧ f.key = keys.key n := by
        intro f hf
        rw [show first.sink.toList = _ from hfirst] at hf
        have hmem := List.mem_map_of_mem (f := fun f : Fact => f.key) hf
        rw [map_key_stream, List.mem_cons, List.mem_map] at hmem
        rcases hmem with hk | ⟨n, hn, hk⟩
        · exact .inl hk
        · exact .inr ⟨n, (Forest.mem_numbers _ hn).1, hk.symm⟩
      exact fun f hf g hg => KeyCounter.rekey_inj hkeys hkeys' (hkey f hf) (hkey g hg)
    · intro σ out start
      obtain ⟨hsink, hend⟩ := plan.runFolder_ends (out.relabelled ρ) trunkKey keys root start
      obtain ⟨hsink', hend'⟩ := plan.runFolder_ends out trunkKey' keys' root start
      rw [run_of_scan hkeys hscan, run_of_scan hkeys' hscan, hsink, hsink', hend, hend',
        out.deliver_relabelled, hstream]
      exact ⟨rfl, rfl⟩

/-- The small project from a trunk key with leading zeros and a number, and from one without. -/
theorem run_rekey_padded :
    let ρ := KeyCounter.rekey "007_05" "3" ⟨7, 5⟩ ⟨3, 0⟩
    let facts trunkKey := (smallPlan.run .collect smallDisk "." trunkKey #[]).sink.toList
    KeyCounter.parse? "007_05" = some ⟨7, 5⟩ ∧ KeyCounter.parse? "3" = some ⟨3, 0⟩ ∧
      ρ "007_05" = "3" ∧ ρ "7_6" = "3_1" ∧ ρ "7_14" = "3_9" ∧
      facts "007_05" ≠ [] ∧ facts "3" = (facts "007_05").map (Fact.rename ρ) := by
  intro ρ facts
  have hkeys : KeyCounter.parse? "007_05" = some ⟨7, 5⟩ := by decide
  have hkeys' : KeyCounter.parse? "3" = some ⟨3, 0⟩ := by decide
  obtain ⟨⟨htrunk, -, hshift⟩, hfacts, -⟩ := smallPlan.run_rekey smallDisk "." hkeys hkeys'
  refine ⟨hkeys, hkeys', htrunk, hshift 6 (by decide), hshift 14 (by decide), ?_, hfacts⟩
  rw [show facts "007_05" = _ from (run_collect hkeys scan_small).1, stream]
  exact List.cons_ne_nil _ _

end RunPlan

end FactStream
