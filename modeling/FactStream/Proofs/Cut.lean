import FactStream.Proofs.Stream
import FactStream.Wire

/-!
# Runs that their sink cuts off

Whatever its sink does, a run hands in the facts of the unlimited run one after the other, up to the
first refusal, which is how it then fails (`RunPlan.run_deliver`). So a sink with room for so many
facts ends up with the first facts, and a stream of records with room for so many bytes ends up with
the first bytes.

Main statement: `RunPlan.cut_of_run`.
-/

namespace FactStream

def Fact.recordBytes (f : Fact) : List UInt8 :=
  f.record.toUTF8.data.toList

/-- The bytes of the line of a fact: its record and a line feed. -/
def Fact.line (f : Fact) : List UInt8 :=
  f.recordBytes ++ [10]

theorem Fact.length_line (f : Fact) : f.line.length = f.recordBytes.length + 1 := by
  simp [line]

/-- How a stream of records refuses a line after the first `part` of its bytes: what is missing is
the line feed alone, or also some of the record. -/
def Fact.refusalAfter (f : Fact) (message : String) (part : List UInt8) : Refusal :=
  if part.length < f.recordBytes.length then .record message else .emit message

/-- Of the lines of some facts, `written` are the first `count` ones and a part of the next one,
where the `refusal` came. -/
def CutShort (message : String) (facts : List Fact) (written : List UInt8) (count : Nat)
    (refusal : Refusal) : Prop :=
  ∃ done f rest part, facts = done ++ f :: rest ∧ written = done.flatMap Fact.line ++ part ∧
    part <+: f.line ∧ part.length < f.line.length ∧ count = done.length ∧
    refusal = f.refusalAfter message part

theorem CutShort.isPrefix {message : String} {facts : List Fact} {written : List UInt8}
    {count : Nat} {r : Refusal} (h : CutShort message facts written count r) :
    written <+: facts.flatMap Fact.line := by
  obtain ⟨done, f, rest, part, rfl, rfl, hpart, -⟩ := h
  rw [List.flatMap_append, List.flatMap_cons]
  exact List.prefix_append_right_inj _ |>.2 (hpart.trans (List.prefix_append _ _))

namespace Sink

section Steps

variable {σ : Type} {out : Sink σ} {f : Fact} {s t : σ} {r : Refusal}

theorem deliver_cons_of_taken (h : out.accept s f = (t, none)) (rest : List Fact) :
    out.deliver (f :: rest) s = out.deliver rest t := by
  rw [deliver, h]

theorem deliver_cons_of_refused (h : out.accept s f = (t, some r)) (rest : List Fact) :
    out.deliver (f :: rest) s = (t, some r) := by
  rw [deliver, h]

end Steps

/-! ## Facts -/

theorem deliver_collect (facts : List Fact) (taken : Array Fact) :
    (collect.deliver facts taken).1.toList = taken.toList ++ facts ∧
      (collect.deliver facts taken).2 = none := by
  induction facts generalizing taken with
  | nil => simp [deliver]
  | cons f rest ih =>
    have h := ih (taken.push f)
    rw [deliver_cons_of_taken (t := taken.push f) rfl]
    simpa using h

theorem deliver_collect_limit (limit : Nat) (message : String) (facts : List Fact)
    (taken : Array Fact) (h : taken.size ≤ limit) :
    ((collect limit message).deliver facts taken).1.toList =
        taken.toList ++ facts.take (limit - taken.size) ∧
      ((collect limit message).deliver facts taken).2 =
        if taken.size + facts.length ≤ limit then none else some (.emit message) := by
  induction facts generalizing taken with
  | nil => simp [deliver, h]
  | cons f rest ih =>
    by_cases hfull : limit ≤ taken.size
    · have hroom : limit - taken.size = 0 := by omega
      have hmore : ¬ taken.size + (f :: rest).length ≤ limit := by
        rw [List.length_cons]
        omega
      rw [deliver_cons_of_refused (t := taken) (r := .emit message) (by simp [collect, hfull]),
        hroom, if_neg hmore]
      simp
    · have hroom : limit - taken.size = limit - (taken.push f).size + 1 := by
        rw [Array.size_push]
        omega
      obtain ⟨hfacts, hrefusal⟩ := ih (taken.push f) (by rw [Array.size_push]; omega)
      rw [deliver_cons_of_taken (t := taken.push f) (by simp [collect, hfull]), hfacts, hrefusal,
        hroom, List.take_succ_cons]
      simp [Nat.add_assoc, Nat.add_comm 1]

end Sink

/-! ## Records -/

namespace Records

/-- The records after one more was written. -/
def add (written : Records) (f : Fact) : Records where
  bytes := written.bytes ++ f.record.toUTF8.push 10
  count := written.count + 1

/-- The records after only `room` bytes of a line were written. -/
def addPart (written : Records) (f : Fact) (room : Nat) : Records where
  bytes := written.bytes ++ (f.record.toUTF8.push 10).extract 0 room
  count := written.count

theorem size_line (f : Fact) : (f.record.toUTF8.push 10).size = f.line.length := by
  rw [f.length_line, ByteArray.size_push, Fact.recordBytes, Array.length_toList,
    ByteArray.size_data]

theorem bytes_add (written : Records) (f : Fact) :
    (written.add f).bytes.data.toList = written.bytes.data.toList ++ f.line := by
  simp [add, Fact.line, Fact.recordBytes]

theorem size_add (written : Records) (f : Fact) :
    (written.add f).bytes.size = written.bytes.size + f.line.length := by
  rw [add, ByteArray.size_append, size_line]

theorem count_add (written : Records) (f : Fact) : (written.add f).count = written.count + 1 :=
  rfl

theorem bytes_addPart (written : Records) (f : Fact) (room : Nat) :
    (written.addPart f room).bytes.data.toList =
      written.bytes.data.toList ++ f.line.take room := by
  simp [addPart, Fact.line, Fact.recordBytes, List.extract_eq_take_drop]

end Records

namespace Sink

section Records

variable {limit : Nat} {message : String}

theorem accept_records_of_fits {written : Records} {f : Fact}
    (h : f.line.length ≤ limit - written.bytes.size) :
    (records limit message).accept written f = (written.add f, none) := by
  rw [← Records.size_line] at h
  simp only [records, Option.map_some, if_pos h]
  rfl

theorem accept_records_of_cut {written : Records} {f : Fact}
    (h : limit - written.bytes.size < f.line.length) :
    (records limit message).accept written f =
      (written.addPart f (limit - written.bytes.size),
        some (f.refusalAfter message (f.line.take (limit - written.bytes.size)))) := by
  have hsize : ¬ (f.record.toUTF8.push 10).size ≤ limit - written.bytes.size := by
    rw [Records.size_line]
    omega
  have hrecord : f.record.toUTF8.size = f.recordBytes.length := by
    rw [Fact.recordBytes, Array.length_toList, ByteArray.size_data]
  have htake : (f.line.take (limit - written.bytes.size)).length = limit - written.bytes.size := by
    rw [List.length_take]
    omega
  simp only [records, Option.map_some, if_neg hsize, Fact.refusalAfter, htake, hrecord]
  rfl

theorem deliver_records (facts : List Fact) (written : Records) :
    let done := records.deliver facts written
    done.1.bytes.data.toList = written.bytes.data.toList ++ facts.flatMap Fact.line ∧
      done.1.count = written.count + facts.length ∧ done.2 = none := by
  induction facts generalizing written with
  | nil => simp [deliver]
  | cons f rest ih =>
    obtain ⟨hbytes, hcount, hrefusal⟩ := ih (written.add f)
    rw [Records.bytes_add] at hbytes
    rw [deliver_cons_of_taken (t := written.add f) rfl]
    refine ⟨?_, ?_, hrefusal⟩
    · rw [hbytes, List.flatMap_cons, List.append_assoc]
    · rw [hcount, Records.count_add, List.length_cons]
      omega

theorem deliver_records_of_fits {facts : List Fact} {written : Records}
    (h : written.bytes.size + (facts.flatMap Fact.line).length ≤ limit) :
    (records limit message).deliver facts written = records.deliver facts written := by
  induction facts generalizing written with
  | nil => rw [deliver, deliver]
  | cons f rest ih =>
    rw [List.flatMap_cons, List.length_append] at h
    rw [deliver_cons_of_taken (accept_records_of_fits (by omega)),
      deliver_cons_of_taken (t := written.add f) rfl, ih]
    rw [Records.size_add]
    omega

theorem deliver_records_of_cut {facts : List Fact} {written : Records}
    (hroom : written.bytes.size ≤ limit)
    (hcut : limit < written.bytes.size + (facts.flatMap Fact.line).length) :
    ∃ more count refusal,
      ((records limit message).deliver facts written).1.bytes.data.toList =
        written.bytes.data.toList ++ more ∧
      written.bytes.size + more.length = limit ∧
      ((records limit message).deliver facts written).1.count = written.count + count ∧
      ((records limit message).deliver facts written).2 = some refusal ∧
      CutShort message facts more count refusal := by
  induction facts generalizing written with
  | nil =>
    rw [List.flatMap_nil, List.length_nil] at hcut
    omega
  | cons f rest ih =>
    rw [List.flatMap_cons, List.length_append] at hcut
    by_cases hline : f.line.length ≤ limit - written.bytes.size
    · have hsize := written.size_add f
      obtain ⟨more, count, refusal, hbytes, hlength, hcount, hrefusal, done, g, tail, part, hfacts,
        hmore, hpart, hshort, hdone, hlast⟩ := @ih (written.add f) (by omega) (by omega)
      rw [Records.bytes_add, List.append_assoc] at hbytes
      rw [deliver_cons_of_taken (accept_records_of_fits hline)]
      refine ⟨f.line ++ more, count + 1, refusal, hbytes, ?_, ?_, hrefusal, f :: done, g, tail,
        part, ?_, ?_, hpart, hshort, ?_, hlast⟩
      · rw [List.length_append]
        omega
      · rw [hcount, Records.count_add]
        omega
      · rw [hfacts, List.cons_append]
      · rw [hmore, List.flatMap_cons, List.append_assoc]
      · rw [hdone, List.length_cons]
    · -- The room ends in this line, and nothing comes after it.
      rw [deliver_cons_of_refused (accept_records_of_cut (by omega))]
      refine ⟨_, 0, _, written.bytes_addPart f _, ?_, rfl, rfl, [], f, rest, _, rfl, rfl,
        List.take_prefix _ _, ?_, rfl, rfl⟩
      all_goals
        rw [List.length_take]
        omega

end Records

end Sink

/-! ## Runs -/

namespace RunPlan

variable {σ : Type}

theorem scan_ne_refused (plan : RunPlan) (disk : Disk) (path : String) (r : Refusal) :
    plan.scan disk path ≠ .error (.refused r) := by
  unfold scan
  split
  · simp
  · simp
  · unfold ScanFilter.scanFound
    dsimp only
    split
    · simp
    · split <;> simp

theorem run_collect {plan : RunPlan} {disk : Disk} {path trunkKey : String} {keys : KeyCounter}
    {root : Folder} (hkeys : KeyCounter.parse? trunkKey = some keys)
    (hscan : plan.scan disk path = .ok root) :
    (plan.run .collect disk path trunkKey #[]).sink.toList = plan.stream trunkKey keys root ∧
      (plan.run .collect disk path trunkKey #[]).result =
        .ok ((plan.harvest "" root).stats + { facts := 1 }) := by
  obtain ⟨hsink, hresult⟩ := plan.runFolder_ends .collect trunkKey keys root #[]
  obtain ⟨hfacts, hnone⟩ := Sink.deliver_collect (plan.stream trunkKey keys root) #[]
  rw [run_of_scan hkeys hscan, hsink, hresult, hfacts, hnone]
  exact ⟨by simp, rfl⟩

/-- A run hands the facts of the unlimited run to its sink, up to the first one that is refused, and
ends like the unlimited run if none is. -/
theorem run_deliver (plan : RunPlan) (out : Sink σ) (disk : Disk) (path trunkKey : String)
    (start : σ) :
    let all := plan.run .collect disk path trunkKey #[]
    let sent := out.deliver all.sink.toList start
    (plan.run out disk path trunkKey start).sink = sent.1 ∧
      (plan.run out disk path trunkKey start).result =
        sent.2.elim all.result fun r => .error (.refused r) := by
  intro all sent
  rcases plan.run_cases disk path trunkKey with ⟨keys, root, hkeys, hscan⟩ | ⟨failure, hrun⟩
  · obtain ⟨hsink, hok⟩ := run_collect hkeys hscan
    rw [run_of_scan hkeys hscan, show sent = out.deliver all.sink.toList start from rfl,
      show all.sink.toList = _ from hsink, show all.result = _ from hok]
    exact plan.runFolder_ends out trunkKey keys root start
  · have hall : all = { result := .error failure, sink := #[], notices := [] } := hrun .collect #[]
    rw [hrun out start, show sent = out.deliver all.sink.toList start from rfl, hall]
    exact ⟨rfl, rfl⟩

theorem run_collect_ne_refused (plan : RunPlan) (disk : Disk) (path trunkKey : String)
    (r : Refusal) :
    (plan.run .collect disk path trunkKey #[]).result ≠ .error (.refused r) := by
  rw [run_eq]
  cases hkeys : KeyCounter.parse? trunkKey with
  | none => simp
  | some keys =>
    cases hscan : plan.scan disk path with
    | error failure =>
      have hne := plan.scan_ne_refused disk path r
      rw [hscan] at hne
      simpa using hne
    | ok root =>
      obtain ⟨-, hresult⟩ := plan.runFolder_ends .collect trunkKey keys root #[]
      dsimp only
      rw [hresult, (Sink.deliver_collect _ _).2]
      simp

section Limits

variable (plan : RunPlan) (disk : Disk) (path trunkKey message : String) (limit : Nat)

theorem run_collect_limit :
    let all := plan.run .collect disk path trunkKey #[]
    let few := plan.run (.collect limit message) disk path trunkKey #[]
    few.sink.toList = all.sink.toList.take limit ∧
      few.result = if all.sink.size ≤ limit then all.result
        else .error (.refused (.emit message)) := by
  intro all few
  obtain ⟨hsink, hresult⟩ := plan.run_deliver (.collect limit message) disk path trunkKey #[]
  obtain ⟨hfacts, hrefusal⟩ :=
    Sink.deliver_collect_limit limit message all.sink.toList #[] (Nat.zero_le limit)
  refine ⟨?_, ?_⟩
  · show few.sink.toList = _
    rw [show few.sink = _ from hsink, hfacts]
    simp
  · rw [show few.result = _ from hresult, hrefusal]
    simp only [List.size_toArray, List.length_nil, Array.length_toList, Nat.zero_add]
    split <;> rfl

theorem run_records :
    let all := plan.run .collect disk path trunkKey #[]
    let text := plan.run .records disk path trunkKey {}
    text.sink.bytes.data.toList = all.sink.toList.flatMap Fact.line ∧
      text.sink.count = all.sink.size ∧ text.result = all.result := by
  intro all text
  obtain ⟨hsink, hresult⟩ := plan.run_deliver .records disk path trunkKey {}
  obtain ⟨hbytes, hcount, hrefusal⟩ := Sink.deliver_records all.sink.toList {}
  refine ⟨?_, ?_, ?_⟩
  · rw [show text.sink = _ from hsink, hbytes]
    simp
  · rw [show text.sink = _ from hsink, hcount]
    simp
  · rw [show text.result = _ from hresult, hrefusal]
    rfl

theorem size_records :
    (plan.run .records disk path trunkKey {}).sink.bytes.size =
      ((plan.run .collect disk path trunkKey #[]).sink.toList.flatMap Fact.line).length := by
  rw [← (plan.run_records disk path trunkKey).1, Array.length_toList, ByteArray.size_data]

theorem run_records_of_fits
    (h : (plan.run .records disk path trunkKey {}).sink.bytes.size ≤ limit) :
    let text := plan.run .records disk path trunkKey {}
    let few := plan.run (.records limit message) disk path trunkKey {}
    few.sink = text.sink ∧ few.result = text.result := by
  intro text few
  obtain ⟨hsink, hresult⟩ := plan.run_deliver (.records limit message) disk path trunkKey {}
  obtain ⟨hsink', hresult'⟩ := plan.run_deliver .records disk path trunkKey {}
  rw [size_records] at h
  have hdeliver : (Sink.records limit message).deliver
      (plan.run .collect disk path trunkKey #[]).sink.toList {} =
        Sink.records.deliver (plan.run .collect disk path trunkKey #[]).sink.toList {} :=
    Sink.deliver_records_of_fits (by simpa using h)
  rw [show few.sink = _ from hsink, show few.result = _ from hresult, hdeliver]
  exact ⟨hsink'.symm, hresult'.symm⟩

theorem run_records_of_cut
    (h : limit < (plan.run .records disk path trunkKey {}).sink.bytes.size) :
    let all := plan.run .collect disk path trunkKey #[]
    let few := plan.run (.records limit message) disk path trunkKey {}
    few.sink.bytes.size = limit ∧ ∃ r, few.result = .error (.refused r) ∧
      CutShort message all.sink.toList few.sink.bytes.data.toList few.sink.count r := by
  intro all few
  obtain ⟨hsink, hresult⟩ := plan.run_deliver (.records limit message) disk path trunkKey {}
  rw [size_records] at h
  obtain ⟨more, count, r, hbytes, hlength, hcount, hrefusal, hcut⟩ :=
    @Sink.deliver_records_of_cut limit message all.sink.toList {} (Nat.zero_le limit)
      (by simpa using h)
  have hmore : few.sink.bytes.data.toList = more := by
    rw [show few.sink = _ from hsink, hbytes]
    simp
  have hdone : few.sink.count = count := by
    rw [show few.sink = _ from hsink, hcount]
    simp
  refine ⟨?_, r, ?_, ?_⟩
  · rw [← ByteArray.size_data, ← Array.length_toList, hmore, ← hlength]
    simp
  · rw [show few.result = _ from hresult, hrefusal]
    rfl
  · rwa [hmore, hdone]

theorem bytes_records_limit :
    (plan.run (.records limit message) disk path trunkKey {}).sink.bytes =
      (plan.run .records disk path trunkKey {}).sink.bytes.extract 0 limit := by
  by_cases hfits : (plan.run .records disk path trunkKey {}).sink.bytes.size ≤ limit
  · rw [(plan.run_records_of_fits disk path trunkKey message limit hfits).1]
    apply ByteArray.ext
    rw [ByteArray.data_extract, Array.extract_eq_self_of_le]
    rwa [ByteArray.size_data]
  · obtain ⟨hsize, r, -, hshort⟩ :=
      plan.run_records_of_cut disk path trunkKey message limit (by omega)
    -- The bytes are a first part of the text, and `limit` of them.
    have htake := List.prefix_iff_eq_take.1 hshort.isPrefix
    rw [← (plan.run_records disk path trunkKey).1, Array.length_toList, ByteArray.size_data,
      hsize] at htake
    apply ByteArray.ext
    apply Array.toList_inj.1
    rw [htake]
    simp [List.extract_eq_take_drop]

end Limits

/-- A sink that fails cuts the stream of a run where it fails. Every sink is handed the facts of the
unlimited run up to the first one that it refuses, and nothing after that. With room for `limit`
facts, the first `limit` facts come out. With room for `limit` bytes, the first `limit` bytes come
out; the run fails as the line that is cut says, and the records that count are those before it. -/
theorem cut_of_run (plan : RunPlan) (disk : Disk) (path trunkKey message : String) (limit : Nat) :
    let all := plan.run .collect disk path trunkKey #[]
    let text := plan.run .records disk path trunkKey {}
    let fewFacts := plan.run (.collect limit message) disk path trunkKey #[]
    let fewBytes := plan.run (.records limit message) disk path trunkKey {}
    (∀ (σ : Type) (out : Sink σ) (start : σ),
      (plan.run out disk path trunkKey start).sink = (out.deliver all.sink.toList start).1 ∧
      (plan.run out disk path trunkKey start).result =
        (out.deliver all.sink.toList start).2.elim all.result fun r => .error (.refused r)) ∧
    (fewFacts.sink.toList = all.sink.toList.take limit ∧
      (fewFacts.result = .error (.refused (.emit message)) ↔ limit < all.sink.size) ∧
      (all.sink.size ≤ limit → fewFacts.result = all.result)) ∧
    text.sink.bytes.data.toList = all.sink.toList.flatMap Fact.line ∧ text.result = all.result ∧
    fewBytes.sink.bytes = text.sink.bytes.extract 0 limit ∧
    ((∃ r, fewBytes.result = .error (.refused r)) ↔ limit < text.sink.bytes.size) ∧
    (text.sink.bytes.size ≤ limit → fewBytes.result = all.result ∧
      fewBytes.sink.count = all.sink.size) ∧
    (limit < text.sink.bytes.size → ∃ r, fewBytes.result = .error (.refused r) ∧
      CutShort message all.sink.toList fewBytes.sink.bytes.data.toList fewBytes.sink.count r) := by
  intro all text fewFacts fewBytes
  have hnever := plan.run_collect_ne_refused disk path trunkKey
  obtain ⟨hfacts, hfew⟩ := plan.run_collect_limit disk path trunkKey message limit
  obtain ⟨hlines, hcount, hresult⟩ := plan.run_records disk path trunkKey
  refine ⟨fun σ out start => plan.run_deliver out disk path trunkKey start, ⟨hfacts, ?_, ?_⟩,
    hlines, hresult, plan.bytes_records_limit disk path trunkKey message limit, ?_⟩
  · rw [show fewFacts.result = _ from hfew]
    split
    next hfits => exact iff_of_false (hnever _) (Nat.not_lt_of_le hfits)
    next hfull => exact iff_of_true rfl (Nat.lt_of_not_le hfull)
  · intro hfits
    rw [show fewFacts.result = _ from hfew, if_pos hfits]
  · by_cases hfits : text.sink.bytes.size ≤ limit
    · obtain ⟨hsink, hend⟩ := plan.run_records_of_fits disk path trunkKey message limit hfits
      replace hend : fewBytes.result = all.result := hend.trans hresult
      replace hsink : fewBytes.sink = text.sink := hsink
      refine ⟨iff_of_false ?_ (by omega), fun _ => ⟨hend, ?_⟩, fun h => absurd h (by omega)⟩
      · rintro ⟨r, hr⟩
        exact hnever r (hend.symm.trans hr)
      · rw [hsink]
        exact hcount
    · have hcut : limit < text.sink.bytes.size := by omega
      obtain ⟨-, r, hend, hshort⟩ := plan.run_records_of_cut disk path trunkKey message limit hcut
      exact ⟨iff_of_true ⟨r, hend⟩ hcut, fun h => absurd h hfits, fun _ => ⟨r, hend, hshort⟩⟩

end RunPlan

end FactStream
