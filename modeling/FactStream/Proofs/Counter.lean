import FactStream.Proofs.Key

/-!
# Counting on from a trunk key

A trunk key is a number of 64 bits, or two of them with an underscore between them
(`KeyCounter.Spells`). It starts a counter at these numbers, and any other text is a failure. A
counter that is asked for keys (`KeyCounter.draw`) gives its trunk with one number after the other,
both as plain numerals, and no key twice. As long as the numbers fit 64 bits, each key is a trunk
key itself, and the counter it starts is the one that has just given it out.

Main statement: `KeyCounter.start_counts`.
-/

namespace FactStream

/-- The plain numeral of a number: its decimal digits, with a zero in front only if it stands
alone. -/
structure Number.IsNumeralOf (digits : List Char) (n : Nat) : Prop where
  ne_nil : digits ≠ []
  isDigit : ∀ c ∈ digits, c.isDigit
  value : Nat.ofDigitChars 10 digits 0 = n
  plain : digits.head? = some '0' → digits = ['0']

theorem Number.isNumeralOf_toDigits (n : Nat) : IsNumeralOf (Nat.toDigits 10 n) n where
  ne_nil := Nat.toDigits_ne_nil
  isDigit _ hc := Nat.isDigit_of_mem_toDigits (by decide) (by decide) hc
  value := Nat.ofDigitChars_ten_toDigits
  plain h := by
    rcases Nat.eq_zero_or_pos n with rfl | hpos
    · exact Nat.toDigits_zero 10
    · exact absurd h (head?_toDigits hpos)

namespace KeyCounter

/-! ## Trunk keys -/

/-- The trunk keys, each with the counter it starts. Zeros in front of a number do not count. -/
inductive Spells : String → KeyCounter → Prop where
  | number {digits : List Char} : IsNumber digits →
      Spells (String.ofList digits) ⟨Nat.ofDigitChars 10 digits 0, 0⟩
  | numbers {trunk last : List Char} : IsNumber trunk → IsNumber last →
      Spells (String.ofList (trunk ++ '_' :: last))
        ⟨Nat.ofDigitChars 10 trunk 0, Nat.ofDigitChars 10 last 0⟩

theorem Spells.trunk_lt {trunkKey : String} {keys : KeyCounter} (h : Spells trunkKey keys) :
    keys.trunk < Nat.pow 2 64 := by
  cases h with
  | number h => exact h.2.2
  | numbers h _ => exact h.2.2

theorem parse?_eq_some_iff {trunkKey : String} {keys : KeyCounter} :
    parse? trunkKey = some keys ↔ Spells trunkKey keys := by
  constructor
  · intro h
    have hkey := isSome_parse?.1 (Option.isSome_of_eq_some h)
    rw [← String.ofList_toList (s := trunkKey)] at h ⊢
    rcases hkey with hnumber | ⟨trunk, last, htrunk, hlast, hkey⟩
    · rw [parse?_number hnumber] at h
      obtain rfl := Option.some.inj h
      exact .number hnumber
    · rw [hkey] at h ⊢
      rw [parse?_numbers htrunk hlast] at h
      obtain rfl := Option.some.inj h
      exact .numbers htrunk hlast
  · intro h
    cases h with
    | number hnumber => exact parse?_number hnumber
    | numbers htrunk hlast => exact parse?_numbers htrunk hlast

theorem start_eq_ok_iff {trunkKey : String} {keys : KeyCounter} :
    start trunkKey = .ok keys ↔ Spells trunkKey keys := by
  rw [← parse?_eq_some_iff, start]
  cases parse? trunkKey <;> simp

theorem start_of_not_spells {trunkKey : String} (h : ∀ keys, ¬ Spells trunkKey keys) :
    start trunkKey = .error (.badTrunk trunkKey) := by
  have hparse : parse? trunkKey = none :=
    Option.eq_none_iff_forall_ne_some.2 fun keys hkeys => h keys (parse?_eq_some_iff.1 hkeys)
  rw [start, hparse]

/-! ## Keys as trunk keys -/

theorem isNumber_toDigits {n : Nat} (h : n < Nat.pow 2 64) : IsNumber (Nat.toDigits 10 n) := by
  have hnumeral := Number.isNumeralOf_toDigits n
  refine ⟨hnumeral.ne_nil, hnumeral.isDigit, ?_⟩
  rwa [hnumeral.value]

/-- A key whose numbers fit 64 bits starts the counter that has just given it out. -/
theorem spells_key {keys : KeyCounter} {n : Nat} (htrunk : keys.trunk < Nat.pow 2 64)
    (hn : n < Nat.pow 2 64) : Spells (keys.key n) ⟨keys.trunk, n⟩ := by
  have hspells := Spells.numbers (isNumber_toDigits htrunk) (isNumber_toDigits hn)
  rwa [Nat.ofDigitChars_ten_toDigits, Nat.ofDigitChars_ten_toDigits, ← toList_key,
    String.ofList_toList] at hspells

/-! ## Keys one after the other -/

/-- The next `k` keys, and the counter after they were given out. -/
def draw (keys : KeyCounter) : Nat → List String × KeyCounter
  | 0 => ([], keys)
  | k + 1 =>
    let (key, rest) := keys.next
    let (more, last) := rest.draw k
    (key :: more, last)

theorem draw_eq (keys : KeyCounter) (k : Nat) :
    keys.draw k = ((List.range' (keys.last + 1) k).map keys.key, keys.advance k) := by
  induction k generalizing keys with
  | zero => rfl
  | succ k ih =>
    rw [draw, next_eq]
    dsimp only
    rw [ih, advance_key, advance_last, advance_advance, Nat.add_comm 1 k]
    rfl

theorem nodup_draw (keys : KeyCounter) (k : Nat) : (keys.draw k).1.Nodup := by
  rw [draw_eq, List.Nodup, List.pairwise_map]
  exact List.Pairwise.imp (fun hne h => hne (keys.key_inj.1 h)) List.nodup_range'

theorem getElem?_draw (keys : KeyCounter) {k i : Nat} (h : i < k) :
    (keys.draw k).1[i]? = some (keys.key (keys.last + (i + 1))) := by
  rw [draw_eq, List.getElem?_map, List.getElem?_range' h, Option.map_some]
  congr 2
  omega

/-- A counter is started by one or two numbers of 64 bits with an underscore between them, and by
nothing else: any other text is the trunk key that the failure names. The counter then gives its
trunk with the numbers after its own, as plain numerals and each of them once. If the numbers fit
64 bits, the counter can be started again from each of these keys, and counts on from there. -/
theorem start_counts (trunkKey : String) :
    (∀ keys, start trunkKey = .ok keys ↔ Spells trunkKey keys) ∧
    ((∀ keys, ¬ Spells trunkKey keys) → start trunkKey = .error (.badTrunk trunkKey)) ∧
    ∀ keys, start trunkKey = .ok keys → ∀ k, keys.last + k < Nat.pow 2 64 →
      (keys.draw k).1.length = k ∧ (keys.draw k).1.Nodup ∧
      (keys.draw k).2 = ⟨keys.trunk, keys.last + k⟩ ∧
      ∀ i < k, ∃ key trunk number, (keys.draw k).1[i]? = some key ∧
        key.toList = trunk ++ '_' :: number ∧ Number.IsNumeralOf trunk keys.trunk ∧
        Number.IsNumeralOf number (keys.last + (i + 1)) ∧
        start key = .ok ⟨keys.trunk, keys.last + (i + 1)⟩ := by
  refine ⟨fun keys => start_eq_ok_iff, start_of_not_spells, fun keys hkeys k hk => ?_⟩
  have htrunk := (start_eq_ok_iff.1 hkeys).trunk_lt
  refine ⟨by rw [draw_eq]; simp, keys.nodup_draw k, by rw [draw_eq]; rfl, fun i hi => ?_⟩
  exact ⟨_, _, _, keys.getElem?_draw hi, keys.toList_key _, Number.isNumeralOf_toDigits _,
    Number.isNumeralOf_toDigits _, start_eq_ok_iff.2 (spells_key htrunk (by omega))⟩

/-- The last two keys before the numbers get too large, from a trunk key with zeros in front; the
number after them and a third number are no part of a trunk key. -/
theorem start_counts_last :
    let keys : KeyCounter := ⟨7, 18446744073709551613⟩
    start "007_18446744073709551613" = .ok keys ∧ keys.last + 2 < Nat.pow 2 64 ∧
      (keys.draw 2).1 = ["7_18446744073709551614", "7_18446744073709551615"] ∧
      (keys.draw 2).1.Nodup ∧ start "7_18446744073709551614" = .ok ⟨7, 18446744073709551614⟩ ∧
      start "7_18446744073709551616" = .error (.badTrunk "7_18446744073709551616") ∧
      start "1_2_3" = .error (.badTrunk "1_2_3") := by
  intro keys
  have hstart : start "007_18446744073709551613" = .ok keys := rfl
  have hlast : keys.last + 2 < Nat.pow 2 64 := by decide
  have hdrawn : (keys.draw 2).1 = ["7_18446744073709551614", "7_18446744073709551615"] := by decide
  obtain ⟨-, -, hcounts⟩ := start_counts "007_18446744073709551613"
  obtain ⟨-, hnodup, -, hkeys⟩ := hcounts keys hstart 2 hlast
  obtain ⟨key, -, -, hkey, -, -, -, hagain⟩ := hkeys 0 (by decide)
  obtain rfl : "7_18446744073709551614" = key := by
    rw [hdrawn] at hkey
    exact Option.some.inj hkey
  have hbad : ∀ trunkKey, parse? trunkKey = none →
      start trunkKey = .error (.badTrunk trunkKey) := by
    intro trunkKey hnone
    refine (start_counts trunkKey).2.1 fun keys hspells => ?_
    rw [parse?_eq_some_iff.2 hspells] at hnone
    simp at hnone
  exact ⟨hstart, hlast, hdrawn, hnodup, hagain, hbad _ (by decide), hbad _ (by decide)⟩

end KeyCounter

end FactStream
