import FactStream.Key

/-!
# The keys of a run

The keys a counter gives out are told apart by their numbers (`KeyCounter.key_inj`), and none of
them is the trunk key the counter was read from (`KeyCounter.key_ne_trunkKey`), not even if that
one has leading zeros or a number of its own: a key that is read back gives the number it was made
from.
-/

namespace FactStream

/-! ## Reading numerals back -/

namespace Number

theorem digitValue?_of_isDigit {c : Char} (h : c.isDigit) :
    digitValue? 10 c = some (c.toNat - '0'.toNat) := by
  rw [Char.isDigit, Bool.and_eq_true, decide_eq_true_iff, decide_eq_true_iff] at h
  have hl : '0' ≤ c := h.1
  have hr : c ≤ '9' := h.2
  have hlt : c.toNat - '0'.toNat < 10 := by
    have : c.toNat ≤ '9'.toNat := h.2
    have h9 : '9'.toNat = 57 := rfl
    have h0 : '0'.toNat = 48 := rfl
    omega
  simp only [digitValue?, hl, hr, and_self, if_true]
  rw [Option.filter_some, if_pos (by simpa using hlt)]

theorem readDigits?_of_isDigit {digits : List Char} (h : ∀ c ∈ digits, c.isDigit) (acc : Nat) :
    readDigits? 10 acc digits = some (Nat.ofDigitChars 10 digits acc) := by
  induction digits generalizing acc with
  | nil => rw [readDigits?, Nat.ofDigitChars_nil]
  | cons c rest ih =>
    rw [readDigits?, digitValue?_of_isDigit (h c List.mem_cons_self), Nat.ofDigitChars_cons]
    dsimp only
    rw [ih fun d hd => h d (List.mem_cons_of_mem _ hd), Nat.mul_comm]

theorem isDigit_of_digitValue? {c : Char} {d : Nat} (h : digitValue? 10 c = some d) :
    c.isDigit := by
  have hten : ∀ k, (some (k + 10)).filter (fun n => decide (n < 10)) = none := by
    intro k
    simp
  unfold digitValue? at h
  split at h
  case isTrue hc =>
    rw [Char.isDigit, Bool.and_eq_true, decide_eq_true_iff, decide_eq_true_iff]
    exact hc
  case isFalse =>
    split at h
    · simp [hten] at h
    · split at h
      · simp [hten] at h
      · simp at h

theorem isDigit_of_readDigits? {digits : List Char} {acc n : Nat}
    (h : readDigits? 10 acc digits = some n) : ∀ c ∈ digits, c.isDigit := by
  induction digits generalizing acc with
  | nil => simp
  | cons c rest ih =>
    rw [readDigits?] at h
    split at h
    case h_1 d hd =>
      intro x hx
      rcases List.mem_cons.1 hx with rfl | hx
      · exact isDigit_of_digitValue? hd
      · exact ih h x hx
    case h_2 => simp at h

theorem readNat?_eq_some_iff {digits : List Char} {n : Nat} :
    readNat? 10 digits = some n ↔
      digits ≠ [] ∧ (∀ c ∈ digits, c.isDigit) ∧ Nat.ofDigitChars 10 digits 0 = n := by
  cases digits with
  | nil => simp [readNat?]
  | cons c rest =>
    constructor
    · intro h
      have hdigits := isDigit_of_readDigits? h
      refine ⟨List.cons_ne_nil _ _, hdigits, ?_⟩
      exact Option.some.inj ((readDigits?_of_isDigit hdigits 0).symm.trans h)
    · rintro ⟨-, hdigits, rfl⟩
      exact readDigits?_of_isDigit hdigits 0

theorem readNat?_toDigits (n : Nat) : readNat? 10 (Nat.toDigits 10 n) = some n := by
  have hread : readDigits? 10 0 (Nat.toDigits 10 n) = some n := by
    rw [readDigits?_of_isDigit fun c hc => Nat.isDigit_of_mem_toDigits (by decide) (by decide) hc,
      Nat.ofDigitChars_ten_toDigits]
  cases hd : Nat.toDigits 10 n with
  | nil => exact absurd hd Nat.toDigits_ne_nil
  | cons c rest =>
    rw [hd] at hread
    exact hread

theorem head?_toDigits {n : Nat} (h : 0 < n) : (Nat.toDigits 10 n).head? ≠ some '0' := by
  induction n using Nat.strongRecOn with
  | ind n ih =>
    rw [Nat.toDigits_eq_if (by decide)]
    split
    case isTrue hlt =>
      have hall : ∀ d < 10, 0 < d → Nat.digitChar d ≠ '0' := by decide
      simpa using hall n hlt h
    case isFalse hge =>
      have hhead := ih (n / 10) (by omega) (by omega)
      cases hd : Nat.toDigits 10 (n / 10) with
      | nil => exact absurd hd Nat.toDigits_ne_nil
      | cons c rest =>
        rw [hd] at hhead
        exact hhead

end Number

/-! ## Keys -/

namespace KeyCounter

/-- A non-empty run of decimal digits with a value that fits 64 bits. -/
def IsNumber (digits : List Char) : Prop :=
  digits ≠ [] ∧ (∀ c ∈ digits, c.isDigit) ∧ Nat.ofDigitChars 10 digits 0 < Nat.pow 2 64

/-- One number, or two with an underscore between them. -/
def IsTrunkKey (trunkKey : String) : Prop :=
  IsNumber trunkKey.toList ∨
    ∃ trunk last, IsNumber trunk ∧ IsNumber last ∧ trunkKey.toList = trunk ++ '_' :: last

theorem readPart?_of_isNumber {digits : List Char} (h : IsNumber digits) :
    readPart? digits = some (Nat.ofDigitChars 10 digits 0) := by
  obtain ⟨hne, hdigits, hlt⟩ := h
  rw [readPart?, Number.readNat?_eq_some_iff.2 ⟨hne, hdigits, rfl⟩, Option.filter_some,
    if_pos (decide_eq_true hlt)]

theorem isSome_readPart? {digits : List Char} :
    (readPart? digits).isSome ↔ IsNumber digits := by
  constructor
  · rw [readPart?, Option.isSome_iff_exists]
    rintro ⟨n, h⟩
    obtain ⟨hread, hn⟩ := Option.filter_eq_some_iff.1 h
    obtain ⟨hne, hdigits, rfl⟩ := Number.readNat?_eq_some_iff.1 hread
    exact ⟨hne, hdigits, by simpa using hn⟩
  · intro h
    rw [readPart?_of_isNumber h, Option.isSome_some]

theorem ne_underscore_of_isNumber {digits : List Char} (h : IsNumber digits) :
    ∀ c ∈ digits, decide (c ≠ '_') = true := by
  intro c hc
  rw [decide_eq_true_iff]
  rintro rfl
  exact absurd (h.2.1 _ hc) (by decide)

theorem parse?_number {digits : List Char} (h : IsNumber digits) :
    parse? (String.ofList digits) = some ⟨Nat.ofDigitChars 10 digits 0, 0⟩ := by
  have hne := ne_underscore_of_isNumber h
  unfold parse?
  dsimp only
  rw [String.toList_ofList, ← List.append_nil digits, List.takeWhile_append_of_pos hne,
    List.dropWhile_append_of_pos hne, List.takeWhile_nil, List.dropWhile_nil, List.append_nil,
    readPart?_of_isNumber h]
  rfl

theorem parse?_numbers {trunk last : List Char} (htrunk : IsNumber trunk) (hlast : IsNumber last) :
    parse? (String.ofList (trunk ++ '_' :: last)) =
      some ⟨Nat.ofDigitChars 10 trunk 0, Nat.ofDigitChars 10 last 0⟩ := by
  have hne := ne_underscore_of_isNumber htrunk
  unfold parse?
  dsimp only
  rw [String.toList_ofList, List.takeWhile_append_of_pos hne, List.dropWhile_append_of_pos hne]
  simp [readPart?_of_isNumber htrunk, readPart?_of_isNumber hlast]

/-- A counter can be read from trunk keys, and from nothing else. -/
theorem isSome_parse? {trunkKey : String} : (parse? trunkKey).isSome ↔ IsTrunkKey trunkKey := by
  have hsplit := List.takeWhile_append_dropWhile (p := (· ≠ '_')) (l := trunkKey.toList)
  constructor
  · intro h
    unfold parse? at h
    dsimp only at h
    split at h
    case h_1 hdrop =>
      rw [Option.isSome_map, isSome_readPart?] at h
      rw [hdrop, List.append_nil] at hsplit
      rw [hsplit] at h
      exact .inl h
    case h_2 c rest hdrop =>
      have hc : c = '_' := by
        have hhead := List.head?_dropWhile_not (· ≠ '_') trunkKey.toList
        rw [hdrop] at hhead
        simpa using hhead
      rw [hdrop, hc] at hsplit
      split at h
      case h_1 trunk last htrunk hlast =>
        exact .inr ⟨_, rest, isSome_readPart?.1 (by rw [htrunk]; rfl),
          isSome_readPart?.1 (by rw [hlast]; rfl), hsplit.symm⟩
      case h_2 => simp at h
  · rw [← String.ofList_toList (s := trunkKey)]
    rintro (h | ⟨trunk, last, htrunk, hlast, hkey⟩)
    · rw [String.toList_ofList] at h
      rw [parse?_number h, Option.isSome_some]
    · rw [String.toList_ofList] at hkey
      rw [hkey, parse?_numbers htrunk hlast, Option.isSome_some]

/-- The counter after `n` more keys. -/
def advance (keys : KeyCounter) (n : Nat) : KeyCounter :=
  { keys with last := keys.last + n }

@[simp] theorem advance_last (keys : KeyCounter) (n : Nat) :
    (keys.advance n).last = keys.last + n := rfl

@[simp] theorem advance_key (keys : KeyCounter) (n : Nat) : (keys.advance n).key = keys.key := rfl

@[simp] theorem advance_zero (keys : KeyCounter) : keys.advance 0 = keys := rfl

@[simp] theorem advance_advance (keys : KeyCounter) (m n : Nat) :
    (keys.advance m).advance n = keys.advance (m + n) := by
  simp only [advance, Nat.add_assoc]

theorem next_eq (keys : KeyCounter) : keys.next = (keys.key (keys.last + 1), keys.advance 1) := rfl

theorem toList_key (keys : KeyCounter) (n : Nat) :
    (keys.key n).toList = Nat.toDigits 10 keys.trunk ++ '_' :: Nat.toDigits 10 n := by
  simp [key]

theorem dropWhile_key (keys : KeyCounter) (n : Nat) :
    (keys.key n).toList.dropWhile (· ≠ '_') = '_' :: Nat.toDigits 10 n := by
  have hne : ∀ c ∈ Nat.toDigits 10 keys.trunk, decide (c ≠ '_') = true := by
    intro c hc
    rw [decide_eq_true_iff]
    rintro rfl
    exact Nat.underscore_not_in_toDigits hc
  rw [toList_key, List.dropWhile_append_of_pos hne]
  simp

theorem key_inj (keys : KeyCounter) {m n : Nat} : keys.key m = keys.key n ↔ m = n := by
  constructor
  · intro h
    have hd := congrArg (fun s : String => s.toList.dropWhile (· ≠ '_')) h
    simp only [dropWhile_key] at hd
    have hr := congrArg (Number.readNat? 10) (List.cons_inj_right _ |>.1 hd)
    rw [Number.readNat?_toDigits, Number.readNat?_toDigits] at hr
    exact Option.some.inj hr
  · rintro rfl
    rfl

theorem key_ne_empty (keys : KeyCounter) (n : Nat) : keys.key n ≠ "" := by
  intro h
  have := congrArg String.toList h
  rw [toList_key] at this
  simp at this

theorem parse?_empty : parse? "" = none := rfl

theorem eq_of_readPart?_toDigits {m n : Nat} (h : readPart? (Nat.toDigits 10 n) = some m) :
    m = n := by
  rw [readPart?, Number.readNat?_toDigits, Option.filter_some] at h
  split at h
  · exact (Option.some.inj h).symm
  · simp at h

theorem last_of_parse?_key {keys found : KeyCounter} {n : Nat}
    (h : parse? (keys.key n) = some found) : found.last = n := by
  rw [parse?, dropWhile_key] at h
  dsimp only at h
  split at h
  case h_1 trunk last _ hlast =>
    obtain rfl := Option.some.inj h
    exact eq_of_readPart?_toDigits hlast
  case h_2 => simp at h

theorem key_ne_trunkKey {trunkKey : String} {keys : KeyCounter} (h : parse? trunkKey = some keys)
    {n : Nat} (hn : keys.last < n) : keys.key n ≠ trunkKey := by
  rintro rfl
  have := last_of_parse?_key h
  omega

theorem trunkKey_ne_empty {trunkKey : String} {keys : KeyCounter}
    (h : parse? trunkKey = some keys) : trunkKey ≠ "" := by
  rintro rfl
  rw [parse?_empty] at h
  simp at h

end KeyCounter

end FactStream
