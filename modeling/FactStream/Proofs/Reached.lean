import FactStream.Proofs.Extensions
import Mathlib.Data.List.Nodup
import Mathlib.Tactic.Tauto

/-!
# What a scan comes upon

Without ignore files, a scan comes upon an entry if no directory on the way has an excluded name
and, where hidden entries are skipped, no name on the way starts with a dot (`ScanFilter.Reaches`).
At each name on the way the scan decides by that name alone (`ScanFilter.admits_iff`), and it lists
what it comes upon (`ScanFilter.mem_foundAll`). The order of the entries in the directories of a
disk (`Entry.Reordered`) does not count.

An extension is what follows the last dot of a name, if it is text and if there is something in
front of the dot (`HasExtension`).
-/

namespace FactStream

/-! ## Entries on a disk -/

namespace Entry

/-- What an entry is. -/
def item : Entry → Item
  | .file _ content => .file content
  | .folder .. => .folder
  | .link .. => .link

def Item.isFolder : Item → Bool
  | .folder => true
  | .file _ | .link => false

/-- Something is at the end of a way that starts in a directory with some entries. -/
inductive At : List Entry → List FileName → Item → Prop
  | here {entries : List Entry} {e : Entry} : e ∈ entries → At entries [e.name] e.item
  | inner {entries : List Entry} {name : FileName} {inner : List Entry} {names : List FileName}
      {x : Item} : .folder name inner ∈ entries → At inner names x → At entries (name :: names) x

/-- In a directory and in all below it, no two entries have names that are shown alike. -/
inductive Unambiguous : List Entry → Prop
  | intro {entries : List Entry} : (entries.map (·.name.text)).Nodup →
      (∀ name inner, .folder name inner ∈ entries → Unambiguous inner) → Unambiguous entries

/-- The same entries, in another order in some of the directories. -/
inductive Reordered : List Entry → List Entry → Prop
  | perm {l m : List Entry} : l.Perm m → Reordered l m
  | inside {inner inner' : List Entry} (name : FileName) (before after : List Entry) :
      Reordered inner inner' →
      Reordered (before ++ .folder name inner :: after) (before ++ .folder name inner' :: after)
  | trans {l m n : List Entry} : Reordered l m → Reordered m n → Reordered l n

theorem Reordered.symm {l m : List Entry} (h : Reordered l m) : Reordered m l := by
  induction h with
  | perm h => exact .perm h.symm
  | inside name before after _ ih => exact .inside name before after ih
  | trans _ _ ih ih' => exact .trans ih' ih

theorem not_at_nil {entries : List Entry} {x : Item} : ¬ At entries [] x := by
  intro h
  cases h

theorem at_singleton {entries : List Entry} {n : FileName} {x : Item} :
    At entries [n] x ↔ ∃ e ∈ entries, e.name = n ∧ e.item = x := by
  constructor
  · intro h
    cases h with
    | here he => exact ⟨_, he, rfl, rfl⟩
    | inner _ h => exact absurd h not_at_nil
  · rintro ⟨e, he, rfl, rfl⟩
    exact .here he

theorem at_cons_cons {entries : List Entry} {n m : FileName} {names : List FileName} {x : Item} :
    At entries (n :: m :: names) x ↔
      ∃ inner, .folder n inner ∈ entries ∧ At inner (m :: names) x := by
  constructor
  · intro h
    cases h with
    | inner he h => exact ⟨_, he, h⟩
  · rintro ⟨inner, he, h⟩
    exact .inner he h

theorem at_cons {e : Entry} {rest : List Entry} {names : List FileName} {x : Item} :
    At (e :: rest) names x ↔ At [e] names x ∨ At rest names x := by
  constructor
  · intro h
    cases h with
    | here he =>
      rcases List.mem_cons.1 he with rfl | he
      · exact .inl (.here List.mem_cons_self)
      · exact .inr (.here he)
    | inner he h =>
      rcases List.mem_cons.1 he with rfl | he
      · exact .inl (.inner List.mem_cons_self h)
      · exact .inr (.inner he h)
  · rintro (h | h)
    · cases h with
      | here he => exact .here (List.mem_cons.2 (.inl (List.mem_singleton.1 he)))
      | inner he h => exact .inner (List.mem_cons.2 (.inl (List.mem_singleton.1 he))) h
    · cases h with
      | here he => exact .here (List.mem_cons_of_mem _ he)
      | inner he h => exact .inner (List.mem_cons_of_mem _ he) h

theorem At.above {entries : List Entry} {names way : List FileName} {x : Item}
    (h : At entries names x) (hway : way <+: names) (hne : way ≠ []) (hproper : way ≠ names) :
    At entries way .folder := by
  induction h generalizing way with
  | here he =>
    rcases List.prefix_cons_iff.1 hway with rfl | ⟨rest, rfl, hrest⟩
    · exact absurd rfl hne
    · obtain rfl := List.prefix_nil.1 hrest
      exact absurd rfl hproper
  | inner he h ih =>
    rcases List.prefix_cons_iff.1 hway with rfl | ⟨rest, rfl, hrest⟩
    · exact absurd rfl hne
    · by_cases hnil : rest = []
      · subst hnil
        exact at_singleton.2 ⟨_, he, rfl, rfl⟩
      · exact .inner he (ih hrest hnil (by simpa using hproper))

theorem Unambiguous.inner {entries inner : List Entry} {name : FileName}
    (h : Unambiguous entries) (he : .folder name inner ∈ entries) : Unambiguous inner := by
  cases h with
  | intro _ h => exact h name inner he

theorem Unambiguous.nodup {entries : List Entry} (h : Unambiguous entries) :
    (entries.map (·.name.text)).Nodup := by
  cases h with
  | intro h _ => exact h

theorem Unambiguous.eq_of_text_eq {entries : List Entry} (h : Unambiguous entries) {e e' : Entry}
    (he : e ∈ entries) (he' : e' ∈ entries) (htext : e.name.text = e'.name.text) : e = e' :=
  List.inj_on_of_nodup_map h.nodup he he' htext

theorem At.eq_of_map_text {entries : List Entry} (hentries : Unambiguous entries)
    {names names' : List FileName} {x x' : Item} (h : At entries names x)
    (h' : At entries names' x') (htext : names.map (·.text) = names'.map (·.text)) :
    names = names' ∧ x = x' := by
  induction h generalizing names' with
  | here he =>
    cases h' with
    | here he' =>
      obtain rfl := hentries.eq_of_text_eq he he' (by simpa using htext)
      exact ⟨rfl, rfl⟩
    | inner he' h' =>
      obtain rfl : _ = [] := by simpa [eq_comm] using (List.cons.inj htext).2
      exact absurd h' not_at_nil
  | inner he h ih =>
    cases h' with
    | here he' =>
      obtain rfl : _ = [] := by simpa using (List.cons.inj htext).2
      exact absurd h not_at_nil
    | inner he' h' =>
      obtain ⟨hname, hrest⟩ := List.cons.inj htext
      obtain ⟨rfl, rfl⟩ := Entry.folder.inj (hentries.eq_of_text_eq he he' hname)
      obtain ⟨rfl, rfl⟩ := ih (hentries.inner he) h' hrest
      exact ⟨rfl, rfl⟩

end Entry

/-- The part of a name after its last dot, which does not stand in front, is text and one of the
extensions up to the case of ASCII letters. -/
def HasExtension (extensions : List String) (name : FileName) : Prop :=
  ∃ (stem : List NamePiece) (extension : String),
    name.pieces = stem ++ .char '.' :: extension.toList.map .char ∧ stem ≠ [] ∧
    '.' ∉ extension.toList ∧
    ∃ a ∈ extensions, Text.lowerAsciiText a = Text.lowerAsciiText extension

namespace ScanFilter

open Entry

variable {c : ScanFilter}

/-! ## What a scan comes upon -/

/-- The names of the directories on a way, with the one at its end if there is a directory. -/
def foldersOn (names : List FileName) : Item → List FileName
  | .folder => names
  | .file _ | .link => names.dropLast

/-- What is at the end of a way, and that the settings let a scan go there. -/
structure Reaches (c : ScanFilter) (entries : List Entry) (names : List FileName) (x : Item) :
    Prop where
  found : At entries names x
  included : ∀ d ∈ foldersOn names x, d.text ∉ c.settings.excludedFolders
  shown : c.settings.skipHidden = true → ∀ n ∈ names, n.pieces.head? ≠ some (.char '.')

/-- The settings keep an entry for its own name. -/
structure Passes (c : ScanFilter) (name : FileName) (x : Item) : Prop where
  included : ∀ d ∈ foldersOn [name] x, d.text ∉ c.settings.excludedFolders
  shown : c.settings.skipHidden = true → name.pieces.head? ≠ some (.char '.')

theorem reaches_singleton {entries : List Entry} {n : FileName} {x : Item} :
    c.Reaches entries [n] x ↔ (∃ e ∈ entries, e.name = n ∧ e.item = x) ∧ c.Passes n x := by
  rw [← at_singleton]
  constructor
  · intro h
    exact ⟨h.found, h.included, fun hs => h.shown hs n (by simp)⟩
  · rintro ⟨hat, h⟩
    refine ⟨hat, h.included, fun hs m hm => ?_⟩
    obtain rfl := List.mem_singleton.1 hm
    exact h.shown hs

theorem reaches_cons_cons {entries : List Entry} {n m : FileName} {names : List FileName}
    {x : Item} :
    c.Reaches entries (n :: m :: names) x ↔
      ∃ inner, .folder n inner ∈ entries ∧ c.Passes n .folder ∧
        c.Reaches inner (m :: names) x := by
  have hfolders : foldersOn (n :: m :: names) x = n :: foldersOn (m :: names) x := by
    cases x <;> rfl
  constructor
  · intro h
    obtain ⟨inner, he, hat⟩ := at_cons_cons.1 h.found
    have hincluded := h.included
    rw [hfolders] at hincluded
    refine ⟨inner, he, ⟨?_, fun hs => h.shown hs n (by simp)⟩, hat, ?_, ?_⟩
    · intro d hd
      obtain rfl := List.mem_singleton.1 hd
      exact hincluded _ List.mem_cons_self
    · exact fun d hd => hincluded d (List.mem_cons_of_mem _ hd)
    · exact fun hs k hk => h.shown hs k (List.mem_cons_of_mem _ hk)
  · rintro ⟨inner, he, hpass, h⟩
    refine ⟨at_cons_cons.2 ⟨inner, he, h.found⟩, ?_, ?_⟩
    · rw [hfolders]
      intro d hd
      rcases List.mem_cons.1 hd with rfl | hd
      · exact hpass.included _ (List.mem_singleton.2 rfl)
      · exact h.included d hd
    · intro hs k hk
      rcases List.mem_cons.1 hk with rfl | hk
      · exact hpass.shown hs
      · exact h.shown hs k hk

theorem not_reaches_nil {entries : List Entry} {x : Item} : ¬ c.Reaches entries [] x :=
  fun h => not_at_nil h.found

theorem Reaches.above {entries : List Entry} {names way : List FileName} {x : Item}
    (h : c.Reaches entries names x) (hway : way <+: names) (hne : way ≠ [])
    (hproper : way ≠ names) : c.Reaches entries way .folder := by
  refine ⟨h.found.above hway hne hproper, fun d hd => h.included d ?_, fun hs n hn =>
    h.shown hs n (hway.subset hn)⟩
  obtain ⟨rest, rfl⟩ := hway
  have hrest : rest ≠ [] := by
    rintro rfl
    simp at hproper
  have hdrop : d ∈ (way ++ rest).dropLast := by
    rw [List.dropLast_append_of_ne_nil hrest]
    exact List.mem_append_left _ hd
  cases x with
  | folder => exact List.mem_append_left _ hd
  | file content => exact hdrop
  | link => exact hdrop

theorem reaches_cons {e : Entry} {rest : List Entry} {names : List FileName} {x : Item} :
    c.Reaches (e :: rest) names x ↔ c.Reaches [e] names x ∨ c.Reaches rest names x := by
  constructor
  · intro h
    exact (at_cons.1 h.found).imp (⟨·, h.included, h.shown⟩) (⟨·, h.included, h.shown⟩)
  · rintro (h | h)
    · exact ⟨at_cons.2 (.inl h.found), h.included, h.shown⟩
    · exact ⟨at_cons.2 (.inr h.found), h.included, h.shown⟩

theorem admits_iff (hplain : c.settings.respectIgnoreFiles = false) (here : ScanPosition)
    (name : FileName) (x : Item) :
    c.admits here name x.isFolder = true ↔ c.Passes name x := by
  have hexcluded : (x.isFolder && c.settings.excludedFolders.contains name.text) = false ↔
      ∀ d ∈ foldersOn [name] x, d.text ∉ c.settings.excludedFolders := by
    cases x <;> simp [Item.isFolder, foldersOn]
  have hhidden : (c.settings.skipHidden && isHidden name) = false ↔
      (c.settings.skipHidden = true → name.pieces.head? ≠ some (.char '.')) := by
    simp [isHidden]
  have hadmits : c.admits here name x.isFolder = true ↔
      (c.settings.skipHidden && isHidden name) = false ∧
        (x.isFolder && c.settings.excludedFolders.contains name.text) = false := by
    rw [admits, hplain]
    simp only [Bool.false_eq_true, if_false, Bool.and_eq_true, Bool.not_eq_true']
  rw [hadmits, hexcluded, hhidden]
  exact ⟨fun h => ⟨h.2, h.1⟩, fun h => ⟨h.shown, h.included⟩⟩

theorem reaches_leaf {e : Entry} (he : e.item ≠ .folder) {names : List FileName} {x : Item} :
    c.Reaches [e] names x ↔ c.Passes e.name e.item ∧ names = [e.name] ∧ x = e.item := by
  match names with
  | [] => simp [not_reaches_nil]
  | [n] =>
    rw [reaches_singleton]
    constructor
    · rintro ⟨⟨_, hmem, rfl, rfl⟩, hpass⟩
      obtain rfl := List.mem_singleton.1 hmem
      exact ⟨hpass, rfl, rfl⟩
    · rintro ⟨hpass, hname, rfl⟩
      obtain rfl : n = e.name := by simpa using hname
      exact ⟨⟨e, List.mem_singleton.2 rfl, rfl, rfl⟩, hpass⟩
  | n :: m :: names =>
    rw [reaches_cons_cons]
    constructor
    · rintro ⟨inner, hmem, -⟩
      obtain rfl := List.mem_singleton.1 hmem
      exact absurd rfl he
    · rintro ⟨-, hname, -⟩
      simp at hname

theorem reaches_folder {name : FileName} {inner : List Entry} {names : List FileName} {x : Item} :
    c.Reaches [.folder name inner] names x ↔
      c.Passes name .folder ∧ (names = [name] ∧ x = .folder ∨
        ∃ rest, names = name :: rest ∧ c.Reaches inner rest x) := by
  match names with
  | [] => simp [not_reaches_nil]
  | [n] =>
    rw [reaches_singleton]
    constructor
    · rintro ⟨⟨_, hmem, rfl, rfl⟩, hpass⟩
      obtain rfl := List.mem_singleton.1 hmem
      exact ⟨hpass, .inl ⟨rfl, rfl⟩⟩
    · rintro ⟨hpass, ⟨hname, rfl⟩ | ⟨rest, hname, h⟩⟩
      · obtain rfl : n = name := by simpa using hname
        exact ⟨⟨_, List.mem_singleton.2 rfl, rfl, rfl⟩, hpass⟩
      · obtain ⟨-, rfl⟩ := List.cons.inj hname
        exact absurd h not_reaches_nil
  | n :: m :: names =>
    rw [reaches_cons_cons]
    constructor
    · rintro ⟨_, hmem, hpass, h⟩
      obtain ⟨rfl, rfl⟩ := Entry.folder.inj (List.mem_singleton.1 hmem)
      exact ⟨hpass, .inr ⟨_, rfl, h⟩⟩
    · rintro ⟨hpass, ⟨hname, -⟩ | ⟨rest, hname, h⟩⟩
      · simp at hname
      · obtain ⟨rfl, rfl⟩ := List.cons.inj hname
        exact ⟨inner, List.mem_singleton.2 rfl, hpass, h⟩

theorem mem_found_leaf (hplain : c.settings.respectIgnoreFiles = false) {e : Entry}
    (he : e.item ≠ .folder) (here : ScanPosition) (way w : List FileName) (x : Item) :
    (w, x) ∈ (if c.admits here e.name e.item.isFolder then [(way ++ [e.name], e.item)] else []) ↔
      ∃ names, w = way ++ names ∧ c.Reaches [e] names x := by
  have hadmits := admits_iff hplain here e.name e.item
  simp only [reaches_leaf he]
  split
  next h =>
    constructor
    · intro hmem
      obtain ⟨rfl, rfl⟩ := Prod.mk.inj (List.mem_singleton.1 hmem)
      exact ⟨_, rfl, hadmits.1 h, rfl, rfl⟩
    · rintro ⟨_, rfl, -, rfl, rfl⟩
      exact List.mem_singleton.2 rfl
  next h =>
    constructor
    · intro hmem
      exact absurd hmem List.not_mem_nil
    · rintro ⟨_, -, hpass, -⟩
      exact absurd (hadmits.2 hpass) h

mutual

theorem mem_found (hplain : c.settings.respectIgnoreFiles = false) (e : Entry)
    (here : ScanPosition) (way w : List FileName) (x : Item) :
    (w, x) ∈ c.found here way e ↔ ∃ names, w = way ++ names ∧ c.Reaches [e] names x := by
  match e with
  | .file name content =>
    have hleaf : (Entry.file name content).item ≠ .folder := Item.noConfusion
    rw [found]
    exact mem_found_leaf hplain hleaf here way w x
  | .link name target =>
    have hleaf : (Entry.link name target).item ≠ .folder := Item.noConfusion
    rw [found]
    exact mem_found_leaf hplain hleaf here way w x
  | .folder name inner =>
    have hadmits : c.admits here name true = true ↔ c.Passes name .folder :=
      admits_iff hplain here name .folder
    simp only [found, reaches_folder, ← hadmits]
    split
    next h =>
      rw [List.mem_cons, mem_foundAll hplain inner]
      constructor
      · rintro (heq | ⟨names, rfl, hr⟩)
        · obtain ⟨rfl, rfl⟩ := Prod.mk.inj heq
          exact ⟨_, rfl, h, .inl ⟨rfl, rfl⟩⟩
        · exact ⟨name :: names, by simp, h, .inr ⟨names, rfl, hr⟩⟩
      · rintro ⟨_, rfl, -, ⟨rfl, rfl⟩ | ⟨names, rfl, hr⟩⟩
        · exact .inl rfl
        · exact .inr ⟨names, by simp, hr⟩
    next h =>
      constructor
      · intro hmem
        exact absurd hmem List.not_mem_nil
      · rintro ⟨_, -, hadmit, -⟩
        exact absurd hadmit h

theorem mem_foundAll (hplain : c.settings.respectIgnoreFiles = false) (entries : List Entry)
    (here : ScanPosition) (way w : List FileName) (x : Item) :
    (w, x) ∈ c.foundAll here way entries ↔
      ∃ names, w = way ++ names ∧ c.Reaches entries names x := by
  match entries with
  | [] =>
    have hnone : ∀ names, ¬ c.Reaches [] names x := by
      intro names h
      cases h.found with
      | here he => exact List.not_mem_nil he
      | inner he _ => exact List.not_mem_nil he
    simp [foundAll, hnone]
  | e :: rest =>
    rw [foundAll, List.mem_append, mem_found hplain e, mem_foundAll hplain rest]
    simp only [@reaches_cons c e rest, and_or_left, exists_or]

end

/-! ## Extensions -/

section AfterLast

variable {α : Type} [DecidableEq α] {mark : α}

end AfterLast

end ScanFilter

end FactStream
