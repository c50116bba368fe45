import FactStream.Project
import FactStream.Proofs.Dictionary

/-!
# Scanned trees in document order

`Folder.outline` lists a scanned directory with all that is below it: the directory itself, then its
directories and then its files, each with the names that lead to it. A scan sorts the entries of
every directory by name (`ScanFilter.sorted_scanFound`), so each place is listed once
(`Folder.nodup_outline`).

The name of an entry in facts is made of the names on the way (`relativeName_join`), if these are
proper names of entries.
-/

namespace FactStream

/-- An entry of a scanned tree, with the names that lead to it from the base directory. -/
inductive Placed where
  | folder (names : List String) (folder : Folder)
  | file (names : List String) (file : SourceFile)

namespace Placed

def names : Placed → List String
  | folder names _ | file names _ => names

def isFile : Placed → Bool
  | folder .. => false
  | file .. => true

/-- The names of the directory that holds an entry; nothing holds the base directory. -/
def holder? (p : Placed) : Option (List String) :=
  if p.names = [] then none else some p.names.dropLast

/-- The name of an entry in facts. -/
def filename (p : Placed) : String :=
  if p.names = [] then "." else "./" ++ Text.join "/" p.names

def place (p : Placed) : List String × Bool :=
  (p.names, p.isFile)

end Placed

namespace Folder

def outlineFiles (names : List String) (files : List (String × SourceFile)) : List Placed :=
  files.map fun e => .file (names ++ [e.1]) e.2

mutual

/-- A directory and all that is below it: first its directories, then its files. -/
def outline (names : List String) : Folder → List Placed
  | ⟨folders, files⟩ =>
    .folder names ⟨folders, files⟩ :: (outlineAll names folders ++ outlineFiles names files.entries)

/-- The directories of a directory and all that is below them. -/
def outlineAll (names : List String) : List (String × Folder) → List Placed
  | [] => []
  | (name, folder) :: rest => folder.outline (names ++ [name]) ++ outlineAll names rest

end

theorem outline_eq (names : List String) (folders : List (String × Folder))
    (files : Dictionary SourceFile) :
    outline names ⟨folders, files⟩ =
      .folder names ⟨folders, files⟩ ::
        (outlineAll names folders ++ outlineFiles names files.entries) := by
  rw [outline]

theorem self_mem_outline (names : List String) (folder : Folder) :
    .folder names folder ∈ folder.outline names := by
  obtain ⟨folders, files⟩ := folder
  exact List.mem_cons_self

theorem mem_outlineAll {names : List String} {p : Placed} :
    ∀ {folders : List (String × Folder)},
      p ∈ outlineAll names folders ↔ ∃ e ∈ folders, p ∈ e.2.outline (names ++ [e.1])
  | [] => by simp [outlineAll]
  | (name, folder) :: rest => by simp [outlineAll, mem_outlineAll]

/-! ## Order -/

mutual

/-- In a directory and in all below it, the directories stand in the order of their names. -/
def Sorted : Folder → Prop
  | ⟨folders, _⟩ => folders.Pairwise (fun a b => a.1 < b.1) ∧ SortedAll folders

def SortedAll : List (String × Folder) → Prop
  | [] => True
  | (_, folder) :: rest => folder.Sorted ∧ SortedAll rest

end

theorem sortedAll_iff : ∀ {folders : List (String × Folder)},
    SortedAll folders ↔ ∀ e ∈ folders, e.2.Sorted
  | [] => by simp [SortedAll]
  | (name, folder) :: rest => by simp [SortedAll, sortedAll_iff]

mutual

theorem ascending_of_mem_outline : ∀ (folder : Folder) {names : List String}, folder.Sorted →
    ∀ {names' : List String} {inner : Folder}, .folder names' inner ∈ folder.outline names →
      inner.folders.Pairwise fun a b => a.1 < b.1
  | ⟨folders, files⟩, names, ⟨hascend, hinner⟩, names', inner, h => by
    rw [outline_eq, List.mem_cons, List.mem_append] at h
    rcases h with h | h | h
    · obtain ⟨-, rfl⟩ := Placed.folder.inj h
      exact hascend
    · exact ascending_of_mem_outlineAll folders hinner h
    · simp [outlineFiles] at h

theorem ascending_of_mem_outlineAll : ∀ (folders : List (String × Folder)) {names : List String},
    SortedAll folders →
    ∀ {names' : List String} {inner : Folder}, .folder names' inner ∈ outlineAll names folders →
      inner.folders.Pairwise fun a b => a.1 < b.1
  | [], _, _, _, _, h => by simp [outlineAll] at h
  | (name, folder) :: rest, names, ⟨hfolder, hrest⟩, names', inner, h => by
    rw [outlineAll, List.mem_append] at h
    rcases h with h | h
    · exact ascending_of_mem_outline folder hfolder h
    · exact ascending_of_mem_outlineAll rest hrest h

end

/-! ## Places -/

mutual

theorem below_of_mem_outline : ∀ (folder : Folder) {names : List String} {p : Placed},
    p ∈ folder.outline names → p = .folder names folder ∨ ∃ name, names ++ [name] <+: p.names
  | ⟨folders, files⟩, names, p, h => by
    rw [outline_eq, List.mem_cons, List.mem_append] at h
    rcases h with h | h | h
    · exact .inl h
    · obtain ⟨e, -, hpre⟩ := below_of_mem_outlineAll folders h
      exact .inr ⟨e.1, hpre⟩
    · obtain ⟨e, -, rfl⟩ := List.mem_map.1 h
      exact .inr ⟨e.1, List.prefix_rfl⟩

theorem below_of_mem_outlineAll : ∀ (folders : List (String × Folder)) {names : List String}
    {p : Placed}, p ∈ outlineAll names folders → ∃ e ∈ folders, names ++ [e.1] <+: p.names
  | [], _, _, h => by simp [outlineAll] at h
  | (name, folder) :: rest, names, p, h => by
    rw [outlineAll, List.mem_append] at h
    rcases h with h | h
    · refine ⟨_, List.mem_cons_self, ?_⟩
      rcases below_of_mem_outline folder h with rfl | ⟨inner, hpre⟩
      · exact List.prefix_rfl
      · exact (List.prefix_append _ _).trans hpre
    · obtain ⟨e, he, hpre⟩ := below_of_mem_outlineAll rest h
      exact ⟨e, List.mem_cons_of_mem _ he, hpre⟩

end

theorem eq_of_prefix {names l : List String} {a b : String} (ha : names ++ [a] <+: l)
    (hb : names ++ [b] <+: l) : a = b := by
  have hpre := List.prefix_of_prefix_length_le ha hb (by simp)
  have heq := hpre.eq_of_length (by simp)
  simpa using heq

mutual

theorem nodup_outline : ∀ (folder : Folder) (names : List String), folder.Sorted →
    ((folder.outline names).map Placed.place).Nodup
  | ⟨folders, files⟩, names, ⟨hascend, hinner⟩ => by
    rw [outline_eq, List.map_cons, List.map_append, List.nodup_cons, List.nodup_append]
    refine ⟨?_, nodup_outlineAll folders names hascend hinner, ?_, ?_⟩
    · rw [← List.map_append]
      intro hmem
      obtain ⟨p, hp, hplace⟩ := List.mem_map.1 hmem
      have hnames : p.names = names := congrArg Prod.fst hplace
      obtain ⟨name, hpre⟩ : ∃ name, names ++ [name] <+: p.names := by
        rcases List.mem_append.1 hp with hp | hp
        · obtain ⟨e, -, hpre⟩ := below_of_mem_outlineAll folders hp
          exact ⟨e.1, hpre⟩
        · obtain ⟨e, -, rfl⟩ := List.mem_map.1 hp
          exact ⟨e.1, List.prefix_rfl⟩
      have hlength := hpre.length_le
      rw [hnames, List.length_append, List.length_singleton] at hlength
      omega
    · rw [outlineFiles, List.map_map, List.nodup_iff_pairwise_ne, List.pairwise_map]
      refine files.ascending.imp fun {a b} hab hplace => ?_
      have hnames : names ++ [a.1] = names ++ [b.1] := congrArg Prod.fst hplace
      have hname : a.1 = b.1 := by simpa using hnames
      exact String.lt_irrefl _ (hname ▸ hab)
    · intro a ha b hb hab
      obtain ⟨p, hp, rfl⟩ := List.mem_map.1 ha
      obtain ⟨q, hq, rfl⟩ := List.mem_map.1 hb
      obtain ⟨e, -, rfl⟩ := List.mem_map.1 hq
      have hnames : p.names = names ++ [e.1] := congrArg Prod.fst hab
      have hfile : p.isFile = true := congrArg Prod.snd hab
      -- A file of an inner directory has one more name at least.
      obtain ⟨d, -, hd⟩ := mem_outlineAll.1 hp
      rcases below_of_mem_outline d.2 hd with rfl | ⟨name, hpre⟩
      · simp [Placed.isFile] at hfile
      · have hlength := hpre.length_le
        simp only [hnames, List.length_append, List.length_singleton] at hlength
        omega

theorem nodup_outlineAll : ∀ (folders : List (String × Folder)) (names : List String),
    folders.Pairwise (fun a b => a.1 < b.1) → SortedAll folders →
    ((outlineAll names folders).map Placed.place).Nodup
  | [], _, _, _ => .nil
  | (name, folder) :: rest, names, hascend, ⟨hfolder, hrest⟩ => by
    obtain ⟨hfirst, hascend⟩ := List.pairwise_cons.1 hascend
    rw [outlineAll, List.map_append, List.nodup_append]
    refine ⟨nodup_outline folder _ hfolder, nodup_outlineAll rest names hascend hrest, ?_⟩
    intro a ha b hb hab
    obtain ⟨p, hp, rfl⟩ := List.mem_map.1 ha
    obtain ⟨q, hq, rfl⟩ := List.mem_map.1 hb
    have hnames : p.names = q.names := congrArg Prod.fst hab
    obtain ⟨e, he, hpre⟩ := below_of_mem_outlineAll rest hq
    have hself : names ++ [name] <+: p.names := by
      rcases below_of_mem_outline folder hp with rfl | ⟨inner, hpre⟩
      · exact List.prefix_rfl
      · exact (List.prefix_append _ _).trans hpre
    obtain rfl : name = e.1 := eq_of_prefix hself (hnames ▸ hpre)
    exact String.lt_irrefl _ (hfirst e he)

end

end Folder

theorem Dictionary.mem_place {α : Type} {key : String} {value : α} {l : List (String × α)}
    {e : String × α} (h : e ∈ place key value l) : e = (key, value) ∨ e ∈ l := by
  induction l with
  | nil => exact .inl (List.mem_singleton.1 h)
  | cons head rest ih =>
    obtain ⟨k, v⟩ := head
    unfold place at h
    split at h
    · rcases List.mem_cons.1 h with h | h
      · exact .inl h
      · exact .inr (List.mem_cons_of_mem _ h)
    · split at h
      · exact List.mem_cons.1 h
      · rcases List.mem_cons.1 h with rfl | h
        · exact .inr List.mem_cons_self
        · exact (ih h).imp_right (List.mem_cons_of_mem _)

namespace Folder

theorem Sorted.ascending {here : Folder} (h : here.Sorted) :
    here.folders.Pairwise fun a b => a.1 < b.1 := by
  obtain ⟨folders, files⟩ := here
  exact h.1

theorem Sorted.inner {here : Folder} (h : here.Sorted) {e : String × Folder}
    (he : e ∈ here.folders) : e.2.Sorted := by
  obtain ⟨folders, files⟩ := here
  exact sortedAll_iff.1 h.2 e he

theorem sorted_empty : Sorted {} :=
  ⟨.nil, trivial⟩

theorem sorted_changeAt {change : Folder → Folder}
    (hchange : ∀ here, here.Sorted → (change here).Sorted) (way : List String) {here : Folder}
    (h : here.Sorted) : (changeAt change way here).Sorted := by
  induction way generalizing here with
  | nil => exact hchange here h
  | cons name rest ih =>
    have hinner : ((here.folders.lookup name).getD {}).Sorted := by
      cases hfound : here.folders.lookup name with
      | none => exact sorted_empty
      | some inner => exact h.inner (mem_of_lookup hfound)
    refine ⟨Dictionary.place_ascending _ _ h.ascending, sortedAll_iff.2 fun e he => ?_⟩
    rcases Dictionary.mem_place he with rfl | he
    · exact ih hinner
    · exact h.inner he

theorem sorted_putFile {name : String} {content : SourceFile} {here : Folder} (h : here.Sorted) :
    (putFile name content here).Sorted := by
  obtain ⟨folders, files⟩ := here
  exact h

end Folder

namespace ScanFilter

variable {c : ScanFilter}

theorem sorted_add {tree : Folder} (h : tree.Sorted) (found : List FileName × Entry.Item) :
    (c.add tree found).Sorted := by
  unfold add
  dsimp only
  split
  · exact Folder.sorted_changeAt (fun _ h => h) _ h
  · split
    · split
      · exact Folder.sorted_changeAt (fun _ h => Folder.sorted_putFile h) _ h
      · exact h
    · exact h
  · exact h

theorem sorted_foldl_add (found : List (List FileName × Entry.Item)) {tree : Folder}
    (h : tree.Sorted) : (found.foldl c.add tree).Sorted := by
  induction found generalizing tree with
  | nil => exact h
  | cons f rest ih => exact ih (sorted_add h f)

theorem sorted_scanDirectory (position : ScanPosition) : (c.scanDirectory position).Sorted :=
  sorted_foldl_add _ Folder.sorted_empty

theorem sorted_scanFound {disk : Disk} {path : String} {here : Directory}
    {above : List Directory} {root : Folder}
    (h : c.scanFound disk path here above = .ok root) : root.Sorted := by
  unfold scanFound at h
  split at h
  · obtain rfl := Except.ok.inj h
    exact Folder.sorted_empty
  · split at h
    · obtain rfl := Except.ok.inj h
      exact sorted_scanDirectory _
    · simp at h

end ScanFilter

/-! ## Names in facts -/

/-- A name that an entry of a directory can have. -/
def ValidName (name : String) : Prop :=
  name ≠ "" ∧ '/' ∉ name.toList ∧ name ≠ "." ∧ name ≠ ".."

instance (name : String) : Decidable (ValidName name) :=
  inferInstanceAs (Decidable (_ ∧ _ ∧ _ ∧ _))

theorem join_concat (separator : String) : ∀ {names : List String} (name : String), names ≠ [] →
    Text.join separator (names ++ [name]) = Text.join separator names ++ separator ++ name
  | [], _, h => absurd rfl h
  | [a], name, _ => rfl
  | a :: b :: rest, name, _ => by
    have ih := join_concat separator name (List.cons_ne_nil b rest)
    show a ++ separator ++ Text.join separator (b :: rest ++ [name]) =
      a ++ separator ++ Text.join separator (b :: rest) ++ separator ++ name
    rw [ih]
    simp only [String.append_assoc]

theorem toList_join (name : String) (rest : List String) :
    ∃ tail, (Text.join "/" (name :: rest)).toList = name.toList ++ tail := by
  cases rest with
  | nil => exact ⟨[], by simp [Text.join]⟩
  | cons b rest => exact ⟨'/' :: (Text.join "/" (b :: rest)).toList, by simp [Text.join]⟩

theorem join_ne_empty {names : List String} (hvalid : ∀ name ∈ names, ValidName name)
    (hne : names ≠ []) : Text.join "/" names ≠ "" := by
  obtain ⟨name, rest, rfl⟩ := List.exists_cons_of_ne_nil hne
  obtain ⟨tail, htail⟩ := toList_join name rest
  intro hempty
  rw [hempty, String.toList_empty] at htail
  have hname : name.toList = [] := (List.append_eq_nil_iff.1 htail.symm).1
  exact (hvalid name List.mem_cons_self).1 (String.toList_eq_nil_iff.1 hname)

theorem joinPath_join {names : List String} (hvalid : ∀ name ∈ names, ValidName name)
    (name : String) : joinPath (Text.join "/" names) name = Text.join "/" (names ++ [name]) := by
  by_cases hne : names = []
  · rw [hne]
    rfl
  · rw [joinPath, if_neg (join_ne_empty hvalid hne), join_concat "/" name hne]

theorem dropHere_eq_self {l : List Char} (h : ∀ rest, l ≠ '.' :: '/' :: rest) :
    dropHere l = l := by
  unfold dropHere
  split
  next rest => exact absurd rfl (h rest)
  next => rfl

/-- No part of a path is dropped in front, since no name is a dot. -/
theorem dropHere_join {names : List String} (hvalid : ∀ name ∈ names, ValidName name) :
    dropHere (Text.join "/" names).toList = (Text.join "/" names).toList := by
  refine dropHere_eq_self fun more hmore => ?_
  cases names with
  | nil => simp [Text.join] at hmore
  | cons name rest =>
    obtain ⟨hempty, hslash, hdot, -⟩ := hvalid name List.mem_cons_self
    obtain ⟨tail, htail⟩ := toList_join name rest
    rw [hmore] at htail
    -- The path would start with a name that is empty, a dot, or has a slash in it.
    match hl : name.toList with
    | [] => exact hempty (String.toList_eq_nil_iff.1 hl)
    | [c] =>
      rw [hl] at htail
      obtain rfl : '.' = c := (List.cons.inj htail).1
      exact hdot (String.toList_inj.1 hl)
    | c :: d :: inner =>
      rw [hl] at htail
      obtain rfl : '/' = d := (List.cons.inj (List.cons.inj htail).2).1
      exact hslash (by rw [hl]; simp)

theorem relativeName_join {names : List String} (hvalid : ∀ name ∈ names, ValidName name) :
    relativeName (Text.join "/" names) =
      if names = [] then "." else "./" ++ Text.join "/" names := by
  unfold relativeName
  rw [dropHere_join hvalid]
  by_cases hne : names = []
  · rw [if_pos hne, hne]
    rfl
  · rw [if_neg hne]
    cases hl : (Text.join "/" names).toList with
    | nil => exact absurd (String.toList_eq_nil_iff.1 hl) (join_ne_empty hvalid hne)
    | cons c rest =>
      apply String.toList_inj.1
      simp [hl]

theorem Placed.filename_eq (p : Placed) {names : List String} (hp : p.names = names)
    (hvalid : ∀ name ∈ names, ValidName name) :
    p.filename = relativeName (Text.join "/" names) := by
  rw [filename, hp, relativeName_join hvalid]

theorem Placed.holder?_of_names {p : Placed} {names : List String} {name : String}
    (h : p.names = names ++ [name]) : p.holder? = some names := by
  simp [holder?, h]

end FactStream
