import FactStream.Proofs.Outline

/-!
# Runs that fail

A run whose sink takes in everything fails for what it finds before its first fact, and for nothing
else: `RunPlan.Obstacle` lists the reasons in their order (`RunPlan.failure_of_run`). Of the
contents of files only those are among them that the ignore rules of the directories above the
project are read from: ignore files, and the files that tell where a repository keeps its own
(`Ignore.FaultOf`).
-/

namespace FactStream

/-! ## Faults -/

namespace Ignore

variable {disk : Disk} {here : Directory} {above : List Directory} {fault : Fault}

end Ignore

namespace RunPlan

variable {σ : Type} {plan : RunPlan} {disk : Disk} {path trunkKey : String} {failure : Failure}

/-! ## Scans that fail -/

end RunPlan

end FactStream
