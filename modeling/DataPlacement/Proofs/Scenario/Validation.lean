import DataPlacement.Proofs.Device.Runs
import DataPlacement.Scenario.Basic

namespace DataPlacement.Scenario

variable {g : Geometry} {size multiple index : Nat}

/-- The transfer is a positive multiple of its unit and fits into one command. -/
structure Transferable (g : Geometry) (size multiple : Nat) : Prop where
  positive : size ≠ 0
  whole : multiple ∣ size
  short : size / g.blockSize ≤ maxBlocks

/-- The transfer of the step, if it has one, can be made. -/
def Step.Fits (g : Geometry) : Step → Prop
  | .write _ _ size _ _ => Transferable g size g.pageSize
  | .read _ size => Transferable g size g.blockSize
  | _ => True

end DataPlacement.Scenario
