import DataPlacement.Arithmetic

namespace DataPlacement

/-- The directive type that carries a placement identifier. -/
def placementDirective : Nat := 2

/-- A write. `blocks` is the number of logical blocks less one; `identifier` is the
directive-specific value, which is a placement identifier if the directive is a placement. -/
structure WriteCommand where
  block : Nat
  blocks : Nat
  directive : Nat := 0
  identifier : Nat := 0
  deriving DecidableEq

namespace WriteCommand

/-- A write with a placement directive. -/
def placed (block blocks identifier : Nat) : WriteCommand :=
  ⟨block, blocks, placementDirective, identifier⟩

/-- A write without a directive. -/
def plain (block blocks : Nat) : WriteCommand :=
  ⟨block, blocks, 0, 0⟩

/-- Reads command dwords 12 and 13: the block count in bits 15:0 and the directive in bits 23:20
of the first, the identifier in bits 31:16 of the second. -/
def ofDwords (block dword12 dword13 : Nat) : WriteCommand where
  block := block
  blocks := bitField 0 16 dword12
  directive := bitField 20 4 dword12
  identifier := bitField 16 16 dword13

/-- Writes command dwords 12 and 13. -/
def dwords (w : WriteCommand) : Nat × Nat :=
  (w.blocks + bitField 0 4 w.directive * bitRange 20, w.identifier * bitRange 16)

def hasPlacement (w : WriteCommand) : Bool := w.directive == placementDirective

/-- Length in bytes with logical blocks of the given size. -/
def bytes (w : WriteCommand) (blockSize : Nat) : Nat := (w.blocks + 1) * blockSize

end WriteCommand

end DataPlacement
