import DataPlacement.Configuration.Basic
import DataPlacement.Scenario.Failure
import DataPlacement.Scenario.Step

namespace DataPlacement

namespace Scenario

/-- The shape of the device in bytes, except for the number of lines. -/
structure DeviceSection where
  pageSize : Nat := 4096
  lineSize : Nat := 4096 * 256
  lines : Nat := 64
  blockSize : Nat := 512
  deriving DecidableEq

/-- `enabled` turns placement on before the first step, `trace` reports every command. -/
structure PlacementSection where
  groups : Nat := 1
  handles : Nat := 4
  enabled : Bool := true
  trace : Bool := false
  deriving DecidableEq

end Scenario

open Scenario in
structure Scenario where
  name : Option String := none
  device : DeviceSection := {}
  placement : PlacementSection := {}
  steps : List Step := []

namespace Scenario

/-- Logical blocks that one command can carry. -/
def maxBlocks : Nat := bitRange 16

/-- The geometry that the device section asks for. Sizes and the pages of a line are 32-bit
numbers. -/
def geometry (s : Scenario) : Except Failure Geometry := do
  let d := s.device
  if bitRange 32 ≤ d.pageSize then throw (.invalidConfig "page size too large")
  if bitRange 32 ≤ d.blockSize then throw (.invalidConfig "LBA size too large")
  if d.pageSize = 0 then throw (.invalidConfig "page size must be non-zero")
  if d.lineSize % d.pageSize ≠ 0 then throw (.notAligned "line size" d.lineSize d.pageSize)
  if hfits : d.lineSize / d.pageSize < bitRange 32 then
    let g : Geometry := {
      pageSize := d.pageSize
      pagesPerLine := d.lineSize / d.pageSize
      lines := d.lines
      blockSize := d.blockSize
      pagesPerLine_lt := hfits }
    match g.validate with
    | .ok _ => return g
    | .error cause => throw (.device cause)
  else throw (.invalidConfig "line size too large")

def parameters (s : Scenario) : Parameters :=
  { groups := s.placement.groups, handles := s.placement.handles }

/-- A transfer is a positive multiple of its unit and fits one command. -/
def checkSize (g : Geometry) (index : Nat) (what : String) (size multiple : Nat) :
    Except Failure Unit :=
  if size = 0 ∨ size % multiple ≠ 0 then .error (.notAligned what size multiple)
  else if maxBlocks < size / g.blockSize then .error (.tooLarge index size)
  else .ok ()

/-- Writes are made of pages, reads of logical blocks. -/
def checkStep (g : Geometry) (index : Nat) : Step → Except Failure Unit
  | .write _ _ size _ _ => checkSize g index "write" size g.pageSize
  | .read _ size => checkSize g index "read" size g.blockSize
  | _ => .ok ()

/-- The first failing step, counted from `index`, fails them all. -/
def checkSteps (g : Geometry) : (index : Nat) → List Step → Except Failure Unit
  | _, [] => .ok ()
  | index, step :: rest => do
    checkStep g index step
    checkSteps g (index + 1) rest

/-- The scenario can be run: its device and configuration can be built, and its transfers fit
into commands. The configuration that was built on the way is reported. -/
def validate (s : Scenario) : Except Failure Unit × List Notice :=
  match s.geometry with
  | .error failure => (.error failure, [])
  | .ok g =>
    match Configuration.build g s.parameters with
    | .error cause => (.error (.device cause), [])
    | .ok c => (checkSteps g 0 s.steps, [c.builtNotice])

end Scenario

end DataPlacement
