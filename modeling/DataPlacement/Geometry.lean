import DataPlacement.Arithmetic
import DataPlacement.Error

namespace DataPlacement

/-- Sizes in bytes, except for the two counts. The pages of a line are counted in 32 bits. -/
structure Geometry where
  pageSize : Nat := 4096
  pagesPerLine : Nat := 256
  lines : Nat := 64
  blockSize : Nat := 512
  pagesPerLine_lt : pagesPerLine < bitRange 32 := by decide

namespace Geometry

/-- Every size and count is positive and a page holds whole logical blocks. -/
def validate (g : Geometry) : Except Error Unit :=
  if g.pageSize = 0 ∨ g.pagesPerLine = 0 ∨ g.lines = 0 then
    .error (.invalidParameters "geometry fields must be non-zero")
  else if g.blockSize = 0 ∨ g.pageSize % g.blockSize ≠ 0 then
    .error (.invalidParameters "page size must be a multiple of the LBA size")
  else
    .ok ()

def lineBytes (g : Geometry) : Nat := g.pageSize * g.pagesPerLine

/-- Bytes of all lines, in 64 bits. -/
def capacityBytes (g : Geometry) : Nat := lowBits 64 (g.lineBytes * g.lines)

def totalBlocks (g : Geometry) : Nat := g.capacityBytes / g.blockSize

def totalPages (g : Geometry) : Nat := g.pagesPerLine * g.lines

end Geometry

end DataPlacement
