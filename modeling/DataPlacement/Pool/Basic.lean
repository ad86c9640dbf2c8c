import DataPlacement.Arithmetic
import DataPlacement.FreeList
import DataPlacement.Outcome

namespace DataPlacement

/-- The records of all lines, and the free lists, which hold lines by their numbers and in the
order in which they are taken. A line that is being written or full is in no list. `retirements`
counts the lines that became full so far. -/
structure Pool where
  lines : Array Line
  pagesPerLine : Nat
  shared : FreeList
  reserved : Array FreeList := #[]
  retirements : Nat := 0
  pagesPerLine_lt : pagesPerLine < bitRange 32 := by decide
  deriving DecidableEq

namespace Pool

/-- Every line erased and shared, in line order. -/
def erased (total pagesPerLine : Nat) (hsize : pagesPerLine < bitRange 32 := by decide) : Pool where
  lines := Array.replicate total {}
  pagesPerLine := pagesPerLine
  shared := .ofList (List.range total)
  pagesPerLine_lt := hsize

/-- The shared list always exists, the list of a unit only among the reserved ones. -/
def hasList (p : Pool) : Option UnitId → Bool
  | none => true
  | some u => u < p.reserved.size

/-- The free list of an owner; no owner stands for the shared one. -/
def freeList (p : Pool) : Option UnitId → FreeList
  | none => p.shared
  | some u => p.reserved.getD u .empty

def setFreeList (p : Pool) (owner : Option UnitId) (list : FreeList) : Pool :=
  match owner with
  | none => { p with shared := list }
  | some u => { p with reserved := p.reserved.setIfInBounds u list }

/-- The free lines of an owner, in the order in which they are taken. -/
def freeLines (p : Pool) (owner : Option UnitId) : List LineId := (p.freeList owner).toList

def freeCount (p : Pool) (owner : Option UnitId) : Nat := (p.freeList owner).size

/-- The owner in a line's record. -/
def ownerOf (p : Pool) (id : LineId) : Option UnitId := p.lines[id]?.bind (·.owner)

def updateLine (p : Pool) (id : LineId) (f : Line → Line) : Pool :=
  { p with lines := p.lines.modify id f }

/-- The lines with their numbers, in line order. -/
def numberedLines (p : Pool) : List (LineId × Line) :=
  p.lines.toList.zipIdx.map fun (l, id) => (id, l)

def countState (p : Pool) (s : LineState) : Nat := p.lines.countP (·.state = s)

/-- Erasures of the lines that the unit owns. -/
def wearOf (p : Pool) (u : UnitId) : Nat :=
  sumOf (·.erases) (p.lines.toList.filter (·.isOwnedBy u))

/-- Full lines that the unit owns. -/
def fullCount (p : Pool) (u : UnitId) : Nat :=
  p.lines.countP fun l => l.state = .full && l.isOwnedBy u

end Pool

end DataPlacement
