import DataPlacement.Arithmetic

namespace DataPlacement

/-- Position of a line among all lines of the device. -/
abbrev LineId := Nat

/-- Position of a reclaim unit among the units of all reclaim groups. -/
abbrev UnitId := Nat

/-- `free` lines are erased and listed, the `active` ones are being written, and the `full`
ones wait for the collector. -/
inductive LineState where
  | free
  | active
  | full
  deriving DecidableEq

/-- What is recorded of a line. `retiredAt` counts the lines that became full, so older full
lines have smaller values. -/
structure Line where
  owner : Option UnitId := none
  state : LineState := .free
  erases : Nat := 0
  pages : Nat := 0
  retiredAt : Nat := 0
  deriving DecidableEq

def LineId.text (id : LineId) : String := s!"line {id}"

def UnitId.text (id : UnitId) : String := s!"RU {id}"

/-- How a line's owner appears in reports. -/
def ownerText : Option UnitId → String
  | none => "None"
  | some u => s!"Some(RuId({u}))"

namespace Line

/-- A line taken from a free list to be written from its first page. -/
def activate (l : Line) : Line := { l with state := .active, pages := 0 }

/-- A line with more pages written, never more than it has. The sum is taken in 32 bits first. -/
def program (l : Line) (pages pagesPerLine : Nat) : Line :=
  { l with pages := min (advance 32 l.pages pages) pagesPerLine }

/-- Pages that fit into a line of fewer than 2^32 pages are all recorded. -/
theorem program_of_fits {l : Line} {pages pagesPerLine : Nat}
    (hfits : l.pages + pages ≤ pagesPerLine)
    (hsize : pagesPerLine < bitRange 32) :
    l.program pages pagesPerLine = { l with pages := l.pages + pages } := by
  rw [program, advance_of_lt (Nat.lt_of_le_of_lt hfits hsize), Nat.min_eq_left hfits]

/-- A line that became full as the `n`-th of the device. -/
def retire (l : Line) (n : Nat) : Line := { l with state := .full, retiredAt := n }

/-- The unit owns the line. -/
def isOwnedBy (l : Line) (u : UnitId) : Bool :=
  match l.owner with
  | none => false
  | some owner => owner == u

theorem isOwnedBy_iff (l : Line) (u : UnitId) : l.isOwnedBy u = true ↔ l.owner = some u := by
  unfold isOwnedBy
  cases l.owner <;> simp

/-- An erased line, worn by one more erasure. Erasures are counted in 32 bits. -/
def erase (l : Line) : Line :=
  { l with state := .free, pages := 0, erases := advance 32 l.erases 1 }

end Line

end DataPlacement
