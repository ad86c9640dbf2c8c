import DataPlacement.Configuration.Distribution

namespace DataPlacement

/-- Where a write landed. Lines are in write order; `retired` are those that became full. No
unit stands for the plain path. -/
structure WriteReport where
  unit : Option UnitId
  block : Nat
  pages : Nat
  lines : List LineId
  retired : List LineId
  deriving DecidableEq

/-- A page count as the write loop keeps it, in 32 bits. -/
def pageCounter (pages : Nat) : Nat := lowBits 32 pages

namespace Configuration

/-- Pages that the unit can take without an erasure. -/
def availablePages (c : Configuration) (p : Pool) (u : UnitId) : Nat :=
  match c.unit? u with
  | none => 0
  | some unit => p.streamPages (some u) unit.pointer

/-- Pages that erasing the unit's full lines would give back to it. -/
def reclaimablePages (p : Pool) (u : UnitId) : Nat :=
  p.fullCount u * p.pagesPerLine

/-- The counters after one more accepted write to the unit. -/
def countWrite (c : Configuration) (u : UnitId) (bytes : Nat) : Configuration :=
  let switched := match c.lastUnit with
    | none => false
    | some last => last ≠ u
  { c with
    units := c.units.modify u (·.countWrite bytes)
    totals := {
      hostBytes := advance 64 c.totals.hostBytes bytes
      mediaBytes := advance 64 c.totals.mediaBytes bytes
      writes := advance 64 c.totals.writes 1
      unitSwitches := advance 64 c.totals.unitSwitches (if switched then 1 else 0) }
    lastUnit := some u }

/-- Writes into a unit that has room for all pages. -/
def writeUnit (c : Configuration) (p : Pool) (u : UnitId) (pointer : WritePointer)
    (block bytes now : Nat) : Outcome (Configuration × Pool) WriteReport :=
  let pages := pageCounter (bytes / c.pageSize)
  let f := p.fill (some u) .atOnce pointer pages
  let c := c.updateUnit u (·.afterFill f now)
  let notices := if f.ranDry then [.filled u] else []
  if f.starved then
    .refused (.unitExhausted u) (c, f.pool) notices
  else
    .done ⟨some u, block, pages, f.lines, f.retired⟩ (c.countWrite u bytes, f.pool) notices

/-- Writes to the unit that the placement leads to, or refuses before anything changes. A unit
without a current line is opened and stamped with `now`. -/
def write (c : Configuration) (p : Pool) (placement : Placement) (block bytes now : Nat) :
    Outcome (Configuration × Pool) WriteReport :=
  if !c.enabled then
    .refused .disabled (c, p)
  else if bytes = 0 ∨ bytes % c.pageSize ≠ 0 then
    .refused (.invalidLength bytes) (c, p)
  else
    match c.resolve placement with
    | .error cause => .refused cause (c, p)
    | .ok u =>
      let pages := bytes / c.pageSize
      if c.availablePages p u < pages then
        .refused (.unitExhausted u) (c, p) [.exhausted u pages]
      else
        match c.unit? u with
        | none => .refused (.unitExhausted u) (c, p)
        | some unit => c.writeUnit p u unit.pointer block bytes now

/-- A write with pages of any size. Pages of 0 bytes stop the program where it divides by them,
which only comes after the tests for placement and for an empty write; none stands for that. -/
def write? (c : Configuration) (p : Pool) (placement : Placement) (block bytes now : Nat) :
    Option (Outcome (Configuration × Pool) WriteReport) :=
  if c.enabled ∧ bytes ≠ 0 ∧ c.pageSize = 0 then none
  else some (c.write p placement block bytes now)

/-- Opens a full unit again on a line that the collector gave back to it. Answers whether it
did. -/
def rearm (c : Configuration) (p : Pool) (u : UnitId) (now : Nat) :
    Outcome (Configuration × Pool) Bool :=
  match c.unit? u with
  | none => .done false (c, p)
  | some unit =>
    if unit.state ≠ .full then .done false (c, p)
    else
      match p.take (some u) with
      | (none, p) => .done false (c, p)
      | (some line, p) =>
        .done true (c.updateUnit u (·.openOn line now), p) [.reopened u line]

end Configuration

end DataPlacement
