import DataPlacement.Audit.Report
import DataPlacement.Device.Basic

namespace DataPlacement.Audit

/-- An error finding. -/
def failure (code text : String) : Finding := ⟨.error, code, text⟩

/-- An error finding if a condition that should hold does not. -/
def expect (fine : Bool) (code text : String) : List Finding :=
  if fine then [] else [failure code text]

/-- The shared owner and then every unit that has a list. -/
def listOwners (p : Pool) : List (Option UnitId) :=
  none :: (List.range p.reserved.size).map some

/-- Every line in a free list, list after list. -/
def listedLines (p : Pool) : List LineId :=
  ((listOwners p).map p.freeLines).flatten

/-- Findings on listed lines: out of range, listed before, or not free. What was listed before
is marked by line. -/
def listedFindings (p : Pool) : (seen : Array Bool) → List LineId → List Finding
  | _, [] => []
  | seen, id :: rest =>
    let place :=
      match p.lines[id]? with
      | none => [failure "PART_RANGE" (LineId.text id ++ " out of range")]
      | some l =>
        expect (seen[id]? ≠ some true) "PART_DUP"
            (LineId.text id ++ " appears in more than one free list")
          ++ expect (l.state = .free) "PART_STATE" (LineId.text id ++ " listed free but in use")
    place ++ listedFindings p (seen.setIfInBounds id true) rest

/-- Writers that have a current line. -/
def writerCount (d : Device) : Nat :=
  d.configuration.units.toList.countP (·.pointer.line.isSome)
    + if d.path.pointer.line.isSome then 1 else 0

/-- Every line is free and listed once, or written by one writer, or full. -/
def partition (d : Device) : List Finding :=
  let p := d.pool
  let listed := (listedLines p).length
  let free := p.countState .free
  let active := p.countState .active
  let full := p.countState .full
  let total := p.lines.size
  let writers := writerCount d
  listedFindings p (.replicate p.lines.size false) (listedLines p)
    ++ expect (free = listed) "PART_LOST" s!"{free} free line(s) but {listed} listed"
    ++ expect (listed + active + full = total) "PART_SUM"
        s!"free {listed} + open {active} + full {full} != {total}"
    ++ expect (writers = active) "PART_OPEN"
        s!"{active} open line(s) but {writers} write pointer(s)"

/-- Shared lines have no owner. -/
def sharedFindings (p : Pool) : List Finding :=
  (p.freeLines none).flatMap fun id =>
    match p.ownerOf id with
    | none => []
    | some owner =>
      [failure "OWN_GLOBAL" (LineId.text id ++ " in global list owned by " ++ UnitId.text owner)]

/-- Lines in a unit's list belong to the unit. -/
def reservedFindings (p : Pool) : List Finding :=
  (List.range p.reserved.size).flatMap fun u =>
    (p.freeLines (some u)).flatMap fun id =>
      let owner := p.ownerOf id
      expect (owner = some u) "OWN_FOREIGN"
        (LineId.text id ++ " in " ++ UnitId.text u ++ " list but owned by " ++ ownerText owner)

/-- A unit writes into its own lines. -/
def unitOwnership (p : Pool) (u : ReclaimUnit) : List Finding :=
  match u.pointer.line with
  | none => []
  | some line =>
    let owner := p.ownerOf line
    expect (owner = some u.id) "OWN_WP"
      (UnitId.text u.id ++ " writes into " ++ LineId.text line ++ " owned by " ++ ownerText owner)

/-- Free lists and writers hold lines of their owner, and nothing is owned while placement is
off. -/
def ownership (d : Device) : List Finding :=
  let p := d.pool
  let whileOff :=
    if d.enabled then []
    else
      match p.lines.toList.findIdx? (·.owner.isSome) with
      | none => []
      | some id => [failure "OWN_DISABLED" (LineId.text id ++ " still owned while FDP is off")]
  sharedFindings p ++ reservedFindings p ++ whileOff
    ++ d.configuration.units.toList.flatMap (unitOwnership p)

/-- The unit's current line exists, is being written, and holds the pages before the pointer. -/
def currentLine (p : Pool) (u : UnitId) (line : LineId) (page : Nat) : List Finding :=
  match p.lines[line]? with
  | none => [failure "WP_RANGE" (UnitId.text u ++ " points at missing " ++ LineId.text line)]
  | some l =>
    expect (l.state = .active) "WP_STATE"
        (UnitId.text u ++ " current " ++ LineId.text line ++ " is not open")
      ++ expect (page < p.pagesPerLine && page = l.pages) "WP_OFFSET"
        (UnitId.text u ++ s!" at page {page}, " ++ LineId.text line
          ++ s!" holds {l.pages} page(s)")

/-- The state of a unit agrees with its write pointer. -/
def unitPointer (d : Device) (u : ReclaimUnit) : List Finding :=
  match u.state, u.pointer.line with
  | .active, some line => currentLine d.pool u.id line u.pointer.page
  | .active, none => [failure "WP_MISSING" (UnitId.text u.id ++ " open without a current line")]
  | state, some line =>
    [failure "WP_STALE" (UnitId.text u.id ++ " is " ++ state.text ++ " but still points at "
      ++ LineId.text line)]
  | .full, none =>
    if 0 < d.pool.freeCount (some u.id) then
      [⟨.warning, "WP_FULL_FREE", UnitId.text u.id ++ " full with free lines pending"⟩]
    else []
  | .unused, none =>
    expect (!d.enabled) "WP_UNUSED" (UnitId.text u.id ++ " unused while FDP is on")

def writePointers (d : Device) : List Finding :=
  d.configuration.units.toList.flatMap (unitPointer d)

/-- The counters of a unit agree with each other and with the pages it wrote, in 64 bits. -/
def unitCounters (d : Device) (u : ReclaimUnit) : List Finding :=
  let pages := lowBits 64 (u.linesConsumed * d.pool.pagesPerLine + u.pointer.page)
  expect (u.mediaBytes = u.hostBytes) "CNT_MEDIA"
      (UnitId.text u.id ++ " media bytes differ from host bytes")
    ++ expect (lowBits 64 (pages * d.geometry.pageSize) = u.hostBytes) "CNT_PAGES"
      (UnitId.text u.id
        ++ s!": {u.hostBytes} byte(s) written but {pages} page(s) programmed")

/-- The counters of the units agree with the totals. The number of unit switches is reported
for information. -/
def counters (d : Device) : List Finding :=
  let units := d.configuration.units.toList
  let totals := d.configuration.totals
  let sum := lowBits 64 (sumOf (·.hostBytes) units)
  units.flatMap (unitCounters d)
    ++ expect (sum ≤ totals.hostBytes) "CNT_TOTAL"
        s!"RU bytes {sum} exceed device total {totals.hostBytes}"
    ++ [⟨.info, "CNT_SWITCHES", s!"{totals.unitSwitches} RU switch(es)"⟩]

/-- The findings of a phase on a device. -/
def findings (d : Device) : Phase → List Finding
  | .partition => partition d
  | .ownership => ownership d
  | .writePointers => writePointers d
  | .counters => counters d

end Audit

/-- A check of the selected phases. -/
def Device.check (d : Device) (options : Audit.Options) : Audit.Report :=
  Audit.report (Audit.findings d) options

/-- A check of all phases. -/
def Device.checkAll (d : Device) : Audit.Report := d.check {}

end DataPlacement
