import DataPlacement.Arithmetic
import DataPlacement.Geometry
import DataPlacement.ReclaimUnit

namespace DataPlacement

/-- Entries of the table from placement handles to reclaim unit handles. -/
def maxHandles : Nat := 128

/-- What a configuration is built from. Bit 0 of the attributes tells that handles start out
isolated. -/
structure Parameters where
  groups : Nat := 1
  handles : Nat := 4
  attributes : Nat := 1
  deriving DecidableEq

/-- Where a write asks to go: a reclaim group and a placement handle. -/
structure Placement where
  group : Nat := 0
  handle : Nat := 0
  deriving DecidableEq

/-- Sums over all units. They survive turning placement off and on. -/
structure Totals where
  hostBytes : Nat := 0
  mediaBytes : Nat := 0
  writes : Nat := 0
  unitSwitches : Nat := 0
  deriving DecidableEq

/-- Every group has the same number of units, one per unit handle, and the units of all groups
are numbered group by group. -/
structure Configuration where
  enabled : Bool := false
  attributes : Nat
  groups : Nat
  handles : Nat
  /-- Bits of a placement identifier that select the group. -/
  groupBits : Nat
  pageSize : Nat
  /-- Logical blocks behind each group. -/
  groupBlocks : Nat
  units : Array ReclaimUnit
  /-- Unit handle of each placement handle. -/
  handleMap : Array (Option Nat)
  totals : Totals := {}
  lastUnit : Option UnitId := none
  deriving DecidableEq

namespace Configuration

/-- Bits that tell `groups` groups apart. -/
def bitsFor (groups : Nat) : Nat :=
  if groups ≤ 1 then 0 else (groups - 1).log2 + 1

/-- The `i`-th unit of groups with `handles` units each. -/
def unitAt (handles capacity : Nat) (i : UnitId) : ReclaimUnit :=
  { id := i, group := i / handles, handle := i % handles, capacity := capacity }

/-- Placement handles below `handles` stand for the unit handle of the same number, the others
for unit handle 0. -/
def standardMap (handles : Nat) : Array (Option Nat) :=
  (Array.range maxHandles).map fun handle => some (if handle < handles then handle else 0)

/-- A configuration with placement off. -/
def build (g : Geometry) (params : Parameters) : Except Error Configuration := do
  g.validate
  if params.groups = 0 then
    throw (.invalidParameters "at least one reclaim group is required")
  if params.handles = 0 then
    throw (.invalidParameters "at least one RU handle is required")
  if maxHandles < params.handles then
    throw (.tooManyHandles params.handles)
  let count := params.groups * params.handles
  if bitRange 16 ≤ count then
    throw (.invalidParameters "too many reclaim units")
  return {
    attributes := params.attributes
    groups := params.groups
    handles := params.handles
    groupBits := bitsFor params.groups
    pageSize := g.pageSize
    groupBlocks := g.totalBlocks / params.groups
    units := (Array.range count).map (unitAt params.handles (g.capacityBytes / count))
    handleMap := standardMap params.handles }

/-- The notice that goes with building a configuration. -/
def builtNotice (c : Configuration) : Notice :=
  .configured c.groups c.handles ((c.units[0]?.map (·.capacity)).getD 0)

def unit? (c : Configuration) (u : UnitId) : Option ReclaimUnit := c.units[u]?

def updateUnit (c : Configuration) (u : UnitId) (f : ReclaimUnit → ReclaimUnit) :
    Configuration :=
  { c with units := c.units.modify u f }

/-- The unit handle behind a placement handle. -/
def unitHandle? (c : Configuration) (handle : Nat) : Option Nat := (c.handleMap[handle]?).join

/-- The units of a group, by unit handle. -/
def groupUnits (c : Configuration) (group : Nat) : List UnitId :=
  (List.range c.handles).map fun h => group * c.handles + h

/-- The unit that a placement leads to. -/
def resolve (c : Configuration) (placement : Placement) : Except Error UnitId :=
  if c.groups ≤ placement.group then
    .error (.invalidGroup placement.group)
  else
    match (c.unitHandle? placement.handle).bind ((c.groupUnits placement.group)[·]?) with
    | none => .error (.invalidHandle placement.handle)
    | some u => .ok u

/-- A placement identifier packed into 16 bits: the group in the top `groupBits` bits, the
handle below. Group bits beyond the width are lost and a wide handle reaches into the group. -/
def packIdentifier (groupBits group handle : Nat) : Nat :=
  if groupBits = 0 then handle
  else lowBits 16 (group <<< (16 - groupBits)) ||| handle

/-- The placement that a 16-bit identifier stands for. -/
def placementOf (c : Configuration) (identifier : Nat) : Placement :=
  if c.groupBits = 0 then { handle := identifier }
  else
    let handleBits := 16 - c.groupBits
    { group := identifier >>> handleBits, handle := lowBits handleBits identifier }

/-- The placement identifier that is reported for a unit. -/
def identifierOf (c : Configuration) (u : ReclaimUnit) : Nat :=
  packIdentifier c.groupBits u.group u.handle

end Configuration

end DataPlacement
