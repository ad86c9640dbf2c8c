import DataPlacement.Pool.Fill

namespace DataPlacement

/-! ### Clocks -/

/-- A clock is the sequence of its readings and the number of readings already taken. -/
structure Clock where
  reading : Nat → Nat
  taken : Nat := 0

namespace Clock

/-- The value that the next reading returns. -/
def now (c : Clock) : Nat := c.reading c.taken

/-- The clock after one reading. -/
def next (c : Clock) : Clock := { c with taken := c.taken + 1 }

/-- A clock that starts at `start` and moves by `step` with each reading, in 64 bits. -/
def steady (start step : Nat) : Clock where
  reading i := lowBits 64 (start + i * step)

end Clock

/-! ### Units -/

/-- `unused` while placement is off; `active` with a line to write into; `full` when the last
line was filled and no free line was left. -/
inductive UnitState where
  | unused
  | active
  | full
  deriving DecidableEq

def UnitState.text : UnitState → String
  | .unused => "unused"
  | .active => "open"
  | .full => "full"

/-- A unit of one reclaim group, reached through one handle. It holds its current line, and its free
lines are in the pool. Bytes and writes are counted in 64 bits, lines that became full in 32. -/
structure ReclaimUnit where
  id : UnitId
  group : Nat
  handle : Nat
  capacity : Nat
  state : UnitState := .unused
  pointer : WritePointer := .closed
  hostBytes : Nat := 0
  mediaBytes : Nat := 0
  writes : Nat := 0
  linesConsumed : Nat := 0
  openedAt : Option Nat := none
  deriving DecidableEq

namespace ReclaimUnit

/-- Bytes that the host may still write before it reaches the capacity. -/
def remainingBytes (u : ReclaimUnit) : Nat := u.capacity - u.hostBytes

/-- The unit at the start of a new line. -/
def openOn (u : ReclaimUnit) (line : LineId) (now : Nat) : ReclaimUnit :=
  { u with pointer := .start line, state := .active, openedAt := some now }

/-- The unit as it was before placement was turned on. -/
def reset (u : ReclaimUnit) : ReclaimUnit :=
  { id := u.id, group := u.group, handle := u.handle, capacity := u.capacity }

/-- The unit after a fill: opened if it had no line and received one, full if it gave up its
last line. -/
def afterFill (u : ReclaimUnit) (f : Fill) (now : Nat) : ReclaimUnit :=
  let opened := u.pointer.line.isNone && !f.lines.isEmpty
  { u with
    pointer := f.pointer
    state := if f.ranDry then .full else if opened then .active else u.state
    openedAt := if opened then some now else u.openedAt
    linesConsumed := advance 32 u.linesConsumed f.retired.length }

/-- The unit after one more accepted write command. -/
def countWrite (u : ReclaimUnit) (bytes : Nat) : ReclaimUnit :=
  { u with
    hostBytes := advance 64 u.hostBytes bytes
    mediaBytes := advance 64 u.mediaBytes bytes
    writes := advance 64 u.writes 1 }

end ReclaimUnit

end DataPlacement
