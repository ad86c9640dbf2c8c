import DataPlacement.Collector
import DataPlacement.Command.Toggle
import DataPlacement.Command.Write
import DataPlacement.Page
import DataPlacement.PlainPath

namespace DataPlacement

/-- What the controller advertises. Every part is set while placement is on. -/
structure Capabilities where
  placementCommands : Bool := false
  directives : Bool := false
  placementMode : Bool := false
  placementEvents : Bool := false
  deriving DecidableEq

namespace Capabilities

def all : Capabilities := ⟨true, true, true, true⟩

/-- The optional command support field: placement is bit 9. -/
def commandBits (c : Capabilities) : Nat := if c.placementCommands then 0x200 else 0

/-- The optional administrative command support field: directives are bit 5. -/
def administrativeBits (c : Capabilities) : Nat := if c.directives then 0x20 else 0

end Capabilities

/-- Counts of commands since the accounting was last reset. `foregroundPasses` counts the
passes that writes started for want of room. -/
structure Accounting where
  writes : Nat := 0
  bytes : Nat := 0
  reads : Nat := 0
  refused : Nat := 0
  foregroundPasses : Nat := 0
  deriving DecidableEq

structure Device where
  geometry : Geometry
  pool : Pool
  configuration : Configuration
  path : PlainPath := {}
  collector : Collector := {}
  capabilities : Capabilities := {}
  accounting : Accounting := {}
  tracing : Bool := false
  clock : Clock

/-- How a command ended: its status and the bytes moved to host memory. -/
structure Completion where
  status : Status
  transferred : Nat := 0
  deriving DecidableEq

namespace Completion

def done (transferred : Nat) : Completion := ⟨.success, transferred⟩

def refused (cause : Error) : Completion := ⟨cause.status, 0⟩

/-- The completion for the result of a transfer. -/
def ofResult : Except Error Nat → Completion
  | .ok n => done n
  | .error cause => refused cause

def isOk (c : Completion) : Bool := c.status.isSuccess

end Completion

namespace Device

/-- A device with every line erased and placement off. -/
def build (g : Geometry) (params : Parameters) (clock : Clock) : Except Error Device := do
  let configuration ← Configuration.build g params
  return {
    geometry := g
    pool := .erased g.lines g.pagesPerLine g.pagesPerLine_lt
    configuration := configuration
    clock := clock }

/-- The device after one more reading of its clock. -/
def tick (d : Device) : Device := { d with clock := d.clock.next }

def setUnits (d : Device) (s : Configuration × Pool) : Device :=
  { d with configuration := s.1, pool := s.2 }

def setPath (d : Device) (s : PlainPath × Pool) : Device :=
  { d with path := s.1, pool := s.2 }

def setCollector (d : Device) (s : Collector × Pool) : Device :=
  { d with collector := s.1, pool := s.2 }

/-- An operation of the units on the pool, as one of the device. The device is taken apart, so
that nothing else holds the pool while the operation changes it. -/
@[inline] def onUnits {α : Type}
    (operate : Configuration → Pool → Outcome (Configuration × Pool) α) :
    Device → Outcome Device α
  | ⟨geometry, pool, configuration, path, collector, capabilities, accounting, tracing, clock⟩ =>
    (operate configuration pool).mapState fun s =>
      ⟨geometry, s.2, s.1, path, collector, capabilities, accounting, tracing, clock⟩

theorem onUnits_eq_mapState {α : Type} (d : Device)
    (operate : Configuration → Pool → Outcome (Configuration × Pool) α) :
    d.onUnits operate = (operate d.configuration d.pool).mapState d.setUnits := rfl

/-- An operation of the plain path on the pool, as one of the device. -/
@[inline] def onPath {α : Type} (operate : PlainPath → Pool → Outcome (PlainPath × Pool) α) :
    Device → Outcome Device α
  | ⟨geometry, pool, configuration, path, collector, capabilities, accounting, tracing, clock⟩ =>
    (operate path pool).mapState fun s =>
      ⟨geometry, s.2, configuration, s.1, collector, capabilities, accounting, tracing, clock⟩

theorem onPath_eq_mapState {α : Type} (d : Device)
    (operate : PlainPath → Pool → Outcome (PlainPath × Pool) α) :
    d.onPath operate = (operate d.path d.pool).mapState d.setPath := rfl

/-- An operation of the collector on the pool, as one of the device. -/
@[inline] def onCollector {α : Type}
    (operate : Collector → Pool → Outcome (Collector × Pool) α) :
    Device → Outcome Device α
  | ⟨geometry, pool, configuration, path, collector, capabilities, accounting, tracing, clock⟩ =>
    (operate collector pool).mapState fun s =>
      ⟨geometry, s.2, configuration, path, s.1, capabilities, accounting, tracing, clock⟩

theorem onCollector_eq_mapState {α : Type} (d : Device)
    (operate : Collector → Pool → Outcome (Collector × Pool) α) :
    d.onCollector operate = (operate d.collector d.pool).mapState d.setCollector := rfl

/-- A device with another collector, which brings its own policy and tally. -/
def install (d : Device) (collector : Collector) : Device := { d with collector := collector }

def enabled (d : Device) : Bool := d.configuration.enabled

end Device

end DataPlacement
