import DataPlacement.Device.Basic

namespace DataPlacement

/-- A named group of fields. -/
def describeFields (name : String) (fields : List (String × String)) : String :=
  name ++ " \x7b " ++ ", ".intercalate (fields.map fun (field, value) => field ++ ": " ++ value)
    ++ " \x7d"

/-- A field of named bits of which at most one can be set. -/
def describeBit (name bit : String) (set : Bool) : String :=
  name ++ "(" ++ (if set then bit else "0x0") ++ ")"

def Geometry.describe (g : Geometry) : String :=
  describeFields "Geometry" [
    ("page_size", toString g.pageSize), ("pages_per_line", toString g.pagesPerLine),
    ("lines", toString g.lines), ("lba_size", toString g.blockSize)]

def Accounting.describe (a : Accounting) : String :=
  describeFields "Accounting" [
    ("writes", toString a.writes), ("bytes_written", toString a.bytes),
    ("reads", toString a.reads), ("rejected", toString a.refused),
    ("foreground_gc", toString a.foregroundPasses)]

def CollectorTally.describe (t : CollectorTally) : String :=
  describeFields "GcStats" [
    ("passes", toString t.passes), ("lines_reclaimed", toString t.lines),
    ("lines_to_ru", toString t.toUnits)]

def Collector.describe (c : Collector) : String :=
  describeFields "Collector" [
    ("policy", "\"" ++ c.policy.name ++ "\""), ("stats", c.tally.describe)]

/-- The parts of a device that are worth a line; two dots stand for the others. -/
def Device.describe (d : Device) : String :=
  let fields := [
    ("geometry", d.geometry.describe), ("enabled", toString d.enabled),
    ("oncs", describeBit "Oncs" "FDP" d.capabilities.placementCommands),
    ("oacs", describeBit "Oacs" "DIRECTIVES" d.capabilities.directives),
    ("acct", d.accounting.describe)]
  "FdpDevice \x7b " ++ ", ".intercalate (fields.map fun (field, value) => field ++ ": " ++ value)
    ++ ", .. \x7d"

end DataPlacement
