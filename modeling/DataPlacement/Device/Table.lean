import DataPlacement.Device.Basic
import DataPlacement.Text.Basic
import DataPlacement.Text.ByteCount

namespace DataPlacement

open Text

/-- The colour of a unit's state. -/
def UnitState.colour : UnitState → Colour
  | .unused => .dimmed
  | .active => .green
  | .full => .red

namespace Device

/-- Inner widths of the columns of the table. -/
def tableColumns : List Nat := [6, 4, 5, 8, 10, 6, 6, 12, 8, 12]

/-- A rule of the table, with its left end, crossings and right end. -/
def tableRule (left crossing right : String) : String :=
  let dashes := tableColumns.map fun width => "".pushn '─' width
  "  " ++ left ++ crossing.intercalate dashes ++ right ++ "\n"

/-- A row of the table from cells that fill their columns. -/
def tableRow (cells : List String) : String :=
  "  | " ++ " | ".intercalate cells ++ " |\n"

def tableHead : String :=
  tableRow ["RU  ", "RG", "RUH", "State ", "Line    ", "Page", "Free", "Written   ", "Cmds  ",
    "Remaining "]

/-- The row of a unit. -/
def unitRow (d : Device) (colours : Bool) (u : ReclaimUnit) : String :=
  let line := match u.pointer.line with
    | none => "-"
    | some id => toString id
  tableRow [
    padRight 4 (toString u.id), padRight 2 (toString u.group), padRight 3 (toString u.handle),
    paint colours u.state.colour (padRight 6 u.state.text),
    padLeft 8 line, column 4 u.pointer.page, column 4 (d.pool.freeCount (some u.id)),
    padLeft 10 (byteCount u.hostBytes), column 6 u.writes,
    padLeft 10 (byteCount u.remainingBytes)]

/-- Placement on or off, the lines by their state, and the unit switches. -/
def linesSummary (d : Device) (colours : Bool) : String :=
  let switch := if d.enabled then paint colours .green "on" else paint colours .yellow "off"
  let free := d.pool.shared.size
  let active := d.pool.countState .active
  let full := d.pool.countState .full
  let switches := d.configuration.totals.unitSwitches
  "  FDP " ++ switch ++ s!"  lines: {free} global free, {active} open, {full} full" ++
    s!"  switches: {switches}\n"

/-- The writes of both paths, the refused commands, and the collection. -/
def workSummary (d : Device) : String :=
  let totals := d.configuration.totals
  let tally := d.collector.tally
  "  host: " ++ byteCount totals.hostBytes ++ s!" in {totals.writes} cmd(s)" ++
    "  default path: " ++ byteCount d.path.hostBytes ++
    s!"  rejected: {d.accounting.refused}" ++
    s!"  gc: {tally.passes} pass(es), {tally.lines} line(s)\n"

/-- The whole table, after an empty line. -/
def table (d : Device) (colours : Bool) : String :=
  let rows := d.configuration.units.toList.map (d.unitRow colours)
  "\n" ++ tableRule "┌" "┬" "┐" ++ tableHead ++ tableRule "├" "┼" "┤" ++ String.join rows
    ++ tableRule "└" "┴" "┘" ++ d.linesSummary colours ++ d.workSummary

end Device

end DataPlacement
