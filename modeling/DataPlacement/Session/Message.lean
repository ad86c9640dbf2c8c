import DataPlacement.Audit.Report
import DataPlacement.Device.Table
import DataPlacement.Scenario.Basic

namespace DataPlacement.Session

open Text

/-- How much a console shows. -/
inductive Verbosity where
  | quiet
  | normal
  | verbose
  deriving DecidableEq

/-- A console of this verbosity shows messages that ask for at least `needed`. -/
def Verbosity.shows : Verbosity → (needed : Verbosity) → Bool
  | verbose, _ => true
  | normal, needed => needed ≠ verbose
  | quiet, needed => needed = quiet

/-- The verbosity from which on a notice of some importance is shown. -/
def Verbosity.ofImportance : Importance → Verbosity
  | .warning => quiet
  | .info => normal
  | .detail => verbose
  | .trace => verbose

/-- What was run so far. A step counts once it is complete, a command when it is sent. -/
structure Tally where
  steps : Nat := 0
  commands : Nat := 0
  refused : Nat := 0
  reclaimed : Nat := 0
  deriving DecidableEq

inductive Message where
  /-- A device reported something. -/
  | notice (n : Notice)
  /-- The scenario with its geometry, before it is run. -/
  | overview (s : Scenario) (g : Geometry)
  | planned (index : Nat) (step : Scenario.Step)
  | stepStarted (index : Nat) (step : Scenario.Step)
  | enabled (distribution : Distribution)
  | disabled (free : Nat)
  | collected (lines toUnits : Nat)
  | reclaimed (unit : UnitId) (lines : Nat)
  /-- Some writes of a step were refused, the last one with this status. -/
  | writesRefused (refused count : Nat) (last : Status)
  | checked (report : Audit.Report)
  | checkPassed (warnings : Nat)
  | table (d : Device)
  | finished (tally : Tally) (milliseconds : Nat)
  /-- A page was written to a file. -/
  | stored (page : String) (bytes : Nat) (path : String)

namespace Message

/-- The verbosity from which on the message is shown. -/
def needed : Message → Verbosity
  | notice n => .ofImportance n.importance
  | overview .. | writesRefused .. | stored .. => .quiet
  | enabled .. | disabled .. | collected .. | reclaimed .. | checkPassed .. | table .. => .normal
  | finished .. => .normal
  | planned .. | stepStarted .. | checked .. => .verbose

/-- Warnings go to the diagnostics and not to the output. -/
def isWarning : Message → Bool
  | notice n => n.importance = .warning
  | writesRefused .. => true
  | _ => false

/-- Warnings stand out, and the details that a device reports stay in the background. -/
def colour? (m : Message) : Option Colour :=
  if m.isWarning then some .yellow
  else
    match m with
    | notice n => if n.importance = .info then none else some .dimmed
    | _ => none

/-- The first line about a scenario. -/
def overviewText (s : Scenario) (g : Geometry) : String :=
  let switch := if s.placement.enabled then "on" else "off"
  "Scenario '" ++ s.name.getD "unnamed" ++ s!"': {g.lines} line(s) of " ++ byteCount g.lineBytes ++
    s!" ({g.pagesPerLine} pages of " ++ byteCount g.pageSize ++
    s!"), {s.placement.groups} RG x {s.placement.handles} RUH, FDP " ++ switch

/-- The message without its tag. The table has several lines and no tag. -/
def text : Message → String
  | notice n => n.text
  | overview s g => overviewText s g
  | planned index step => "  " ++ column 3 index ++ ": " ++ step.text
  | stepStarted index step => s!"step {index}: " ++ step.text
  | enabled d =>
    s!"FDP enabled, {d.total} line(s) distributed: " ++ bracketed (d.perUnit.map toString)
  | disabled free => s!"FDP disabled, {free} line(s) back in the global pool"
  | collected lines toUnits => s!"gc reclaimed {lines} line(s), {toUnits} back to their RU"
  | reclaimed unit lines => UnitId.text unit ++ s!" reclaimed {lines} line(s)"
  | writesRefused refused count last =>
    s!"{refused} of {count} write(s) rejected, last status " ++ last.text
  | checked report => report.text
  | checkPassed warnings => s!"consistency check passed ({warnings} warning(s))"
  | table d => d.table false
  | finished t milliseconds =>
    s!"{t.steps} step(s), {t.commands} command(s), {t.refused} rejected, " ++
      s!"{t.reclaimed} line(s) reclaimed in {milliseconds} ms"
  | stored page bytes path => page ++ ": " ++ byteCount bytes ++ " written to " ++ path

end Message

/-- Where a text is shown. -/
inductive Stream where
  | output
  | diagnostics
  deriving DecidableEq

/-- A text as it is shown, with its line ends. -/
structure Printed where
  stream : Stream
  text : String
  deriving DecidableEq

/-- A place where messages are shown. -/
structure Console where
  verbosity : Verbosity := .normal
  colours : Bool := false
  deriving DecidableEq

namespace Console

/-- The tag in front of every message. -/
def tag : String := "[fdpctl] "

/-- How a message looks once it is shown. Only its text takes a colour. -/
def render (c : Console) (m : Message) : Printed :=
  match m with
  | .table d => ⟨.output, d.table c.colours⟩
  | m =>
    let text := match m.colour? with
      | none => m.text
      | some colour => paint c.colours colour m.text
    ⟨if m.isWarning then .diagnostics else .output, tag ++ text ++ "\n"⟩

/-- Shows the messages that the verbosity lets through. -/
def show? (c : Console) (m : Message) : Option Printed :=
  if c.verbosity.shows m.needed then some (c.render m) else none

end Console

end DataPlacement.Session
