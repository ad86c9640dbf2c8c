import DataPlacement.Audit.Device
import DataPlacement.Device.Queues
import DataPlacement.Session.Message

namespace DataPlacement

/-- A device that is being driven through steps, and what was run on it. A step that fails ends the
session; refused writes do not fail, they are counted and reported. -/
structure Session where
  device : Device
  tally : Session.Tally := {}

namespace Session

open Scenario (Failure Step)

/-- How a part of a session went, with the session after it and the messages on the way. -/
structure Progress where
  result : Except Failure Unit
  session : Session
  messages : List Message := []

namespace Progress

def done (s : Session) (messages : List Message := []) : Progress := ⟨.ok (), s, messages⟩

def failed (cause : Failure) (s : Session) (messages : List Message := []) : Progress :=
  ⟨.error cause, s, messages⟩

/-- The same progress after earlier messages. -/
def after (earlier : List Message) (p : Progress) : Progress :=
  { p with messages := earlier ++ p.messages }

end Progress

def setDevice (s : Session) (d : Device) : Session := { s with device := d }

/-- The session with lines added to those reclaimed. -/
def addReclaimed (s : Session) (lines : Nat) : Session :=
  { s with tally := { s.tally with reclaimed := s.tally.reclaimed + lines } }

/-- The session with commands added, some of them refused. -/
def addCommands (s : Session) (commands refused : Nat) : Session :=
  { s with tally := { s.tally with
      commands := s.tally.commands + commands
      refused := s.tally.refused + refused } }

/-- The session with one more complete step. -/
def addStep (s : Session) : Session :=
  { s with tally := { s.tally with steps := s.tally.steps + 1 } }

/-- The number of logical blocks of a transfer less one, as a command carries it. -/
def blocksOf (g : Geometry) (bytes : Nat) : Except Failure Nat :=
  let blocks := bytes / g.blockSize
  if blocks = 0 then .error .emptyTransfer
  else if Scenario.maxBlocks < blocks then .error .transferTooLarge
  else .ok (blocks - 1)

/-- The write of a step: placed if the step names a handle, and plain otherwise. -/
def writeCommand (groupBits group : Nat) (handle : Option Nat) (block blocks : Nat) :
    WriteCommand :=
  match handle with
  | some handle => .placed block blocks (Configuration.packIdentifier groupBits group handle)
  | none => .plain block blocks

/-- Equal writes to adjacent blocks. -/
def repeated (first : WriteCommand) (count : Nat) : List WriteCommand :=
  (List.range count).map fun n => { first with block := first.block + n * (first.blocks + 1) }

/-- Writes that are being submitted: the device, how many were refused, the status of the last
refused one, and the notices, newest first. -/
structure Batch where
  device : Device
  refused : Nat := 0
  last : Status := .success
  notices : List Notice := []

/-- Submits one write through its dwords. -/
def Batch.submit : Batch → WriteCommand → Batch
  | ⟨device, refused, last, notices⟩, w =>
    let (completion, device, added) := device.submitWrite w.block w.dwords.1 w.dwords.2
    let notices := added.reverse ++ notices
    if completion.isOk then ⟨device, refused, last, notices⟩
    else ⟨device, refused + 1, completion.status, notices⟩

/-- A write step. -/
def write (s : Session) (group : Nat) (handle : Option Nat) (bytes count block : Nat) : Progress :=
  match blocksOf s.device.geometry bytes with
  | .error cause => .failed cause s
  | .ok blocks =>
    let first := writeCommand s.device.configuration.groupBits group handle block blocks
    let b := (repeated first count).foldl Batch.submit { device := s.device }
    let warning := if b.refused = 0 then [] else [.writesRefused b.refused count b.last]
    .done ((s.setDevice b.device).addCommands count b.refused)
      (b.notices.reverse.map .notice ++ warning)

/-- A read step. -/
def read (s : Session) (bytes : Nat) : Progress :=
  match blocksOf s.device.geometry bytes with
  | .error cause => .failed cause s
  | .ok blocks =>
    let (_, d, notices) := s.device.read blocks
    .done ((s.setDevice d).addCommands 1 0) (notices.map .notice)

/-- Goes on after an operation of the device, unless it was refused. -/
def ofOutcome {α : Type} (s : Session) (o : Outcome Device α) (next : α → Session → Progress) :
    Progress :=
  let told := o.notices.map .notice
  match o.result with
  | .error cause => .failed (.device cause) (s.setDevice o.state) told
  | .ok value => (next value (s.setDevice o.state)).after told

/-- Turns placement on. -/
def enable (s : Session) : Progress :=
  s.ofOutcome s.device.enable fun distribution s =>
    .done s (distribution.toList.map .enabled)

/-- Turns placement off. -/
def disable (s : Session) : Progress :=
  s.ofOutcome s.device.disable fun changed s =>
    .done s (if changed then [.disabled s.device.pool.shared.size] else [])

/-- Collects up to `budget` lines. -/
def gc (s : Session) (budget : Option Nat) : Progress :=
  s.ofOutcome (s.device.gc budget) fun erased s =>
    .done (s.addReclaimed erased.length)
      [.collected erased.length (erased.countP (·.owner.isSome))]

/-- Collects the full lines of a unit. -/
def reclaim (s : Session) (u : UnitId) : Progress :=
  s.ofOutcome (s.device.reclaimUnit u) fun lines s =>
    .done (s.addReclaimed lines) [.reclaimed u lines]

/-- Sends a toggle, which must succeed. -/
def toggle (s : Session) (code : Nat) : Progress :=
  let o := s.device.toggle code
  let told := o.notices.map .notice
  let s := s.setDevice o.state
  match o.result with
  | .error cause => .failed (.toggleRefused code cause.status) s told
  | .ok _ => .done s told

/-- Resets the accounting. -/
def resetAccounting (s : Session) : Progress :=
  let o := s.device.apply .resetAccounting
  .done (s.setDevice o.state) (o.notices.map .notice)

/-- Checks the consistency of the device. -/
def check (s : Session) : Progress :=
  let report := s.device.checkAll
  if report.hasError then .failed (.checkFailed report) s [.checked report]
  else .done s [.checked report, .checkPassed (report.count .warning)]

/-- Performs one step. -/
def perform (s : Session) : Step → Progress
  | .write group handle bytes count block => s.write group handle bytes count block
  | .read _ bytes => s.read bytes
  | .enable => s.enable
  | .disable => s.disable
  | .gc budget => s.gc budget
  | .reclaim u => s.reclaim u
  | .toggle code => s.toggle code
  | .resetAccounting => s.resetAccounting
  | .check => s.check
  | .report => .done s [.table s.device]

/-- Performs steps, counted from `index`, up to the first one that fails. -/
def runFrom (index : Nat) (s : Session) : List Step → Progress
  | [] => .done s
  | step :: rest =>
    let p := s.perform step
    let told := .stepStarted index step :: p.messages
    match p.result with
    | .error cause => .failed (.inStep index step.name cause) p.session told
    | .ok _ => (runFrom (index + 1) p.session.addStep rest).after told

/-- Performs steps up to the first one that fails. -/
def run (s : Session) (steps : List Step) : Progress := s.runFrom 0 steps

/-- A session that has begun, if it could, and the messages on the way. -/
structure Opening where
  result : Except Failure Session
  messages : List Message := []

/-- The device for a scenario, tracing and with placement on where the scenario asks for it. -/
def prepare (scenario : Scenario) (d : Device) : Opening :=
  let traced : Outcome Device Unit :=
    if scenario.placement.trace then d.apply .startTrace else .done () d
  let s : Session := { device := traced.state }
  let told := traced.notices.map .notice
  if scenario.placement.enabled then
    let p := s.enable
    ⟨p.result.map fun _ => p.session, told ++ p.messages⟩
  else
    ⟨.ok s, told⟩

/-- Begins a session for a scenario that can be run. -/
def start (scenario : Scenario) (clock : Clock) : Opening :=
  let (valid, checked) := scenario.validate
  let told := checked.map .notice
  match valid, scenario.geometry with
  | .error cause, _ => ⟨.error cause, told⟩
  | .ok _, .error cause => ⟨.error cause, told⟩
  | .ok _, .ok g =>
    match Device.build g scenario.parameters clock with
    | .error cause => ⟨.error (.device cause), told⟩
    | .ok d =>
      let opening := prepare scenario d
      ⟨opening.result, told ++ .notice d.configuration.builtNotice :: opening.messages⟩

/-- What is told about a scenario before it is run. -/
def overview (scenario : Scenario) : Except Failure (List Message) := do
  let g ← scenario.geometry
  return .overview scenario g ::
    scenario.steps.zipIdx.map fun (step, index) => .planned index step

end Session

end DataPlacement
