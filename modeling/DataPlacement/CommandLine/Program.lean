import DataPlacement.CommandLine.Dialogue
import DataPlacement.CommandLine.Help
import DataPlacement.Scenario.Reader
import DataPlacement.Session.Basic
import DataPlacement.Text.Hexadecimal

namespace DataPlacement.CommandLine

open Session (Console Message Printed)

/-- The lines of a cause, each one indented. In a list of causes the first line has a number. -/
def indented (number : Option Nat) (cause : String) : String :=
  let head := match number with
    | none => "    "
    | some n => Text.column 5 n ++ ": "
  let margin := match number with
    | none => "\n    "
    | some _ => "\n       "
  "\n" ++ head ++ margin.intercalate (cause.splitOn "\n")

/-- The report of a failure from its texts, the outermost first. -/
def failureReport : (texts : List String) → String
  | [] => "Error: \n"
  | [text] => "Error: " ++ text ++ "\n"
  | [text, cause] => "Error: " ++ text ++ "\n\nCaused by:" ++ indented none cause ++ "\n"
  | text :: causes =>
    let listed := causes.zipIdx.map fun (cause, n) => indented (some n) cause
    "Error: " ++ text ++ "\n\nCaused by:" ++ String.join listed ++ "\n"

/-- Ends a dialogue with the report of a failure. -/
def fail (texts : List String) : Dialogue :=
  .print [⟨.diagnostics, failureReport texts⟩] (.done 1)

/-- Shows messages and goes on. -/
def tell (c : Console) (messages : List Message) (next : Dialogue) : Dialogue :=
  .print (messages.filterMap c.show?) next

/-- Reads a scenario and goes on with it. -/
def withScenario (path : String) (next : Scenario → Dialogue) : Dialogue :=
  .readText path fun
    | .error fault => fail [fault.text]
    | .ok text =>
      match Scenario.ofFile? path text with
      | none => fail ["TOML parse error in " ++ path]
      | some scenario => next scenario

/-- Runs a whole scenario on a device with a clock, and goes on with the session. -/
def withSession (c : Console) (clock : Clock) (scenario : Scenario) (next : Session → Dialogue) :
    Dialogue :=
  let opening := Session.start scenario clock
  match opening.result with
  | .error cause => tell c opening.messages (fail cause.chain)
  | .ok s =>
    let p := s.run scenario.steps
    tell c (opening.messages ++ p.messages) <|
      match p.result with
      | .error cause => fail cause.chain
      | .ok _ => next p.session

/-- The overview of a scenario, on any console that is not quiet. -/
def announce (c : Console) (scenario : Scenario) (next : Dialogue) : Dialogue :=
  if c.verbosity = .quiet then next
  else
    match Session.overview scenario with
    | .error cause => fail cause.chain
    | .ok messages => tell c messages next

/-- The command `run`: the scenario is checked before anything runs, and the table is shown on
any console. -/
def runCommand (c : Console) (clock : Clock) (path : String) : Dialogue :=
  withScenario path fun scenario =>
    let (valid, checked) := scenario.validate
    tell c (checked.map .notice) <|
      match valid with
      | .error cause => fail cause.chain
      | .ok _ =>
        announce c scenario <| .time fun started =>
          withSession c clock scenario fun s => .time fun ended =>
            .print [c.render (.table s.device)] <|
              tell c [.finished s.tally (ended - started)] (.done 0)

/-- Prints the rows of a page. -/
def printPage (d : Device) (page : HostPage) (length : Nat) : Dialogue :=
  match page.fetchBytes d length with
  | .error cause => fail cause.chain
  | .ok bytes => .print ((Text.hexRows bytes).map fun row => ⟨.output, row ++ "\n"⟩) (.done 0)

/-- Writes a page to a file, which is emptied first. -/
def storePage (c : Console) (d : Device) (page : HostPage) (length : Nat) (path : String) :
    Dialogue :=
  .create path fun
    | .error fault => fail [fault.text]
    | .ok _ =>
      match page.fetchFile d length with
      | .error cause => fail cause.chain
      | .ok bytes =>
        .store path bytes fun
          | .error (.refused fault) => fail (page.refusedBy fault).chain
          | .error (.uncut fault) => fail [(Host.Fault.file fault).text]
          | .ok _ => tell c [.stored page.name bytes.length path] (.done 0)

/-- The command `dump`. Its console shows warnings only. -/
def dumpCommand (c : Console) (clock : Clock) (path : String) (page : HostPage)
    (file : Option String) (length : Option Nat) : Dialogue :=
  withScenario path fun scenario =>
    withSession c clock scenario fun s =>
      let length := length.getD (page.size s.device)
      match file with
      | none => printPage s.device page length
      | some target => storePage c s.device page length target

/-- Ends a dialogue for arguments that make no command. -/
def refuse (text : String) : Dialogue :=
  .print [⟨.diagnostics, text⟩] (.done 2)

/-- The dialogue for a request. -/
def Request.dialogue (colours : Bool) (clock : Clock) : Request → Dialogue
  | perform (.run scenario verbosity) => runCommand ⟨verbosity, colours⟩ clock scenario
  | perform (.dump scenario page file length) =>
    dumpCommand ⟨.quiet, colours⟩ clock scenario page file length
  | help topic => .print [⟨.output, topic.text⟩] (.done 0)
  | version => .print [⟨.output, versionText⟩] (.done 0)
  | nothing => refuse programHelp
  | refused cause => refuse ("error: " ++ cause.text ++ "\n\nFor more information, try '--help'.\n")

/-- The program. A command that fails ends with code 1, and arguments that make no command with
code 2. -/
def program (colours : Bool) (clock : Clock) (arguments : List String) : Dialogue :=
  (Request.ofArguments arguments).dialogue colours clock

end DataPlacement.CommandLine
