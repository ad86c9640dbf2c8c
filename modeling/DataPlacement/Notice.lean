import DataPlacement.Error

namespace DataPlacement

/-- How important a notice is, the most important first. -/
inductive Importance where
  | warning
  | info
  | detail
  | trace
  deriving DecidableEq

/-- One event of a device. -/
inductive Notice where
  | configured (groups handles capacity : Nat)
  | distributionFailed (free units : Nat)
  | opened (unit : UnitId) (line : LineId)
  | enabled (units lines : Nat)
  | disabled (free : Nat)
  | exhausted (unit : UnitId) (pages : Nat)
  | filled (unit : UnitId)
  | reopened (unit : UnitId) (line : LineId)
  | reclaimed (line : LineId) (owner : Option UnitId)
  | passDone (pass lines : Nat) (policy : String)
  | unknownToggle (code : Nat)
  | accountingReset
  | enableFailed (cause : Error)
  | unsupportedOpcode (opcode : Nat)
  | written (block bytes : Nat) (unit : Option UnitId) (lines : List LineId)
  | writeRefused (block : Nat) (cause : Error)
  | read (blocks : Nat)
  | logServed (log : String) (requested full : Nat)
  deriving DecidableEq

namespace Notice

def importance : Notice → Importance
  | distributionFailed .. | exhausted .. | unknownToggle .. | enableFailed ..
  | unsupportedOpcode .. => .warning
  | configured .. | enabled .. | disabled .. | accountingReset => .info
  | opened .. | filled .. | reopened .. | passDone .. => .detail
  | reclaimed .. | written .. | writeRefused .. | read .. | logServed .. => .trace

/-- Names of lines as they appear in the trace of a write. -/
def lineList (lines : List LineId) : String :=
  "[" ++ ", ".intercalate (lines.map fun id => s!"LineId({id})") ++ "]"

def text : Notice → String
  | configured groups handles capacity =>
    s!"initialized: {groups} RG(s) x {handles} RUH(s), {capacity} bytes per RU"
  | distributionFailed free units =>
    s!"distribution failed: {free} free line(s) for {units} RU(s)"
  | opened unit line => UnitId.text unit ++ " opened on " ++ LineId.text line
  | enabled units lines => s!"enabled: {units} RU(s), {lines} line(s) distributed"
  | disabled free => s!"disabled: {free} free line(s) in global pool"
  | exhausted unit pages => UnitId.text unit ++ s!" exhausted: {pages} page(s) requested"
  | filled unit => UnitId.text unit ++ " full"
  | reopened unit line => UnitId.text unit ++ " reopened on " ++ LineId.text line
  | reclaimed line owner => LineId.text line ++ " reclaimed (owner: " ++ ownerText owner ++ ")"
  | passDone pass lines policy => s!"gc pass {pass}: {lines} line(s) reclaimed ({policy})"
  | unknownToggle code => s!"unknown toggle code {code}"
  | accountingReset => "IO accounting reset"
  | enableFailed cause => "enable failed: " ++ cause.text
  | unsupportedOpcode opcode => "unsupported opcode 0x" ++ Text.hexadecimal 2 opcode
  | written block bytes unit lines =>
    s!"write slba={block} len={bytes} ru=" ++ ownerText unit ++ " lines=" ++ lineList lines
  | writeRefused block cause => s!"write slba={block} rejected: " ++ cause.text
  | read blocks => s!"read nlb={blocks}"
  | logServed log requested full => s!"get log {log}: {requested} of {full} byte(s)"

end Notice

end DataPlacement
