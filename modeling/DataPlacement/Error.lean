import DataPlacement.Host.Fault
import DataPlacement.Line
import DataPlacement.Status

namespace DataPlacement

/-- One constructor per cause. -/
inductive Error where
  /-- A placement command arrived while placement is off. -/
  | disabled
  | invalidLogId (log : Nat)
  /-- The requested length cannot hold the header of the page. -/
  | bufferTooSmall (need got : Nat)
  | unsupportedOperation (operation : Nat)
  | invalidOpcode (opcode : Nat)
  | invalidHandle (handle : Nat)
  | invalidGroup (group : Nat)
  /-- A write of no bytes or of a part of a page. -/
  | invalidLength (bytes : Nat)
  | tooManyHandles (handles : Nat)
  | invalidParameters (reason : String)
  /-- The reclaim unit has no room for the write. -/
  | unitExhausted (unit : UnitId)
  /-- The shared lines have no room for the write. -/
  | sharedExhausted
  /-- Some reclaim unit would start without a line. -/
  | distributionFailed (unit : UnitId)
  /-- The line is not a full line that waits for its erasure. -/
  | notReclaimable (line : LineId)
  | transfer (fault : Host.Fault)
  | inconsistent (reason : String)
  deriving DecidableEq

namespace Error

/-- The cause without its details. -/
def message : Error → String
  | disabled => "FDP is disabled"
  | invalidLogId _ => "Unsupported log identifier"
  | bufferTooSmall _ _ => "Buffer too small for page header"
  | unsupportedOperation _ => "Unsupported management operation"
  | invalidOpcode _ => "Invalid opcode"
  | invalidHandle _ => "Placement handle out of range"
  | invalidGroup _ => "Reclaim group out of range"
  | invalidLength _ => "Write length must be a positive multiple of the page size"
  | tooManyHandles _ => "More RU handles than placement handles"
  | invalidParameters reason => reason
  | unitExhausted _ => "Reclaim unit out of free lines"
  | sharedExhausted => "Global pool out of free lines"
  | distributionFailed _ => "Reclaim unit received no line"
  | notReclaimable _ => "Line is not awaiting reclaim"
  | transfer fault => fault.message
  | inconsistent reason => reason

/-- The details, in the form in which they follow the cause. -/
def details : Error → String
  | invalidLogId log => " (lid: 0x" ++ Text.hexadecimal 2 log ++ ")"
  | bufferTooSmall need got => s!" (need {need}, got {got})"
  | unsupportedOperation operation => s!" (mo: {operation})"
  | invalidOpcode opcode => " (opcode: 0x" ++ Text.hexadecimal 2 opcode ++ ")"
  | invalidHandle handle => s!" (ph: {handle})"
  | invalidGroup group => s!" (rg: {group})"
  | invalidLength bytes => s!" (len: {bytes})"
  | tooManyHandles handles => s!" (nruh: {handles})"
  | unitExhausted unit => " (" ++ UnitId.text unit ++ ")"
  | distributionFailed unit => " (" ++ UnitId.text unit ++ ")"
  | notReclaimable line => " (" ++ LineId.text line ++ ")"
  | transfer fault => "\n  caused by: " ++ fault.text
  | disabled => ""
  | invalidParameters _ => ""
  | sharedExhausted => ""
  | inconsistent _ => ""

/-- The cause with its details. -/
def text (e : Error) : String := e.message ++ e.details

/-- The status code that the host sees. -/
def statusCode : Error → Status
  | disabled => .placementDisabled
  | invalidLogId _ => .invalidLogId
  | invalidOpcode _ => .invalidOpcode
  | invalidHandle _ => .invalidPlacementHandle
  | invalidGroup _ => .invalidPlacementHandle
  | bufferTooSmall _ _ => .invalidField
  | unsupportedOperation _ => .invalidField
  | invalidLength _ => .invalidField
  | tooManyHandles _ => .invalidField
  | invalidParameters _ => .invalidField
  | distributionFailed _ => .invalidField
  | unitExhausted _ => .capacityExceeded
  | sharedExhausted => .capacityExceeded
  | transfer _ => .dataTransferError
  | notReclaimable _ => .internalError
  | inconsistent _ => .internalError

/-- The completion status: no refused request is worth a retry. -/
def status (e : Error) : Status := e.statusCode.withDoNotRetry

end Error

end DataPlacement
