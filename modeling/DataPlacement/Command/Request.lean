import DataPlacement.Arithmetic

namespace DataPlacement

/-- The log pages of the placement feature. -/
inductive LogPage where
  | configurations
  | statistics
  | events
  deriving DecidableEq

namespace LogPage

/-- Log page identifier. -/
def identifier : LogPage → Nat
  | configurations => 0x20
  | statistics => 0x21
  | events => 0x22

/-- Bytes of the header, the least that a request may ask for. -/
def minimum : LogPage → Nat
  | configurations => 16
  | statistics => 8
  | events => 64

def text : LogPage → String
  | configurations => "FDP configurations"
  | statistics => "FDP statistics"
  | events => "FDP events"

/-- The page with a log page identifier. -/
def ofIdentifier? (n : Nat) : Option LogPage :=
  [configurations, statistics, events].find? (·.identifier = n)

end LogPage

/-- The number of dwords less one of a transfer of some bytes, rounded down to dwords and at
least one. -/
def dwordCount (bytes : Nat) : Nat := max (bytes / 4) 1 - 1

/-- A request for a log page; `length` is in bytes. -/
structure LogRequest where
  log : Nat
  length : Nat
  deriving DecidableEq

namespace LogRequest

/-- Reads command dwords 10 and 11: the log in bits 15:0 and the low half of the dword count in
bits 31:16 of the first, the high half in bits 15:0 of the second. -/
def ofDwords (dword10 dword11 : Nat) : LogRequest where
  log := bitField 0 16 dword10
  length := (bitField 0 16 dword11 * bitRange 16 + bitField 16 16 dword10 + 1) * 4

/-- Writes command dwords 10 and 11. A dword count beyond 32 bits loses its upper bits. -/
def dwords (r : LogRequest) : Nat × Nat :=
  let count := dwordCount r.length
  (r.log + bitField 0 16 count * bitRange 16, bitField 16 16 count)

def page? (r : LogRequest) : Option LogPage := LogPage.ofIdentifier? r.log

end LogRequest

/-- The management operation that reports the status of the reclaim unit handles. -/
def unitStatusOperation : Nat := 1

/-- A request to receive management data; `length` is in bytes. -/
structure ManagementRequest where
  operation : Nat
  length : Nat
  deriving DecidableEq

namespace ManagementRequest

/-- Reads command dwords 10 and 11: the operation in bits 7:0 of the first, the dword count in
the second. -/
def ofDwords (dword10 dword11 : Nat) : ManagementRequest where
  operation := bitField 0 8 dword10
  length := (dword11 + 1) * 4

/-- Writes command dwords 10 and 11. A dword count beyond 32 bits becomes the largest one. -/
def dwords (r : ManagementRequest) : Nat × Nat :=
  (r.operation, min (dwordCount r.length) (bitRange 32 - 1))

end ManagementRequest

end DataPlacement
