import DataPlacement.Text.Hexadecimal

namespace DataPlacement

/-- A 16-bit completion status; bit 14 is "do not retry". -/
structure Status where
  raw : Nat
  deriving DecidableEq

namespace Status

def success : Status := ⟨0x0000⟩
def invalidOpcode : Status := ⟨0x0001⟩
def invalidField : Status := ⟨0x0002⟩
def dataTransferError : Status := ⟨0x0004⟩
def internalError : Status := ⟨0x0006⟩
def placementDisabled : Status := ⟨0x0029⟩
def invalidPlacementHandle : Status := ⟨0x002a⟩
def capacityExceeded : Status := ⟨0x0081⟩
def invalidLogId : Status := ⟨0x0109⟩

/-- The "do not retry" bit. -/
def doNotRetryBit : Nat := 0x4000

def withDoNotRetry (s : Status) : Status := ⟨s.raw ||| doNotRetryBit⟩

def doNotRetry (s : Status) : Bool := s.raw &&& doNotRetryBit != 0

/-- The status without the "do not retry" bit. -/
def code (s : Status) : Nat :=
  if s.doNotRetry then s.raw - doNotRetryBit else s.raw

def isSuccess (s : Status) : Bool := s.raw == 0

/-- Four hexadecimal digits behind `0x`. -/
def text (s : Status) : String := "0x" ++ Text.hexadecimal 4 s.raw

end Status

end DataPlacement
