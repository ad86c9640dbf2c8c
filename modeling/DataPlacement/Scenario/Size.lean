import DataPlacement.Text.Basic
import DataPlacement.Text.Fraction
import DataPlacement.Text.LowerCase

namespace DataPlacement.Scenario

/-- Why something is not a byte count. -/
inductive SizeFault where
  | negative (value : Int)
  | badFormat (text : String)
  /-- Neither text nor an integer; `found` names what was there instead. -/
  | wrongKind (found : String)
  deriving DecidableEq

def SizeFault.text : SizeFault → String
  | .negative value => s!"Negative size {value}"
  | .badFormat text => "Invalid size format '" ++ text ++ "'. Use K, M or G suffix."
  | .wrongKind found =>
    "invalid type: " ++ found ++ ", expected a size like '4K', '1M', '2G' or a byte count"

namespace Size

/-- The bytes of a unit. -/
def unit? (c : Char) : Option Nat :=
  if c = 'k' then some 1024
  else if c = 'm' then some (1024 * 1024)
  else if c = 'g' then some (1024 * 1024 * 1024)
  else none

/-- The number and the bytes of the unit behind it, which may be missing. -/
def splitUnit (text : List Char) : List Char × Nat :=
  match text.getLast?.bind unit? with
  | some bytes => (text.dropLast, bytes)
  | none => (text, 1)

/-- Reads a byte count. White space is allowed around the count and before the unit, and the unit
may be in upper case, which also the Kelvin sign is. -/
def parse? (text : List Char) : Option Nat :=
  let (count, bytes) := splitUnit (Text.lower (Text.trim text))
  match Text.number? (Text.trim count) with
  | none => none
  | some n => if n * bytes < bitRange 64 then some (n * bytes) else none

def ofText (text : String) : Except SizeFault Nat :=
  match parse? text.toList with
  | some n => .ok n
  | none => .error (.badFormat text)

def ofInteger (value : Int) : Except SizeFault Nat :=
  if value < 0 then .error (.negative value) else .ok value.toNat

/-- A fraction is no byte count, even if it is whole. -/
def ofFraction (value : Float) : Except SizeFault Nat :=
  .error (.wrongKind ("floating point \x60" ++ Text.fraction value ++ "\x60"))

end Size

end DataPlacement.Scenario
