import DataPlacement.Host.Memory

namespace DataPlacement.Host

/-- The `width` low bytes of a number, least significant byte first. -/
def littleEndian : (width : Nat) → Nat → List UInt8
  | 0, _ => []
  | width + 1, n => UInt8.ofNat (n % 256) :: littleEndian width (n / 256)

/-- The number that bytes stand for, least significant byte first. -/
def ofLittleEndian : List UInt8 → Nat
  | [] => 0
  | b :: rest => b.toNat + 256 * ofLittleEndian rest

namespace Memory

variable {μ : Type} [Memory μ]

/-- Writes a number of `width` bytes. -/
def writeNumber (m : μ) (width offset n : Nat) : Except Fault Unit × μ :=
  writeAt m offset (littleEndian width n)

/-- Reads a number of `width` bytes. -/
def readNumber (m : μ) (width offset : Nat) : Except Fault Nat × μ :=
  let (result, m) := readAt m offset width
  (result.map ofLittleEndian, m)

/-- Copies the first bytes of a payload, as many as are requested and exist, to the start of the
memory. Answers how many bytes moved; nothing behind them is touched. -/
def transfer (m : μ) (payload : List UInt8) (requested : Nat) : Except Fault Nat × μ :=
  let count := min payload.length requested
  if capacity m < count then (.error .outOfBounds, m)
  else
    let (result, m) := writeAt m 0 (payload.take count)
    (result.map fun _ => count, m)

end Memory

end DataPlacement.Host
