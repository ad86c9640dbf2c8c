import DataPlacement.Arithmetic
import DataPlacement.Host.Fault

namespace DataPlacement.Host

/-- Memory that the host makes available. Offsets count from its start, and a refused access
leaves it as it was. -/
class Memory (μ : Type) where
  /-- Writes the bytes at an offset. -/
  writeAt : μ → (offset : Nat) → (data : List UInt8) → Except Fault Unit × μ
  /-- Reads `count` bytes at an offset. -/
  readAt : μ → (offset count : Nat) → Except Fault (List UInt8) × μ
  /-- Writes out what is still held back. -/
  flush : μ → Except Fault Unit × μ
  /-- Bytes available to a transfer. -/
  capacity : μ → Nat

/-- The first `limit` bytes of a buffer. The command may have been given less than the whole
buffer, and what lies behind the limit is out of bounds. -/
structure Window where
  bytes : List UInt8
  limit : Nat
  limit_le : limit ≤ bytes.length

namespace Window

/-- The whole buffer. -/
def whole (bytes : List UInt8) : Window := ⟨bytes, bytes.length, Nat.le_refl _⟩

/-- The first `limit` bytes, or the whole buffer if it has fewer. -/
def exposing (bytes : List UInt8) (limit : Nat) : Window :=
  ⟨bytes, min limit bytes.length, Nat.min_le_right _ _⟩

/-- Bytes put in the place of as many bytes of a buffer. -/
def overlay (bytes : List UInt8) (offset : Nat) (data : List UInt8) : List UInt8 :=
  bytes.take offset ++ data ++ bytes.drop (offset + data.length)

theorem length_overlay {bytes data : List UInt8} {offset : Nat}
    (h : offset + data.length ≤ bytes.length) :
    (overlay bytes offset data).length = bytes.length := by
  simp only [overlay, List.length_append, List.length_take, List.length_drop]
  omega

def writeAt (w : Window) (offset : Nat) (data : List UInt8) : Except Fault Unit × Window :=
  if h : offset + data.length ≤ w.limit then
    (.ok (), ⟨overlay w.bytes offset data, w.limit,
      by rw [length_overlay (Nat.le_trans h w.limit_le)]; exact w.limit_le⟩)
  else
    (.error .outOfBounds, w)

def readAt (w : Window) (offset count : Nat) : Except Fault (List UInt8) × Window :=
  if offset + count ≤ w.limit then
    (.ok ((w.bytes.drop offset).take count), w)
  else
    (.error .outOfBounds, w)

/-- Moves the limit, which cannot pass the end of the buffer. -/
def setLength (w : Window) (length : Nat) : Except Fault Unit × Window :=
  if h : length ≤ w.bytes.length then (.ok (), ⟨w.bytes, length, h⟩)
  else (.error .outOfBounds, w)

instance : Memory Window where
  writeAt := writeAt
  readAt := readAt
  flush w := (.ok (), w)
  capacity w := w.limit

end Window

/-- Where a growing store is kept. -/
inductive StoreKind where
  | inMemory
  | file
  deriving DecidableEq

/-- A store that grows with what is written to it. A write past its end first fills the gap
with zeros; a write of no bytes does so in memory and leaves a file as it is. -/
structure Store where
  kind : StoreKind
  bytes : List UInt8

namespace Store

/-- Bytes cut or filled up with zeros to a length. -/
def resize (bytes : List UInt8) (length : Nat) : List UInt8 :=
  bytes.take length ++ List.replicate (length - bytes.length) 0

/-- The store can have as many bytes. A file has fewer than 2^63, and nothing is asked of one
behind that, not even an empty transfer. -/
def holds (s : Store) (length : Nat) : Bool :=
  match s.kind with
  | .inMemory => true
  | .file => length < bitRange 63

def writeAt (s : Store) (offset : Nat) (data : List UInt8) : Except Fault Unit × Store :=
  if !s.holds (offset + data.length) then (.error (.file .invalidInput), s)
  else if data.isEmpty && s.kind = .file then (.ok (), s)
  else
    let rest := s.bytes.drop (offset + data.length)
    (.ok (), { s with bytes := resize s.bytes offset ++ data ++ rest })

def readAt (s : Store) (offset count : Nat) : Except Fault (List UInt8) × Store :=
  if !s.holds (offset + count) then (.error (.file .invalidInput), s)
  else if count = 0 ∨ offset + count ≤ s.bytes.length then
    (.ok ((s.bytes.drop offset).take count), s)
  else
    (.error (.file .unexpectedEnd), s)

/-- Cuts the store or fills it up with zeros. -/
def setLength (s : Store) (length : Nat) : Except Fault Unit × Store :=
  if !s.holds length then (.error (.file .invalidInput), s)
  else (.ok (), { s with bytes := resize s.bytes length })

instance : Memory Store where
  writeAt := writeAt
  readAt := readAt
  flush s := (.ok (), s)
  capacity _ := bitRange 64 - 1

end Store

/-- Counts of accesses and bytes, and the largest single write. -/
structure TransferTally where
  reads : Nat := 0
  readBytes : Nat := 0
  writes : Nat := 0
  writtenBytes : Nat := 0
  flushes : Nat := 0
  largestWrite : Nat := 0
  deriving DecidableEq

/-- Memory with a meter. Reads and writes count when they succeed, flushes when they are asked
for. -/
structure Metered (μ : Type) where
  memory : μ
  tally : TransferTally := {}

namespace Metered

variable {μ : Type} [Memory μ]

def writeAt (m : Metered μ) (offset : Nat) (data : List UInt8) :
    Except Fault Unit × Metered μ :=
  match Memory.writeAt m.memory offset data with
  | (.error fault, memory) => (.error fault, { m with memory := memory })
  | (.ok _, memory) =>
    (.ok (), {
      memory := memory
      tally := { m.tally with
        writes := m.tally.writes + 1
        writtenBytes := m.tally.writtenBytes + data.length
        largestWrite := max m.tally.largestWrite data.length } })

def readAt (m : Metered μ) (offset count : Nat) : Except Fault (List UInt8) × Metered μ :=
  match Memory.readAt m.memory offset count with
  | (.error fault, memory) => (.error fault, { m with memory := memory })
  | (.ok data, memory) =>
    (.ok data, {
      memory := memory
      tally := { m.tally with
        reads := m.tally.reads + 1
        readBytes := m.tally.readBytes + data.length } })

def flush (m : Metered μ) : Except Fault Unit × Metered μ :=
  let (result, memory) := Memory.flush m.memory
  (result, { memory := memory, tally := { m.tally with flushes := m.tally.flushes + 1 } })

instance : Memory (Metered μ) where
  writeAt := writeAt
  readAt := readAt
  flush := flush
  capacity m := Memory.capacity m.memory

end Metered

end DataPlacement.Host
