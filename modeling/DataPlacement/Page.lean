import DataPlacement.Command.Request
import DataPlacement.Configuration.Routing
import DataPlacement.Host.Transfer

namespace DataPlacement

open Host (littleEndian)

/-- Bytes of zeros. -/
def zeroBytes (count : Nat) : List UInt8 := List.replicate count 0

namespace Page

/-- Bytes of the header of the configurations page. -/
def configurationsHeader : Nat := 16

/-- Bytes of the one configuration descriptor with its handle descriptors. -/
def descriptorSize (handles : Nat) : Nat := 64 + 4 * handles

/-- Bytes of the configurations page. -/
def configurationsSize (handles : Nat) : Nat := configurationsHeader + descriptorSize handles

/-- The configurations page: how many configurations there are, the version and the size of the
page; then the descriptor of the one configuration; then one descriptor per unit handle. -/
def configurations (c : Configuration) (p : Pool) : List UInt8 :=
  littleEndian 2 1 ++ littleEndian 1 1 ++ zeroBytes 1
    ++ littleEndian 4 (configurationsSize c.handles) ++ zeroBytes 8
    ++ littleEndian 2 (descriptorSize c.handles) ++ littleEndian 1 c.attributes ++ zeroBytes 1
    ++ littleEndian 4 c.groups ++ littleEndian 2 c.handles ++ littleEndian 2 maxHandles
    ++ zeroBytes 4 ++ littleEndian 8 (p.pagesPerLine * c.pageSize) ++ zeroBytes 4
    ++ zeroBytes 36
    ++ ((List.range c.handles).map fun h =>
        littleEndian 1 1 ++ zeroBytes 1 ++ littleEndian 2 h).flatten

/-- Units that the statistics page has room for. -/
def statisticsSlots : Nat := 16

/-- One table of the statistics page: a number per unit, and zeros in the unused slots. -/
def statisticsTable (units : List ReclaimUnit) (value : ReclaimUnit → Nat) : List UInt8 :=
  let shown := units.take statisticsSlots
  (shown.map fun u => littleEndian 8 (value u)).flatten
    ++ zeroBytes (8 * (statisticsSlots - shown.length))

/-- The statistics page: host bytes, media bytes, write commands, read commands (not counted)
and media wear of the first units. -/
def statistics (c : Configuration) (p : Pool) : List UInt8 :=
  let table := statisticsTable c.units.toList
  table (·.hostBytes) ++ table (·.mediaBytes) ++ table (·.writes) ++ table (fun _ => 0)
    ++ table (fun u => p.wearOf u.id)

/-- The events page. No events are recorded. -/
def events : List UInt8 := zeroBytes 64

/-- The page behind a log page name. -/
def log (c : Configuration) (p : Pool) : LogPage → List UInt8
  | .configurations => configurations c p
  | .statistics => statistics c p
  | .events => events

/-- Bytes of the header of the unit status page. -/
def unitStatusHeader : Nat := 16

/-- The unit status page: the number of units, and for each one its placement identifier, its
unit handle and the bytes left to its capacity. -/
def unitStatus (c : Configuration) : List UInt8 :=
  zeroBytes 14 ++ littleEndian 2 c.units.size
    ++ (c.units.toList.map fun u =>
        littleEndian 2 (c.identifierOf u) ++ littleEndian 2 u.handle ++ zeroBytes 4
          ++ littleEndian 8 u.remainingBytes ++ zeroBytes 16).flatten

/-- Copies the start of a page to host memory. A request must cover the header of the page. -/
def serve {μ : Type} [Host.Memory μ] (m : μ) (page : List UInt8) (minimum requested : Nat) :
    Except Error Nat × μ :=
  if requested < minimum then
    (.error (.bufferTooSmall minimum requested), m)
  else
    let (result, m) := Host.Memory.transfer m page requested
    (result.mapError Error.transfer, m)

end Page

end DataPlacement
