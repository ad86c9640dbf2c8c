import DataPlacement.Device.Queues
import DataPlacement.Host.Transfer
import DataPlacement.Scenario.Failure

namespace DataPlacement

/-- The pages that a device offers: its log pages, and the status of its unit handles. -/
inductive HostPage where
  | log (page : LogPage)
  | unitStatus
  deriving DecidableEq

namespace HostPage

def all : List HostPage := [.log .configurations, .log .statistics, .log .events, .unitStatus]

def name : HostPage → String
  | log .configurations => "Configs"
  | log .statistics => "Stats"
  | log .events => "Events"
  | unitStatus => "RuhStatus"

/-- The least length that can be asked for, which is that of the page's header. -/
def minimum : HostPage → Nat
  | log page => page.minimum
  | unitStatus => Page.unitStatusHeader

/-- The whole page. -/
def content (d : Device) : HostPage → List UInt8
  | log page => d.logPage page
  | unitStatus => d.unitStatusPage

/-- Bytes of the whole page. -/
def size (d : Device) (p : HostPage) : Nat := (p.content d).length

/-- Sends the command that transfers the page into host memory. -/
def fetch {μ : Type} [Host.Memory μ] (d : Device) (p : HostPage) (m : μ) (length : Nat) :
    Device.Served μ Completion :=
  match p with
  | log page =>
    let (dword10, dword11) := LogRequest.dwords ⟨page.identifier, length⟩
    d.getLog m dword10 dword11
  | unitStatus =>
    let (dword10, dword11) := ManagementRequest.dwords ⟨unitStatusOperation, length⟩
    let (completion, m) := d.receiveManagement m dword10 dword11
    ⟨completion, m, []⟩

/-- The bytes that a completed fetch has transferred. -/
def received (p : HostPage) (c : Completion) (bytes : List UInt8) :
    Except Scenario.Failure (List UInt8) :=
  if c.isOk then .ok (bytes.take c.transferred) else .error (.pageRefused p.name c.status)

/-- Fetches into a buffer of the requested length. What lies behind the page is never written,
so the buffer need not be longer than the page. -/
def fetchBytes (d : Device) (p : HostPage) (length : Nat) :
    Except Scenario.Failure (List UInt8) :=
  let buffer := List.replicate (min length (p.size d)) 0
  let served := p.fetch d (Host.Window.whole buffer) length
  p.received served.result served.memory.bytes

/-- The refusal of a page whose bytes the host does not take. -/
def refusedBy (p : HostPage) (fault : Host.FileFault) : Scenario.Failure :=
  .pageRefused p.name (Error.transfer (.file fault)).status

/-- Fetches into an empty file, and cuts the file to what was transferred. -/
def fetchFile (d : Device) (p : HostPage) (length : Nat) :
    Except Scenario.Failure (List UInt8) :=
  let served := p.fetch d (⟨.file, []⟩ : Host.Store) length
  p.received served.result served.memory.bytes

end HostPage

end DataPlacement
