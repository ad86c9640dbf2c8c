import DataPlacement.Device.Switching
import DataPlacement.Device.Writes

namespace DataPlacement.Device

variable {μ : Type} [Host.Memory μ]

/-- The result of a command that may move bytes to host memory. -/
structure Served (μ α : Type) where
  result : α
  memory : μ
  notices : List Notice := []

/-- A log page in full. -/
def logPage (d : Device) (page : LogPage) : List UInt8 := Page.log d.configuration d.pool page

/-- The unit status page in full. -/
def unitStatusPage (d : Device) : List UInt8 := Page.unitStatus d.configuration

/-- Serves a log page. An unknown log is reported even while placement is off. -/
def readLog (d : Device) (m : μ) (r : LogRequest) : Served μ (Except Error Nat) :=
  match r.page? with
  | none => ⟨.error (.invalidLogId r.log), m, []⟩
  | some name =>
    if !d.enabled then ⟨.error .disabled, m, []⟩
    else
      let page := d.logPage name
      let (result, m) := Page.serve m page name.minimum r.length
      ⟨result, m, if d.tracing then [.logServed name.text r.length page.length] else []⟩

/-- Get Log Page from its dwords. -/
def getLog (d : Device) (m : μ) (dword10 dword11 : Nat) : Served μ Completion :=
  let s := d.readLog m (.ofDwords dword10 dword11)
  ⟨.ofResult s.result, s.memory, s.notices⟩

/-- Serves the status of the reclaim unit handles. -/
def readUnitStatus (d : Device) (m : μ) (r : ManagementRequest) : Except Error Nat × μ :=
  if !d.enabled then (.error .disabled, m)
  else if r.operation ≠ unitStatusOperation then (.error (.unsupportedOperation r.operation), m)
  else Page.serve m d.unitStatusPage Page.unitStatusHeader r.length

/-- IO Management Receive from its dwords. -/
def receiveManagement (d : Device) (m : μ) (dword10 dword11 : Nat) : Completion × μ :=
  let (result, m) := d.readUnitStatus m (.ofDwords dword10 dword11)
  (.ofResult result, m)

/-- Opcode of IO Management Send. -/
def sendManagementOpcode : Nat := 0x1d

/-- IO Management Send. No operation of it is supported. -/
def sendManagement (d : Device) : Completion :=
  if d.enabled then .refused (.invalidOpcode sendManagementOpcode) else .refused .disabled

/-- A command with the device and the host memory after it. -/
structure Submitted (μ : Type) where
  completion : Completion
  device : Device
  memory : μ
  notices : List Notice := []

/-- The administrative queue: Get Log Page and the toggle. -/
def submitAdministrative (d : Device) (m : μ) (opcode dword10 dword11 : Nat) : Submitted μ :=
  match opcode with
  | 0x02 =>
    let s := d.getLog m dword10 dword11
    ⟨s.result, d, s.memory, s.notices⟩
  | 0xef =>
    let o := d.toggle dword10
    ⟨.ofResult (o.result.map fun _ => 0), o.state, m, o.notices⟩
  | _ => ⟨.refused (.invalidOpcode opcode), d, m, []⟩

/-- The command queue. For reads and writes, dwords 10 and 11 hold the first block. -/
def submitIo (d : Device) (m : μ) (opcode dword10 dword11 dword12 dword13 : Nat) :
    Submitted μ :=
  match opcode with
  | 0x01 =>
    let (completion, d, notices) := d.submitWrite (dword10 + dword11 * bitRange 32) dword12 dword13
    ⟨completion, d, m, notices⟩
  | 0x02 =>
    let (completion, d, notices) := d.read (bitField 0 16 dword12)
    ⟨completion, d, m, notices⟩
  | 0x12 =>
    let (completion, m) := d.receiveManagement m dword10 dword11
    ⟨completion, d, m, []⟩
  | 0x1d => ⟨d.sendManagement, d, m, []⟩
  | _ => ⟨.refused (.invalidOpcode opcode), d, m, [.unsupportedOpcode opcode]⟩

end DataPlacement.Device
