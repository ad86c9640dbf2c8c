import DataPlacement.Proofs.Device.Requests

namespace DataPlacement.Device

/-- The effect of a request, whatever way the request came. -/
inductive Action where
  | write (w : WriteCommand)
  | read (blocks : Nat)
  | resetAccounting
  | trace (on : Bool)
  | enable
  | disable
  | gc (budget : Option Nat)
  | reclaimUnit (u : UnitId)
  | install (collector : Collector)
  | nothing

/-- The action of a toggle. -/
def Action.ofToggle : Toggle → Action
  | .resetAccounting => .resetAccounting
  | .startTrace => .trace true
  | .stopTrace => .trace false
  | .enablePlacement => .enable
  | .disablePlacement => .disable

/-- The action of a toggle code; an unknown one does nothing. -/
def Action.ofCode (code : Nat) : Action :=
  match Toggle.ofCode? code with
  | none => .nothing
  | some t => .ofToggle t

variable {μ : Type} [Host.Memory μ]

def Request.action : Request μ → Action
  | .toggle code => .ofCode code
  | .apply t => .ofToggle t
  | .enable => .enable
  | .disable => .disable
  | .write w => .write w
  | .submitWrite block dword12 dword13 => .write (.ofDwords block dword12 dword13)
  | .read blocks => .read blocks
  | .gc budget => .gc budget
  | .reclaimUnit u => .reclaimUnit u
  | .submitAdministrative _ opcode dword10 _ =>
    match opcode with
    | 0xef => .ofCode dword10
    | _ => .nothing
  | .submitIo _ opcode dword10 dword11 dword12 dword13 =>
    match opcode with
    | 0x01 => .write (.ofDwords (dword10 + dword11 * bitRange 32) dword12 dword13)
    | 0x02 => .read (bitField 0 16 dword12)
    | _ => .nothing
  | .install collector => .install collector

/-- The device after an action. -/
def act (d : Device) : Action → Device
  | .write w => (d.write w).state
  | .read blocks => (d.read blocks).2.1
  | .resetAccounting => { d with accounting := {} }
  | .trace on => { d with tracing := on }
  | .enable => d.enable.state
  | .disable => d.disable.state
  | .gc budget => (d.gc budget).state
  | .reclaimUnit u => (d.reclaimUnit u).state
  | .install collector => d.install collector
  | .nothing => d

variable (d : Device)

theorem state_apply (t : Toggle) : (d.apply t).state = d.act (.ofToggle t) := by
  cases t <;> rfl

theorem state_toggle (code : Nat) : (d.toggle code).state = d.act (.ofCode code) := by
  unfold toggle Action.ofCode
  cases Toggle.ofCode? code with
  | none => rfl
  | some t => exact state_apply d t

theorem after_eq_act (r : Request μ) : d.after r = d.act r.action := by
  cases r with
  | toggle code => exact state_toggle d code
  | apply t => exact state_apply d t
  | submitAdministrative memory opcode dword10 dword11 =>
    unfold after perform submitAdministrative Request.action
    dsimp only
    split
    · rfl
    · exact state_toggle d dword10
    · next hlog htoggle =>
      split
      · exact absurd rfl htoggle
      · rfl
  | submitIo memory opcode dword10 dword11 dword12 dword13 =>
    unfold after perform submitIo Request.action
    dsimp only
    split
    · rfl
    · rfl
    · rfl
    · rfl
    · next hwrite hread hreceive hsend =>
      split
      · exact absurd rfl hwrite
      · exact absurd rfl hread
      · rfl
  | enable | disable | write | submitWrite | read | gc | reclaimUnit | install => rfl

end DataPlacement.Device
