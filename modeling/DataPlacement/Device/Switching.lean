import DataPlacement.Device.Basic

namespace DataPlacement.Device

/-- Turns placement off. The device stops advertising it even if it was off already. -/
def disable (d : Device) : Outcome Device Bool :=
  (d.onUnits Configuration.disable).mapState fun d => { d with capabilities := {} }

/-- Turns placement on. The plain path first gives up its line, so that the line joins the
distribution. A failure turns placement off again and is reported. Answers nothing if placement
was on already. -/
def enable (d : Device) : Outcome Device (Option Distribution) :=
  if d.enabled then .done none d
  else
    match d.onPath PlainPath.close with
    | ⟨.error cause, d, _⟩ => .refused cause d
    | ⟨.ok _, d, _⟩ =>
      match d.configuration.enable d.pool d.clock with
      | ⟨.ok distribution, (c, p, clock), notices⟩ =>
        let d := { d.setUnits (c, p) with clock := clock, capabilities := .all }
        .done distribution d notices
      | ⟨.error cause, (c, p, clock), notices⟩ =>
        let o := { d.setUnits (c, p) with clock := clock }.disable
        .refused cause o.state (notices ++ .enableFailed cause :: o.notices)

/-- Carries out a toggle. -/
def apply (d : Device) : Toggle → Outcome Device Unit
  | .resetAccounting => .done () { d with accounting := {} } [.accountingReset]
  | .startTrace => .done () { d with tracing := true }
  | .stopTrace => .done () { d with tracing := false }
  | .enablePlacement =>
    let o := d.enable
    ⟨o.result.map fun _ => (), o.state, o.notices⟩
  | .disablePlacement =>
    let o := d.disable
    ⟨o.result.map fun _ => (), o.state, o.notices⟩

/-- The toggle command with a code. -/
def toggle (d : Device) (code : Nat) : Outcome Device Unit :=
  match Toggle.ofCode? code with
  | none => .refused (.invalidParameters "unknown toggle code") d [.unknownToggle code]
  | some t => d.apply t

end DataPlacement.Device
