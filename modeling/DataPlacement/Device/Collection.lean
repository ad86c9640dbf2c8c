import DataPlacement.Device.Basic

namespace DataPlacement.Device

/-- Opens the full units among the owners again, all stamped with `now`. -/
def rearmOwners (now : Nat) : List Reclaimed → Device → Device × List Notice
  | [], d => (d, [])
  | r :: rest, d =>
    match r.owner with
    | none => rearmOwners now rest d
    | some u =>
      let o := d.onUnits fun c p => c.rearm p u now
      let (d, notices) := rearmOwners now rest o.state
      (d, o.notices ++ notices)

/-- A pass, and then one reading of the clock for the units that are opened again. A refused
pass opens no unit and reads no clock. -/
def collect (d : Device) (budget : Option Nat) (wanted : Candidate → Bool) :
    Outcome Device (List Reclaimed) :=
  match d.onCollector fun c p => c.collect p budget wanted with
  | ⟨.error cause, d, notices⟩ => .refused cause d notices
  | ⟨.ok erased, d, notices⟩ =>
    let (d, opened) := rearmOwners d.clock.now erased d.tick
    .done erased d (notices ++ opened)

/-- Erases up to `budget` full lines; no budget stands for all of them. -/
def gc (d : Device) (budget : Option Nat) : Outcome Device (List Reclaimed) :=
  d.collect budget fun _ => true

/-- Erases every full line of a unit. Answers how many there were. -/
def reclaimUnit (d : Device) (u : UnitId) : Outcome Device Nat :=
  let o := d.collect none fun candidate => candidate.line.isOwnedBy u
  ⟨o.result.map (·.length), o.state, o.notices⟩

end DataPlacement.Device
