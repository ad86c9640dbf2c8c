import DataPlacement.Device.Collection

namespace DataPlacement.Device

/-- An attempt to write. A pass that is refused on the way ends the command at once, which
leaves it out of the accounting. -/
structure Attempt where
  outcome : Outcome Device WriteReport
  settled : Bool := true

/-- Erasing the unit's full lines would make room for the write. -/
def reclaimWouldFit (d : Device) (u : UnitId) (bytes : Nat) : Bool :=
  let reclaimable := Configuration.reclaimablePages d.pool u
  0 < reclaimable &&
    bytes / d.geometry.pageSize ≤ d.configuration.availablePages d.pool u + reclaimable

def countForegroundPass (d : Device) : Device :=
  { d with accounting :=
      { d.accounting with foregroundPasses := d.accounting.foregroundPasses + 1 } }

/-- One try at the unit that the placement leads to. -/
def routeOnce (d : Device) (placement : Placement) (block bytes now : Nat) :
    Outcome Device WriteReport :=
  d.onUnits fun c p => c.write p placement block bytes now

/-- A placed write. The clock is read once for both tries. -/
def writePlaced (d : Device) (placement : Placement) (block bytes : Nat) : Attempt :=
  let now := d.clock.now
  let first := d.tick.routeOnce placement block bytes now
  match first.result with
  | .error (.unitExhausted u) =>
    if first.state.reclaimWouldFit u bytes then
      let pass := first.state.countForegroundPass.reclaimUnit u
      let earlier := first.notices ++ pass.notices
      match pass.result with
      | .error cause => ⟨.refused cause pass.state earlier, false⟩
      | .ok _ => ⟨(pass.state.routeOnce placement block bytes now).after earlier, true⟩
    else ⟨first, true⟩
  | _ => ⟨first, true⟩

/-- One try at the plain path. -/
def plainOnce (d : Device) (block bytes : Nat) : Outcome Device WriteReport :=
  let pageSize := d.geometry.pageSize
  d.onPath fun path p => path.write p pageSize block bytes

/-- A write without a placement, or any write while placement is off. -/
def writePlain (d : Device) (block bytes : Nat) : Attempt :=
  let first := d.plainOnce block bytes
  match first.result with
  | .error .sharedExhausted =>
    let d := first.state.countForegroundPass
    let pass := d.onCollector fun c p => c.collect p none fun candidate =>
      candidate.line.owner.isNone
    let earlier := first.notices ++ pass.notices
    match pass.result with
    | .error cause => ⟨.refused cause pass.state earlier, false⟩
    | .ok _ => ⟨(pass.state.plainOnce block bytes).after earlier, true⟩
  | _ => ⟨first, true⟩

/-- Enters the result of a write into the accounting, and reports it if the device traces. -/
def account (o : Outcome Device WriteReport) (block bytes : Nat) : Outcome Device WriteReport :=
  let d := o.state
  let a := d.accounting
  match o.result with
  | .ok report =>
    let trace := [.written block bytes report.unit report.lines]
    { o with
      state := { d with
        accounting := { a with writes := a.writes + 1, bytes := advance 64 a.bytes bytes } }
      notices := o.notices ++ if d.tracing then trace else [] }
  | .error cause =>
    let trace := [.writeRefused block cause]
    { o with
      state := { d with accounting := { a with refused := a.refused + 1 } }
      notices := o.notices ++ if d.tracing then trace else [] }

/-- The write command. A write that finds no room erases the full lines of its own writer and tries
once more; a placed write that would not fit even then erases nothing. -/
def write (d : Device) (w : WriteCommand) : Outcome Device WriteReport :=
  let bytes := w.bytes d.geometry.blockSize
  let attempt :=
    if d.enabled && w.hasPlacement then
      d.writePlaced (d.configuration.placementOf w.identifier) w.block bytes
    else
      d.writePlain w.block bytes
  if attempt.settled then account attempt.outcome w.block bytes else attempt.outcome

/-- The write command from its dwords. -/
def submitWrite (d : Device) (block dword12 dword13 : Nat) : Completion × Device × List Notice :=
  let o := d.write (.ofDwords block dword12 dword13)
  (.ofResult (o.result.map fun _ => 0), o.state, o.notices)

/-- The read command. Placement holds no data, so reads are counted and nothing else. -/
def read (d : Device) (blocks : Nat) : Completion × Device × List Notice :=
  let a := d.accounting
  (.done 0, { d with accounting := { a with reads := a.reads + 1 } },
    if d.tracing then [.read blocks] else [])

end DataPlacement.Device
