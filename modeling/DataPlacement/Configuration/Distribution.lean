import DataPlacement.Configuration.Basic
import DataPlacement.ReclaimUnit

namespace DataPlacement

/-- Lines given to each unit, and the line on which each unit was opened. -/
structure Distribution where
  perUnit : List Nat
  current : List LineId
  deriving DecidableEq

namespace Distribution

/-- The share of each of `units` units in `free` lines. Every unit gets the quotient, and the
first ones get one more until the remainder is used up. -/
def shares (free units : Nat) : List Nat :=
  (List.range units).map fun i => free / units + if i < free % units then 1 else 0

/-- Lines given out in all. -/
def total (d : Distribution) : Nat := sumOf id d.perUnit

end Distribution

namespace Pool

/-- Gives each unit its share, from unit `first` on. -/
def assignShares (first : UnitId) : List Nat → Pool → Outcome Pool Unit
  | [], p => .done () p
  | count :: rest, p =>
    match p.assign first count with
    | ⟨.ok _, p, _⟩ => assignShares (first + 1) rest p
    | ⟨.error cause, p, _⟩ => .refused cause p

end Pool

namespace Configuration

/-- Opens the units one after the other, each on the first line of its list. -/
def openUnits (now : Nat) :
    List UnitId → Configuration → Pool → Outcome (Configuration × Pool) (List LineId)
  | [], c, p => .done [] (c, p)
  | u :: rest, c, p =>
    match p.take (some u) with
    | (none, p) => .refused (.distributionFailed u) (c, p)
    | (some line, p) =>
      let o := openUnits now rest (c.updateUnit u (·.openOn line now)) p
      { o with
        result := o.result.map (line :: ·)
        notices := .opened u line :: o.notices }

/-- Moves every shared line to the units and opens them. Nothing moves if some unit would get
no line. -/
def distribute (c : Configuration) (p : Pool) (now : Nat) :
    Outcome (Configuration × Pool) Distribution :=
  let shares := Distribution.shares p.shared.size c.units.size
  match shares.findIdx? (· = 0) with
  | some starved =>
    .refused (.distributionFailed starved) (c, p)
      [.distributionFailed p.shared.size c.units.size]
  | none =>
    match (p.reserve c.units.size).assignShares 0 shares with
    | ⟨.error cause, p, _⟩ => .refused cause (c, p)
    | ⟨.ok _, p, _⟩ =>
      let o := openUnits now (List.range c.units.size) c p
      ⟨o.result.map fun current => ⟨shares, current⟩, o.state, o.notices⟩

/-- Turns placement on, with one reading of the clock. Answers nothing, and reads no clock, if
it was on already. -/
def enable (c : Configuration) (p : Pool) (clock : Clock) :
    Outcome (Configuration × Pool × Clock) (Option Distribution) :=
  if c.enabled then .done none (c, p, clock)
  else
    match c.distribute p clock.now with
    | ⟨.ok d, (c, p), notices⟩ =>
      .done (some d) ({ c with enabled := true }, p, clock.next)
        (notices ++ [.enabled c.units.size d.total])
    | ⟨.error cause, (c, p), notices⟩ => .refused cause (c, p, clock.next) notices

/-- Turns placement off: the lines come back, the counters of the units are cleared, and the
totals stay. Answers whether it was on. -/
def disable (c : Configuration) (p : Pool) : Outcome (Configuration × Pool) Bool :=
  if !c.enabled then .done false (c, p)
  else
    let p := p.dissolve
    let c := { c with enabled := false, units := c.units.map (·.reset), lastUnit := none }
    .done true (c, p) [.disabled p.shared.size]

end Configuration

end DataPlacement
