import DataPlacement.Pool.Basic

namespace DataPlacement.Pool

/-- Gives every unit an empty list of its own. -/
def reserve (p : Pool) (units : Nat) : Pool :=
  { p with reserved := Array.replicate units .empty }

/-- Moves `count` lines, one by one, from the head of the shared list to the end of the
unit's. -/
def moveShared (p : Pool) (u : UnitId) : Nat → Outcome Pool Unit
  | 0 => .done () p
  | count + 1 =>
    match p.shared.take? with
    | none => .refused .sharedExhausted p
    | some (id, rest) =>
      let p := { p with shared := rest }
      let p := p.updateLine id fun l => { l with owner := some u }
      moveShared (p.setFreeList (some u) ((p.freeList (some u)).push id)) u count

/-- Gives the unit the next `count` shared lines, or none if there are fewer. -/
def assign (p : Pool) (u : UnitId) (count : Nat) : Outcome Pool Unit :=
  if !p.hasList (some u) then
    .refused (.inconsistent "assign: reclaim unit has no free list") p
  else if p.shared.size < count then
    .refused .sharedExhausted p
  else
    p.moveShared u count

/-- Takes the next free line of an owner to be written, if there is one. -/
def take (p : Pool) (owner : Option UnitId) : Option LineId × Pool :=
  match (p.freeList owner).take? with
  | none => (none, p)
  | some (id, rest) => (some id, (p.setFreeList owner rest).updateLine id Line.activate)

/-- Records pages written to a line. -/
def program (p : Pool) (id : LineId) (pages : Nat) : Pool :=
  let limit := p.pagesPerLine
  p.updateLine id fun l => l.program pages limit

/-- Hands a line that is being written to the collector; any other line stays as it is. -/
def retire (p : Pool) (id : LineId) : Pool :=
  match p.lines[id]? with
  | none => p
  | some l =>
    if l.state = .active then
      let n := p.retirements + 1
      { p.updateLine id fun l => l.retire n with retirements := n }
    else p

/-- Puts a line that was taken and never written back at the head of its owner's list. -/
def release (p : Pool) (id : LineId) : Outcome Pool Unit :=
  match p.lines[id]? with
  | none => .refused (.notReclaimable id) p
  | some l =>
    if l.state ≠ .active ∨ l.pages ≠ 0 then
      .refused (.notReclaimable id) p
    else if !p.hasList l.owner then
      .refused (.inconsistent "owner has no free list") p
    else
      let p := p.setFreeList l.owner ((p.freeList l.owner).putBack id)
      .done () (p.updateLine id fun l => { l with state := .free })

/-- Erases a full line and puts it at the end of its owner's list. -/
def reclaim (p : Pool) (id : LineId) : Outcome Pool (Option UnitId) :=
  match p.lines[id]? with
  | none => .refused (.notReclaimable id) p
  | some l =>
    if l.state ≠ .full then
      .refused (.notReclaimable id) p
    else if !p.hasList l.owner then
      .refused (.inconsistent "owner has no free list") p
    else
      let p := p.setFreeList l.owner ((p.freeList l.owner).push id)
      .done l.owner (p.updateLine id Line.erase) [.reclaimed id l.owner]

/-- Takes a line from its owner. If it was being written it becomes full, or shared again if
nothing was written to it yet. -/
def disown (p : Pool) (id : LineId) : Pool :=
  match p.lines[id]? with
  | none => p
  | some l =>
    if l.owner = none then p
    else
      let p := p.updateLine id fun l => { l with owner := none }
      if l.state ≠ .active then p
      else if l.pages = 0 then
        let p := p.updateLine id fun l => { l with state := .free }
        { p with shared := p.shared.push id }
      else p.retire id

/-- Moves the reserved lists, in unit order, to the end of the shared list. -/
def shareReserved (p : Pool) : Pool :=
  let ids := p.reserved.toList.flatMap (·.toList)
  let p := { p with shared := p.shared.append ids, reserved := #[] }
  ids.foldl (fun p id => p.updateLine id fun l => { l with owner := none }) p

/-- Ends all ownership: the reserved lists become shared, and then the other owned lines are
disowned in line order. -/
def dissolve (p : Pool) : Pool :=
  let p := p.shareReserved
  (List.range p.lines.size).foldl disown p

end DataPlacement.Pool
