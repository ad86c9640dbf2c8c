import DataPlacement.Proofs.Allocation.Basic
import DataPlacement.Proofs.Allocation.Steps
import DataPlacement.Proofs.Pool.Effects

namespace DataPlacement

/-- What happens to the data of a line: its erasure, or a write by a unit or the plain path. -/
inductive LineEvent where
  | erased (line : LineId)
  | wrote (owner : Option UnitId) (line : LineId)
  deriving DecidableEq

namespace Allocation

/-- The moves of writes and of collection, on behalf of the owners in `W` only. -/
inductive Traffic (W : Option UnitId → Prop) :
    Allocation → List LineEvent → Allocation → Prop where
  /-- A writer without a line takes its first free one. -/
  | opens {s : Allocation} {o : Option UnitId} {id : LineId} {rest : List LineId} (ho : W o)
      (hpointer : s.pointer o = .closed) (hfree : s.pool.freeLines o = id :: rest) :
      Traffic W s [] (point ⟨s.pool.taken o id rest, s.pointer⟩ o (.start id))
  /-- A writer writes pages and stays on its line. -/
  | writes {s : Allocation} {o : Option UnitId} {id : LineId} {page count : Nat} (ho : W o)
      (hpointer : s.pointer o = ⟨some id, page⟩) (hcount : 0 < count)
      (hroom : page + count < s.pool.pagesPerLine) :
      Traffic W s [.wrote o id]
        (point ⟨s.pool.program id count, s.pointer⟩ o ⟨some id, page + count⟩)
  /-- A writer writes the last pages of its line and gives it up. -/
  | fills {s : Allocation} {o : Option UnitId} {id : LineId} {page count : Nat} (ho : W o)
      (hpointer : s.pointer o = ⟨some id, page⟩) (hcount : 0 < count)
      (hlast : page + count = s.pool.pagesPerLine) :
      Traffic W s [.wrote o id]
        (point ⟨(s.pool.program id count).retire id, s.pointer⟩ o .closed)
  /-- A full line is erased and goes to its owner's list. -/
  | reclaims {s : Allocation} {id : LineId} {l : Line} (ho : W l.owner)
      (hline : s.pool.lines[id]? = some l) (hstate : l.state = .full)
      (hlist : s.pool.hasList l.owner) :
      Traffic W s [.erased id] ⟨s.pool.reclaimed l.owner id, s.pointer⟩

/-- All moves: traffic, and the steps of turning placement on and off. -/
inductive Move : Allocation → List LineEvent → Allocation → Prop where
  | traffic {s t : Allocation} {es : List LineEvent} {W : Option UnitId → Prop}
      (h : Traffic W s es t) : Move s es t
  /-- The plain path gives back a line that it never wrote. -/
  | releases {s : Allocation} {id : LineId} (hpointer : s.pointer none = ⟨some id, 0⟩) :
      Move s [] (point ⟨s.pool.released none id, s.pointer⟩ none .closed)
  /-- The plain path gives up a line that it has written in part. -/
  | retires {s : Allocation} {id : LineId} {page : Nat}
      (hpointer : s.pointer none = ⟨some id, page⟩) (hpage : page ≠ 0) :
      Move s [] (point ⟨s.pool.retire id, s.pointer⟩ none .closed)
  /-- Empty lists are made for the units. -/
  | reserves {s : Allocation} {units : Nat} (hnone : s.pool.reserved = #[]) :
      Move s [] ⟨s.pool.reserve units, s.pointer⟩
  /-- A unit is given the first shared line. -/
  | assigns {s : Allocation} {u : UnitId} {id : LineId} {rest : List LineId}
      (hlist : s.pool.hasList (some u)) (hfree : s.pool.freeLines none = id :: rest) :
      Move s [] ⟨s.pool.assigned u id rest, s.pointer⟩
  /-- The free lines of the units become shared. -/
  | shares {s : Allocation} : Move s [] ⟨s.pool.shareReserved, s.pointer⟩
  /-- A full line loses its owner. -/
  | disowns {s : Allocation} {id : LineId} {l : Line} {u : UnitId}
      (hline : s.pool.lines[id]? = some l) (howner : l.owner = some u) (hstate : l.state = .full) :
      Move s [] ⟨s.pool.disown id, s.pointer⟩
  /-- The current line of a unit loses its owner, and the unit its line. -/
  | stops {s : Allocation} {id : LineId} {l : Line} {u : UnitId}
      (hline : s.pool.lines[id]? = some l) (howner : l.owner = some u)
      (hstate : l.state = .active) :
      Move s [] (point ⟨s.pool.disown id, s.pointer⟩ (some u) .closed)

end Allocation

end DataPlacement
