import DataPlacement.Pool.Moves

namespace DataPlacement

/-- The page that is written next, if there is a current line. -/
structure WritePointer where
  line : Option LineId := none
  page : Nat := 0
  deriving DecidableEq

namespace WritePointer

/-- The first page of a line. -/
def start (line : LineId) : WritePointer := ⟨some line, 0⟩

/-- No current line. -/
def closed : WritePointer := {}

end WritePointer

/-- When a writer opens the next line after one became full: at once, or with the next page. -/
inductive Rollover where
  | atOnce
  | onDemand
  deriving DecidableEq

/-- What a write did to the pool: the lines that received pages, those of them that became
full, and whether lines ran out before pages did. -/
structure Fill where
  pool : Pool
  pointer : WritePointer
  lines : List LineId := []
  retired : List LineId := []
  starved : Bool := false

namespace Fill

/-- The same fill with a stretch in `line` before it. -/
def precededBy (f : Fill) (line : LineId) (becameFull : Bool) : Fill :=
  { f with
    lines := line :: f.lines
    retired := if becameFull then line :: f.retired else f.retired }

/-- The writer gave up its last line and found no other. -/
def ranDry (f : Fill) : Bool := f.pointer.line.isNone && !f.lines.isEmpty

end Fill

namespace Pool

/-- The line and page to write next; without a current line the next free line is taken. -/
def nextPage (p : Pool) (owner : Option UnitId) (pointer : WritePointer) :
    Option (LineId × Nat) × Pool :=
  match pointer.line with
  | some line => (some (line, pointer.page), p)
  | none =>
    let (line, p) := p.take owner
    (line.map fun line => (line, 0), p)

/-- The pointer after a line became full. -/
def rollOver (p : Pool) (owner : Option UnitId) : Rollover → WritePointer × Pool
  | .onDemand => (.closed, p)
  | .atOnce =>
    match p.take owner with
    | (some line, p) => (.start line, p)
    | (none, p) => (.closed, p)

/-- Writes pages line by line, into at most `lines` lines. -/
def fillLines (owner : Option UnitId) (rollover : Rollover) :
    (lines : Nat) → Pool → WritePointer → (pages : Nat) → Fill
  | _, p, pointer, 0 => { pool := p, pointer := pointer }
  | 0, p, pointer, _ + 1 => { pool := p, pointer := pointer, starved := true }
  | lines + 1, p, pointer, pages + 1 =>
    match p.nextPage owner pointer with
    | (none, p) => { pool := p, pointer := pointer, starved := true }
    | (some (line, page), p) =>
      let count := min (pages + 1) (p.pagesPerLine - page)
      let p := p.program line count
      if page + count = p.pagesPerLine then
        let (pointer, p) := (p.retire line).rollOver owner rollover
        (fillLines owner rollover lines p pointer (pages + 1 - count)).precededBy line true
      else
        let pointer := ⟨some line, page + count⟩
        (fillLines owner rollover lines p pointer (pages + 1 - count)).precededBy line false

/-- Writes the next pages of a writer's stream. It touches the current line and each free line
at most once, which bounds the number of lines. -/
def fill (p : Pool) (owner : Option UnitId) (rollover : Rollover) (pointer : WritePointer)
    (pages : Nat) : Fill :=
  fillLines owner rollover (p.freeCount owner + 1) p pointer pages

/-- Pages left in a writer's stream. -/
def streamPages (p : Pool) (owner : Option UnitId) (pointer : WritePointer) : Nat :=
  let current := if pointer.line.isSome then p.pagesPerLine - pointer.page else 0
  current + p.freeCount owner * p.pagesPerLine

end Pool

end DataPlacement
