import DataPlacement.Configuration.Routing

namespace DataPlacement

/-- The writer of all that comes without a placement, and of everything while placement is off. It
fills shared lines and knows no reclaim units. -/
structure PlainPath where
  pointer : WritePointer := .closed
  hostBytes : Nat := 0
  writes : Nat := 0
  deriving DecidableEq

namespace PlainPath

/-- Pages that the path can take without an erasure. -/
def availablePages (path : PlainPath) (p : Pool) : Nat :=
  p.streamPages none path.pointer

/-- Writes to the shared lines, or refuses before anything changes. -/
def write (path : PlainPath) (p : Pool) (pageSize block bytes : Nat) :
    Outcome (PlainPath × Pool) WriteReport :=
  if bytes = 0 ∨ bytes % pageSize ≠ 0 then
    .refused (.invalidLength bytes) (path, p)
  else if path.availablePages p < bytes / pageSize then
    .refused .sharedExhausted (path, p)
  else
    let pages := pageCounter (bytes / pageSize)
    let f := p.fill none .onDemand path.pointer pages
    if f.starved then
      .refused .sharedExhausted ({ path with pointer := f.pointer }, f.pool)
    else
      .done ⟨none, block, pages, f.lines, f.retired⟩
        (⟨f.pointer, advance 64 path.hostBytes bytes, advance 64 path.writes 1⟩, f.pool)

/-- A write with pages of any size. Pages of 0 bytes stop the program where it divides by them;
none stands for that. -/
def write? (path : PlainPath) (p : Pool) (pageSize block bytes : Nat) :
    Option (Outcome (PlainPath × Pool) WriteReport) :=
  if bytes ≠ 0 ∧ pageSize = 0 then none else some (path.write p pageSize block bytes)

/-- Gives up the current line: to the free list if it is untouched, else to the collector. -/
def close (path : PlainPath) (p : Pool) : Outcome (PlainPath × Pool) Unit :=
  match path.pointer.line with
  | none => .done () ({ path with pointer := .closed }, p)
  | some line =>
    if path.pointer.page = 0 then
      match p.release line with
      | ⟨.ok _, p, _⟩ => .done () ({ path with pointer := .closed }, p)
      | ⟨.error cause, p, _⟩ =>
        .refused cause ({ path with pointer := { path.pointer with line := none } }, p)
    else
      .done () ({ path with pointer := .closed }, p.retire line)

end PlainPath

end DataPlacement
