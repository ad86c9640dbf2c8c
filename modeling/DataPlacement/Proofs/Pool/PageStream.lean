import DataPlacement.Proofs.Pool.Stream

namespace DataPlacement

/-- Pages of a line, one after another. -/
def stretchOf (id : LineId) (page count : Nat) : List (LineId × Nat) :=
  (List.range' page count).map (id, ·)

theorem length_stretchOf (id : LineId) (page count : Nat) :
    (stretchOf id page count).length = count := by
  simp [stretchOf]

theorem mem_stretchOf {id i : LineId} {page count k : Nat} :
    (i, k) ∈ stretchOf id page count ↔ i = id ∧ page ≤ k ∧ k < page + count := by
  simp only [stretchOf, List.mem_map, List.mem_range'_1, Prod.mk.injEq]
  constructor
  · rintro ⟨_, hk, rfl, rfl⟩
    exact ⟨rfl, hk⟩
  · rintro ⟨rfl, hk⟩
    exact ⟨k, hk, rfl, rfl⟩

theorem stretchOf_append (id : LineId) (page m n : Nat) :
    stretchOf id page m ++ stretchOf id (page + m) n = stretchOf id page (m + n) := by
  rw [stretchOf, stretchOf, ← List.map_append, List.range'_append_1]
  rfl

namespace Pool

variable (p : Pool) (o : Option UnitId) {w : WritePointer} {id : LineId} {page : Nat}

/-- The pages of a line from the given one on. -/
def pagesFrom (page : Nat) (id : LineId) : List (LineId × Nat) :=
  stretchOf id page (p.pagesPerLine - page)

/-- The pages that a writer can write without an erasure, in the order in which it writes them. -/
def pageStream (w : WritePointer) : List (LineId × Nat) :=
  w.line.toList.flatMap (p.pagesFrom w.page) ++ (p.freeLines o).flatMap (p.pagesFrom 0)

theorem pageStream_closed (hclosed : w.line = none) :
    p.pageStream o w = (p.freeLines o).flatMap (p.pagesFrom 0) := by
  simp [pageStream, hclosed]

theorem pageStream_current :
    p.pageStream o ⟨some id, page⟩ =
      p.pagesFrom page id ++ (p.freeLines o).flatMap (p.pagesFrom 0) := by
  simp [pageStream]

theorem pageStream_start :
    p.pageStream o (.start id) = p.pagesFrom 0 id ++ (p.freeLines o).flatMap (p.pagesFrom 0) :=
  p.pageStream_current o

end Pool

end DataPlacement
