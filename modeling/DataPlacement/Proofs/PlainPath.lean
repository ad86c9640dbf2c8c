import DataPlacement.PlainPath
import DataPlacement.Proofs.Pool.Effects
import DataPlacement.Proofs.Pool.Stream

namespace DataPlacement.PlainPath

variable (path : PlainPath) (p : Pool) (pageSize block : Nat)

theorem write_of_invalid {bytes : Nat} (h : bytes = 0 ∨ bytes % pageSize ≠ 0) :
    path.write p pageSize block bytes = .refused (.invalidLength bytes) (path, p) := by
  unfold write
  rw [if_pos h]

/-- A write that is too long for the path is refused and changes nothing. -/
theorem write_of_exhausted {pageSize bytes : Nat} (hzero : bytes ≠ 0)
    (hwhole : bytes % pageSize = 0)
    (hlong : path.availablePages p < bytes / pageSize) :
    path.write p pageSize block bytes = .refused .sharedExhausted (path, p) := by
  simp [write, hzero, hwhole, hlong]

/-- The fill of a plain write. -/
def writeFill (bytes : Nat) : Fill :=
  p.fill none .onDemand path.pointer (pageCounter (bytes / pageSize))

/-- A write that the path has room for is carried out in full. -/
theorem write_of_fits {pageSize bytes : Nat} (hzero : bytes ≠ 0) (hwhole : bytes % pageSize = 0)
    (hfits : bytes / pageSize ≤ path.availablePages p)
    (hpage : path.pointer.page ≤ p.pagesPerLine) :
    let f := path.writeFill p pageSize bytes
    path.write p pageSize block bytes =
      .done ⟨none, block, pageCounter (bytes / pageSize), f.lines, f.retired⟩
        (⟨f.pointer, advance 64 path.hostBytes bytes, advance 64 path.writes 1⟩, f.pool) := by
  have hcount : pageCounter (bytes / pageSize) ≤ p.streamPages none path.pointer :=
    Nat.le_trans (Nat.mod_le _ _) hfits
  have hstarved : (p.fill none .onDemand path.pointer _).starved = false :=
    Pool.starved_fill_eq_false hpage hcount
  simp [write, hzero, hwhole, Nat.not_lt.2 hfits, writeFill, hstarved]

/-- A plain write is refused and changes nothing, or the path has room for it. -/
theorem write_cases (bytes : Nat) :
    (∃ cause, path.write p pageSize block bytes = .refused cause (path, p)) ∨
      bytes ≠ 0 ∧ bytes % pageSize = 0 ∧ bytes / pageSize ≤ path.availablePages p := by
  by_cases hlength : bytes = 0 ∨ bytes % pageSize ≠ 0
  · exact .inl ⟨_, path.write_of_invalid p pageSize block hlength⟩
  · rw [not_or, not_not] at hlength
    obtain ⟨hzero, hwhole⟩ := hlength
    rcases Nat.lt_or_ge (path.availablePages p) (bytes / pageSize) with hlong | hfits
    · exact .inl ⟨_, path.write_of_exhausted p block hzero hwhole hlong⟩
    · exact .inr ⟨hzero, hwhole, hfits⟩

theorem close_of_closed (hline : path.pointer.line = none) :
    path.close p = .done () ({ path with pointer := .closed }, p) := by
  simp [close, hline]

theorem close_of_untouched {path : PlainPath} {p : Pool} {id : LineId} {l : Line}
    (hpointer : path.pointer = ⟨some id, 0⟩) (hline : p.lines[id]? = some l)
    (hstate : l.state = .active) (howner : l.owner = none) (hpages : l.pages = 0) :
    path.close p = .done () ({ path with pointer := .closed }, p.released none id) := by
  have hrelease := Pool.release_of_untouched hline hstate hpages (by rw [howner]; rfl)
  rw [howner] at hrelease
  simp [close, hpointer, hrelease, Outcome.done]

theorem close_of_written {path : PlainPath} {id : LineId} {page : Nat}
    (hpointer : path.pointer = ⟨some id, page⟩) (hpage : page ≠ 0) :
    path.close p = .done () ({ path with pointer := .closed }, p.retire id) := by
  simp [close, hpointer, hpage]

end DataPlacement.PlainPath
