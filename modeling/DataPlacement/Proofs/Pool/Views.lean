import DataPlacement.Pool.Fill
import Mathlib.Data.List.Nodup

namespace DataPlacement.Pool

variable (p : Pool) (o o' : Option UnitId) (id i : LineId)

theorem getElem?_updateLine (f : Line → Line) :
    (p.updateLine id f).lines[i]? = if id = i then p.lines[i]?.map f else p.lines[i]? := by
  simp only [updateLine, Array.getElem?_modify]

/-- The lines after the record of a known line was changed. -/
theorem ite_map_line {p : Pool} {id : LineId} {l : Line} (hline : p.lines[id]? = some l)
    (f : Line → Line) (i : LineId) :
    (if id = i then p.lines[i]?.map f else p.lines[i]?) =
      if id = i then some (f l) else p.lines[i]? := by
  by_cases h : id = i
  · subst h
    simp [hline]
  · simp [h]

@[simp] theorem size_lines_updateLine (f : Line → Line) :
    (p.updateLine id f).lines.size = p.lines.size := by
  simp [updateLine]

@[simp] theorem pagesPerLine_updateLine (f : Line → Line) :
    (p.updateLine id f).pagesPerLine = p.pagesPerLine := rfl

@[simp] theorem retirements_updateLine (f : Line → Line) :
    (p.updateLine id f).retirements = p.retirements := rfl

@[simp] theorem reserved_updateLine (f : Line → Line) :
    (p.updateLine id f).reserved = p.reserved := rfl

@[simp] theorem freeList_updateLine (f : Line → Line) :
    (p.updateLine id f).freeList o = p.freeList o := by
  cases o <;> rfl

@[simp] theorem freeLines_updateLine (f : Line → Line) :
    (p.updateLine id f).freeLines o = p.freeLines o := by
  simp [freeLines]

@[simp] theorem lines_setFreeList (list : FreeList) : (p.setFreeList o list).lines = p.lines := by
  cases o <;> rfl

@[simp] theorem pagesPerLine_setFreeList (list : FreeList) :
    (p.setFreeList o list).pagesPerLine = p.pagesPerLine := by
  cases o <;> rfl

@[simp] theorem retirements_setFreeList (list : FreeList) :
    (p.setFreeList o list).retirements = p.retirements := by
  cases o <;> rfl

@[simp] theorem size_reserved_setFreeList (list : FreeList) :
    (p.setFreeList o list).reserved.size = p.reserved.size := by
  cases o <;> simp [setFreeList]

theorem freeLines_setFreeList (list : FreeList) (hlist : p.hasList o) :
    (p.setFreeList o list).freeLines o' = if o' = o then list.toList else p.freeLines o' := by
  cases o with
  | none => cases o' <;> simp [setFreeList, freeLines, freeList]
  | some u =>
    have hu : u < p.reserved.size := by simpa [hasList] using hlist
    cases o' with
    | none => simp [setFreeList, freeLines, freeList]
    | some u' =>
      by_cases h : u' = u
      · subst h
        simp [setFreeList, freeLines, freeList, hu]
      · simp [setFreeList, freeLines, freeList, h, Ne.symm h]

/-- Only an owner with a list has free lines. -/
theorem hasList_of_mem_freeLines {p : Pool} {o : Option UnitId} {id : LineId}
    (hmem : id ∈ p.freeLines o) : p.hasList o := by
  cases o with
  | none => rfl
  | some u =>
    by_contra hout
    have hsize : p.reserved.size ≤ u := by simpa [hasList] using hout
    simp [freeLines, freeList, hsize] at hmem

theorem freeCount_eq_length : p.freeCount o = (p.freeLines o).length := by
  simp [freeCount, freeLines]

theorem size_shared_eq_length : p.shared.size = (p.freeLines none).length := by
  simp [freeLines, freeList]

theorem ownerOf_eq {p : Pool} {id : LineId} {l : Line} (hline : p.lines[id]? = some l) :
    p.ownerOf id = l.owner := by
  simp [ownerOf, hline]

/-- A change that keeps the owner in a record keeps the owners of all lines. -/
theorem ownerOf_updateLine {f : Line → Line} (hf : ∀ l, (f l).owner = l.owner) :
    (p.updateLine id f).ownerOf i = p.ownerOf i := by
  rw [ownerOf, ownerOf, getElem?_updateLine]
  split
  · cases p.lines[i]? <;> simp [hf]
  · rfl

/-- The pool after moves that leave the lines with their owners. -/
structure Keeps (p q : Pool) : Prop where
  owners : ∀ id, q.ownerOf id = p.ownerOf id
  size : q.lines.size = p.lines.size
  reserved : q.reserved.size = p.reserved.size
  pagesPerLine : q.pagesPerLine = p.pagesPerLine

namespace Keeps

variable {p q r : Pool}

theorem refl (p : Pool) : Keeps p p := ⟨fun _ => rfl, rfl, rfl, rfl⟩

theorem trans (h : Keeps p q) (h' : Keeps q r) : Keeps p r :=
  ⟨fun id => (h'.owners id).trans (h.owners id), h'.size.trans h.size,
    h'.reserved.trans h.reserved, h'.pagesPerLine.trans h.pagesPerLine⟩

theorem hasList (h : Keeps p q) (o : Option UnitId) : q.hasList o = p.hasList o := by
  cases o <;> simp [Pool.hasList, h.reserved]

theorem updateLine (p : Pool) (id : LineId) {f : Line → Line} (hf : ∀ l, (f l).owner = l.owner) :
    Keeps p (p.updateLine id f) :=
  ⟨fun i => ownerOf_updateLine p id i hf, by simp, rfl, rfl⟩

theorem setFreeList (p : Pool) (o : Option UnitId) (list : FreeList) :
    Keeps p (p.setFreeList o list) :=
  ⟨fun i => by simp [ownerOf], by simp, by simp, by simp⟩

end Keeps

/-! ### Taking a line -/

theorem take_of_freeLines_eq_nil {p : Pool} {o : Option UnitId} (hfree : p.freeLines o = []) :
    p.take o = (none, p) := by
  have htake : (p.freeList o).take? = none := by
    rw [FreeList.take?_eq_uncons]
    simp only [freeLines] at hfree
    rw [hfree]
    rfl
  simp [take, htake]

/-- The pool after the first of an owner's free lines was taken; `rest` are the others. -/
def taken (rest : List LineId) : Pool :=
  (p.setFreeList o (.ofList rest)).updateLine id Line.activate

theorem take_of_freeLines_eq_cons {p : Pool} {o : Option UnitId} {id : LineId}
    {rest : List LineId} (hfree : p.freeLines o = id :: rest) :
    p.take o = (some id, p.taken o id rest) := by
  have htake : (p.freeList o).take? = some (id, .ofList rest) := by
    rw [FreeList.take?_eq_uncons]
    simp only [freeLines] at hfree
    rw [hfree]
    rfl
  simp [take, htake, taken]

@[simp] theorem getElem?_taken (rest : List LineId) :
    (p.taken o id rest).lines[i]? =
      if id = i then p.lines[i]?.map Line.activate else p.lines[i]? := by
  rw [taken, getElem?_updateLine, lines_setFreeList]

@[simp] theorem pagesPerLine_taken (rest : List LineId) :
    (p.taken o id rest).pagesPerLine = p.pagesPerLine := by
  simp [taken]

@[simp] theorem retirements_taken (rest : List LineId) :
    (p.taken o id rest).retirements = p.retirements := by
  simp [taken]

@[simp] theorem size_reserved_taken (rest : List LineId) :
    (p.taken o id rest).reserved.size = p.reserved.size := by
  simp [taken]

theorem keeps_taken (rest : List LineId) : Keeps p (p.taken o id rest) :=
  (Keeps.setFreeList p o _).trans (.updateLine _ id fun _ => rfl)

theorem freeLines_taken {p : Pool} {o : Option UnitId} {id : LineId} {rest : List LineId}
    (hfree : p.freeLines o = id :: rest) :
    (p.taken o id rest).freeLines o' = if o' = o then rest else p.freeLines o' := by
  have hmem : id ∈ p.freeLines o := by simp [hfree]
  have hlist : p.hasList o := hasList_of_mem_freeLines hmem
  rw [taken, freeLines_updateLine, freeLines_setFreeList p o o' _ hlist, FreeList.toList_ofList]

end DataPlacement.Pool
