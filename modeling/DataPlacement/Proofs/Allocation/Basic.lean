import DataPlacement.Proofs.Pool.Views
import Mathlib.Logic.Function.Basic

namespace DataPlacement

/-- A pool and its writers. No owner stands for the plain path, `some u` for the unit `u`. -/
structure Allocation where
  pool : Pool
  pointer : Option UnitId → WritePointer

/-- The page count of a line suits its state, and a full line has an age. -/
def Line.Fits (l : Line) (pagesPerLine retirements : Nat) : Prop :=
  match l.state with
  | .free => l.pages = 0
  | .active => l.pages < pagesPerLine
  | .full => (0 < l.pages ∧ l.pages ≤ pagesPerLine) ∧ 0 < l.retiredAt ∧ l.retiredAt ≤ retirements

theorem Line.fits_of_free {l : Line} (hstate : l.state = .free) (pagesPerLine n : Nat) :
    l.Fits pagesPerLine n ↔ l.pages = 0 := by
  simp only [Fits, hstate]

theorem Line.fits_of_active {l : Line} (hstate : l.state = .active) (pagesPerLine n : Nat) :
    l.Fits pagesPerLine n ↔ l.pages < pagesPerLine := by
  simp only [Fits, hstate]

theorem Line.fits_of_full {l : Line} (hstate : l.state = .full) (pagesPerLine n : Nat) :
    l.Fits pagesPerLine n ↔
      (0 < l.pages ∧ l.pages ≤ pagesPerLine) ∧ 0 < l.retiredAt ∧ l.retiredAt ≤ n := by
  simp only [Fits, hstate]

theorem Line.Fits.mono {l : Line} {pagesPerLine n m : Nat} (hfits : l.Fits pagesPerLine n)
    (hle : n ≤ m) : l.Fits pagesPerLine m := by
  unfold Line.Fits at *
  split <;> simp_all
  omega

namespace Allocation

/-- A writer with another pointer. -/
def point (s : Allocation) (o : Option UnitId) (w : WritePointer) : Allocation :=
  { s with pointer := Function.update s.pointer o w }

@[simp] theorem pool_point (s : Allocation) (o : Option UnitId) (w : WritePointer) :
    (s.point o w).pool = s.pool := rfl

@[simp] theorem pointer_point_self (s : Allocation) (o : Option UnitId) (w : WritePointer) :
    (s.point o w).pointer o = w := by
  simp [point]

theorem pointer_point (s : Allocation) (o o' : Option UnitId) (w : WritePointer) :
    (s.point o w).pointer o' = if o' = o then w else s.pointer o' := by
  simp [point, Function.update_apply]

@[simp] theorem point_pointer (s : Allocation) (o : Option UnitId) :
    s.point o (s.pointer o) = s := by
  simp [point]

theorem point_frame (p q : Pool) (frame : Option UnitId → WritePointer) (o : Option UnitId)
    (w w' : WritePointer) :
    point ⟨q, (point ⟨p, frame⟩ o w).pointer⟩ o w' = point ⟨q, frame⟩ o w' := by
  simp [point]

/-- The free lists hold exactly the free lines, each under its owner and once; the pointers lead
to exactly the active lines, each by the pointer of its owner and to its next page; full lines
differ in age. -/
structure Sound (s : Allocation) : Prop where
  positive : 0 < s.pool.pagesPerLine
  nodup : ∀ o, (s.pool.freeLines o).Nodup
  mem_freeLines : ∀ o id, id ∈ s.pool.freeLines o ↔
    ∃ l, s.pool.lines[id]? = some l ∧ l.state = .free ∧ l.owner = o
  current : ∀ o id, (s.pointer o).line = some id ↔
    ∃ l, s.pool.lines[id]? = some l ∧ l.state = .active ∧ l.owner = o
  page : ∀ (id : LineId) (l : Line), s.pool.lines[id]? = some l → l.state = .active →
    l.pages = (s.pointer l.owner).page
  closed : ∀ o, (s.pointer o).line = none → (s.pointer o).page = 0
  fits : ∀ (id : LineId) (l : Line), s.pool.lines[id]? = some l →
    l.Fits s.pool.pagesPerLine s.pool.retirements
  ages : ∀ (i j : LineId) (a b : Line), s.pool.lines[i]? = some a → s.pool.lines[j]? = some b →
    a.state = .full → b.state = .full → a.retiredAt = b.retiredAt → i = j

namespace Sound

variable {s : Allocation}

/-- The line of a pointer is active, belongs to the pointer's writer, and has room. -/
theorem of_pointer (hs : s.Sound) {o : Option UnitId} {id : LineId} {page : Nat}
    (hpointer : s.pointer o = ⟨some id, page⟩) :
    ∃ l, s.pool.lines[id]? = some l ∧ l.state = .active ∧ l.owner = o ∧ l.pages = page ∧
      page < s.pool.pagesPerLine := by
  obtain ⟨l, hline, hstate, howner⟩ := (hs.current o id).1 (by rw [hpointer])
  have hpage : l.pages = page := by
    have h := hs.page id l hline hstate
    rwa [howner, hpointer] at h
  have hfits := (Line.fits_of_active hstate _ _).1 (hs.fits id l hline)
  exact ⟨l, hline, hstate, howner, hpage, hpage ▸ hfits⟩

/-- What a writer puts on its line is recorded in full. -/
theorem program_current (hs : s.Sound) {o : Option UnitId} {id : LineId} {page count : Nat}
    {l : Line}
    (hpointer : s.pointer o = ⟨some id, page⟩) (hline : s.pool.lines[id]? = some l)
    (hroom : page + count ≤ s.pool.pagesPerLine) :
    l.program count s.pool.pagesPerLine = { l with pages := page + count } := by
  obtain ⟨k, hk, -, -, hpages, -⟩ := hs.of_pointer hpointer
  obtain rfl : l = k := Option.some.inj (hline.symm.trans hk)
  rw [← hpages] at hroom ⊢
  exact Line.program_of_fits hroom s.pool.pagesPerLine_lt

theorem eq_closed (hs : s.Sound) {o : Option UnitId} (hline : (s.pointer o).line = none) :
    s.pointer o = .closed := by
  have hpage := hs.closed o hline
  cases hpointer : s.pointer o
  simp_all [WritePointer.closed]

/-- A pointer stands on a page of a line. -/
theorem page_lt (hs : s.Sound) (o : Option UnitId) :
    (s.pointer o).page < s.pool.pagesPerLine := by
  cases hline : (s.pointer o).line with
  | none =>
    rw [hs.closed o hline]
    exact hs.positive
  | some id =>
    have hpointer : s.pointer o = ⟨some id, (s.pointer o).page⟩ := by rw [← hline]
    obtain ⟨-, -, -, -, -, hroom⟩ := hs.of_pointer hpointer
    exact hroom

theorem page_le (hs : s.Sound) (o : Option UnitId) :
    (s.pointer o).page ≤ s.pool.pagesPerLine :=
  Nat.le_of_lt (hs.page_lt o)

theorem free_of_mem (hs : s.Sound) {o : Option UnitId} {id : LineId}
    (hmem : id ∈ s.pool.freeLines o) :
    ∃ l, s.pool.lines[id]? = some l ∧ l.state = .free ∧ l.owner = o ∧ l.pages = 0 := by
  obtain ⟨l, hline, hstate, howner⟩ := (hs.mem_freeLines o id).1 hmem
  exact ⟨l, hline, hstate, howner, (Line.fits_of_free hstate _ _).1 (hs.fits id l hline)⟩

theorem owner_of_mem (hs : s.Sound) {o : Option UnitId} {id : LineId} {l : Line}
    (hmem : id ∈ s.pool.freeLines o) (hline : s.pool.lines[id]? = some l) :
    l.state = .free ∧ l.owner = o := by
  obtain ⟨k, hk, hstate, howner, -⟩ := hs.free_of_mem hmem
  obtain rfl : l = k := Option.some.inj (hline.symm.trans hk)
  exact ⟨hstate, howner⟩

theorem owner_of_current (hs : s.Sound) {o : Option UnitId} {id : LineId} {l : Line}
    (hcurrent : (s.pointer o).line = some id) (hline : s.pool.lines[id]? = some l) :
    l.state = .active ∧ l.owner = o := by
  obtain ⟨k, hk, hactive⟩ := (hs.current o id).1 hcurrent
  obtain rfl : l = k := Option.some.inj (hline.symm.trans hk)
  exact hactive

theorem not_mem_freeLines (hs : s.Sound) {id : LineId} {l : Line}
    (hline : s.pool.lines[id]? = some l) (hstate : l.state ≠ .free) (o : Option UnitId) :
    id ∉ s.pool.freeLines o :=
  fun hmem => hstate (hs.owner_of_mem hmem hline).1

theorem ne_current (hs : s.Sound) {id : LineId} {l : Line}
    (hline : s.pool.lines[id]? = some l) (hstate : l.state ≠ .active) (o : Option UnitId) :
    (s.pointer o).line ≠ some id :=
  fun hcurrent => hstate (hs.owner_of_current hcurrent hline).1

/-- The lists of a change that neither starts nor ends with a free line. -/
theorem mem_freeLines_iff (hs : s.Sound) {id : LineId} {l l' : Line}
    (hline : s.pool.lines[id]? = some l) (hstate : l.state ≠ .free) (hstate' : l'.state ≠ .free)
    (o : Option UnitId) (i : LineId) :
    i ∈ s.pool.freeLines o ↔
      if id = i then l'.state = .free ∧ l'.owner = o else i ∈ s.pool.freeLines o := by
  by_cases hi : id = i
  · subst hi
    simp [hs.not_mem_freeLines hline hstate o, hstate']
  · simp [hi]

/-- A change of one line, with the lists and pointers changed only as that line requires, keeps
an allocation sound. -/
theorem of_change (hs : s.Sound) {t : Allocation} (id : LineId) (l' : Line)
    (hlines : ∀ i : LineId, t.pool.lines[i]? = if id = i then some l' else s.pool.lines[i]?)
    (hcount : t.pool.pagesPerLine = s.pool.pagesPerLine)
    (hretired : s.pool.retirements ≤ t.pool.retirements)
    (hnodup : ∀ o, (t.pool.freeLines o).Nodup)
    (hfree : ∀ o i, i ∈ t.pool.freeLines o ↔
      if id = i then l'.state = .free ∧ l'.owner = o else i ∈ s.pool.freeLines o)
    (hcurrent : ∀ o i, (t.pointer o).line = some i ↔
      if id = i then l'.state = .active ∧ l'.owner = o else (s.pointer o).line = some i)
    (hsame : ∀ o i, id ≠ i → (s.pointer o).line = some i → t.pointer o = s.pointer o)
    (hpage : l'.state = .active → l'.pages = (t.pointer l'.owner).page)
    (hclosed : ∀ o, (t.pointer o).line = none → (t.pointer o).page = 0)
    (hfits : l'.Fits t.pool.pagesPerLine t.pool.retirements)
    (hage : l'.state = .full → ∀ (i : LineId) (l : Line), s.pool.lines[i]? = some l →
      l.state = .full → id ≠ i → l.retiredAt ≠ l'.retiredAt) : t.Sound where
  positive := hcount ▸ hs.positive
  nodup := hnodup
  mem_freeLines o i := by
    rw [hfree, hlines]
    by_cases h : id = i
    · simp [h]
    · simp only [h, if_false]
      exact hs.mem_freeLines o i
  current o i := by
    rw [hcurrent, hlines]
    by_cases h : id = i
    · simp [h]
    · simp only [h, if_false]
      exact hs.current o i
  page i l hline hstate := by
    rw [hlines] at hline
    by_cases h : id = i
    · obtain rfl : l' = l := by simpa [h] using hline
      exact hpage hstate
    · simp only [h, if_false] at hline
      have hline' := (hs.current l.owner i).2 ⟨l, hline, hstate, rfl⟩
      rw [hsame l.owner i h hline']
      exact hs.page i l hline hstate
  closed := hclosed
  fits i l hline := by
    rw [hlines] at hline
    by_cases h : id = i
    · obtain rfl : l' = l := by simpa [h] using hline
      exact hfits
    · simp only [h, if_false] at hline
      rw [hcount]
      exact (hs.fits i l hline).mono hretired
  ages i j a b ha hb hfa hfb heq := by
    rw [hlines] at ha hb
    by_cases hi : id = i <;> by_cases hj : id = j
    · exact hi.symm.trans hj
    · obtain rfl : l' = a := by simpa [hi] using ha
      simp only [hj, if_false] at hb
      exact absurd heq.symm (hage hfa j b hb hfb hj)
    · obtain rfl : l' = b := by simpa [hj] using hb
      simp only [hi, if_false] at ha
      exact absurd heq (hage hfb i a ha hfa hi)
    · simp only [hi, if_false] at ha
      simp only [hj, if_false] at hb
      exact hs.ages i j a b ha hb hfa hfb heq

/-- A change of one line by one writer. Before and after it, the writer has that line or none. -/
theorem of_writer (hs : s.Sound) {p : Pool} {o : Option UnitId} {id : LineId} {l : Line}
    {w : WritePointer} (l' : Line) (hline : s.pool.lines[id]? = some l)
    (hlines : ∀ i : LineId, p.lines[i]? = if id = i then some l' else s.pool.lines[i]?)
    (hcount : p.pagesPerLine = s.pool.pagesPerLine)
    (hretired : s.pool.retirements ≤ p.retirements)
    (hnodup : ∀ o, (p.freeLines o).Nodup)
    (hfree : ∀ o i, i ∈ p.freeLines o ↔
      if id = i then l'.state = .free ∧ l'.owner = o else i ∈ s.pool.freeLines o)
    (hbefore : ∀ i, (s.pointer o).line = some i → id = i)
    (howned : l.state = .active → l.owner = o)
    (hafter : w = if l'.state = .active then ⟨some id, l'.pages⟩ else .closed)
    (howner : l'.state = .active → l'.owner = o)
    (hfits : l'.Fits p.pagesPerLine p.retirements)
    (hage : l'.state = .full → ∀ (i : LineId) (l : Line), s.pool.lines[i]? = some l →
      l.state = .full → id ≠ i → l.retiredAt ≠ l'.retiredAt) :
    (point ⟨p, s.pointer⟩ o w).Sound := by
  apply hs.of_change id l' hlines hcount hretired hnodup hfree
  case hcurrent =>
    intro o' i
    rw [pointer_point]
    by_cases ho : o' = o
    · subst ho
      by_cases hid : id = i
      · subst hid
        by_cases hstate : l'.state = .active <;> simp [hafter, hstate, howner, WritePointer.closed]
      · have hi : (s.pointer o').line ≠ some i := fun h => hid (hbefore i h)
        by_cases hstate : l'.state = .active <;> simp [hafter, hstate, hid, hi, WritePointer.closed]
    · by_cases hid : id = i
      · subst hid
        have hother : (s.pointer o').line ≠ some id := by
          intro h
          obtain ⟨hactive, hl⟩ := hs.owner_of_current h hline
          exact ho (hl.symm.trans (howned hactive))
        have hnot : ¬ (l'.state = .active ∧ l'.owner = o') :=
          fun h => ho (h.2.symm.trans (howner h.1))
        simp [ho, hother, hnot]
      · simp [ho, hid]
  case hsame =>
    intro o' i hne hi
    rw [pointer_point]
    split
    · next heq =>
      subst heq
      exact absurd (hbefore i hi) hne
    · rfl
  case hpage =>
    intro hstate
    rw [howner hstate, pointer_point_self, hafter, if_pos hstate]
  case hclosed =>
    intro o' hnone
    rw [pointer_point] at hnone ⊢
    split at hnone
    · next heq =>
      by_cases hstate : l'.state = .active
      · simp [hafter, hstate] at hnone
      · simp [heq, hafter, hstate, WritePointer.closed]
    · next hne => simpa [hne] using hs.closed o' hnone
  case hfits => exact hfits
  case hage => exact hage

end Sound

end Allocation

end DataPlacement
