import DataPlacement.Proofs.Pool.Stream

namespace DataPlacement

/-- The pointer has passed a page of its line, if it has one. -/
def WritePointer.Begun (w : WritePointer) : Prop := ∀ id, w.line = some id → w.page ≠ 0

theorem WritePointer.begun_closed : WritePointer.closed.Begun := by
  intro id hline
  cases hline

namespace Pool

variable {p p' : Pool} {o : Option UnitId} {pointer w : WritePointer} {line : LineId}
  {page fuel pages : Nat} {rollover : Rollover}

/-- Finding the line to write on stays on the page of the pointer. -/
theorem page_nextPage (hclosed : pointer.line = none → pointer.page = 0)
    (hnext : p.nextPage o pointer = (some (line, page), p')) :
    page = pointer.page ∧ p'.pagesPerLine = p.pagesPerLine := by
  obtain ⟨current, offset⟩ := pointer
  cases current with
  | some current =>
    obtain ⟨⟨rfl, rfl⟩, rfl⟩ : (current = line ∧ offset = page) ∧ p = p' := by
      simpa [nextPage] using hnext
    exact ⟨rfl, rfl⟩
  | none =>
    have hstart : offset = 0 := hclosed rfl
    cases hfree : p.freeLines o with
    | nil => simp [nextPage, take_of_freeLines_eq_nil hfree] at hnext
    | cons first rest =>
      obtain ⟨⟨rfl, rfl⟩, rfl⟩ : (first = line ∧ 0 = page) ∧ p.taken o first rest = p' := by
        simpa [nextPage, take_of_freeLines_eq_cons hfree] using hnext
      exact ⟨hstart.symm, pagesPerLine_taken p o first rest⟩

theorem pagesPerLine_rollOver (hroll : p.rollOver o rollover = (w, p')) :
    p'.pagesPerLine = p.pagesPerLine := by
  cases rollover with
  | onDemand =>
    obtain ⟨-, rfl⟩ : WritePointer.closed = w ∧ p = p' := by simpa [rollOver] using hroll
    rfl
  | atOnce =>
    cases hfree : p.freeLines o with
    | nil =>
      obtain ⟨-, rfl⟩ : WritePointer.closed = w ∧ p = p' := by
        simpa [rollOver, take_of_freeLines_eq_nil hfree] using hroll
      rfl
    | cons first rest =>
      obtain ⟨-, rfl⟩ : WritePointer.start first = w ∧ p.taken o first rest = p' := by
        simpa [rollOver, take_of_freeLines_eq_cons hfree] using hroll
      exact pagesPerLine_taken p o first rest

/-- A fill that is not starved ends where its pages end: on the lines that it completed and on the
page of its pointer. -/
theorem programmed_fillLines (hpage : pointer.page ≤ p.pagesPerLine)
    (hclosed : pointer.line = none → pointer.page = 0)
    (hfed : (fillLines o rollover fuel p pointer pages).starved = false) :
    let f := fillLines o rollover fuel p pointer pages
    f.retired.length * p.pagesPerLine + f.pointer.page = pointer.page + pages := by
  induction fuel generalizing p pointer pages with
  | zero =>
    cases pages with
    | zero => simp [fillLines]
    | succ pages => simp [fillLines] at hfed
  | succ fuel ih =>
    cases pages with
    | zero => simp [fillLines]
    | succ pages =>
      rw [fillLines] at hfed ⊢
      split at hfed
      · cases hfed
      · next line page q hnext =>
        obtain ⟨rfl, hsize⟩ := page_nextPage hclosed hnext
        dsimp only at hfed ⊢
        rw [pagesPerLine_program, hsize] at hfed ⊢
        split at hfed
        · next hlast =>
          -- The line is completed, and the rest begins on the first page of another one.
          rw [if_pos hlast]
          cases hroll : ((q.program line (min (pages + 1) (p.pagesPerLine - pointer.page))).retire
            line).rollOver o rollover with
          | mk w r =>
            have hstart := (stream_rollOver hroll).2.2
            have hsame := pagesPerLine_rollOver hroll
            rw [pagesPerLine_retire, pagesPerLine_program, hsize] at hsame
            simp only [hroll, Fill.precededBy] at hfed ⊢
            have hrest := ih (by omega) (fun _ => hstart) hfed
            rw [hsame, hstart] at hrest
            simp only [if_true, List.length_cons, Nat.succ_mul]
            omega
        · next hstay =>
          -- The pages end on this line.
          rw [if_neg hstay]
          have hdone : pages + 1 - min (pages + 1) (p.pagesPerLine - pointer.page) = 0 := by omega
          simp only [hdone, fillLines, Fill.precededBy]
          simp
          omega

theorem programmed_fill (rollover : Rollover) (hpage : pointer.page ≤ p.pagesPerLine)
    (hclosed : pointer.line = none → pointer.page = 0)
    (hroom : pages ≤ p.streamPages o pointer) :
    let f := p.fill o rollover pointer pages
    f.retired.length * p.pagesPerLine + f.pointer.page = pointer.page + pages :=
  programmed_fillLines hpage hclosed (starved_fill_eq_false hpage hroom)

/-- Whoever opens lines at once and is left without one has no free line. -/
theorem freeLines_rollOver_atOnce (hroll : p.rollOver o .atOnce = (w, p'))
    (hnone : w.line = none) : p'.freeLines o = [] := by
  cases hfree : p.freeLines o with
  | nil =>
    obtain ⟨-, rfl⟩ : WritePointer.closed = w ∧ p = p' := by
      simpa [rollOver, take_of_freeLines_eq_nil hfree] using hroll
    exact hfree
  | cons first rest =>
    obtain ⟨rfl, -⟩ : WritePointer.start first = w ∧ p.taken o first rest = p' := by
      simpa [rollOver, take_of_freeLines_eq_cons hfree] using hroll
    cases hnone

theorem freeLines_fillLines_of_ranDry (hpage : pointer.page ≤ p.pagesPerLine)
    (hdry : (fillLines o .atOnce fuel p pointer pages).ranDry) :
    (fillLines o .atOnce fuel p pointer pages).pool.freeLines o = [] := by
  induction fuel generalizing p pointer pages with
  | zero => cases pages <;> simp [fillLines, Fill.ranDry] at hdry
  | succ fuel ih =>
    cases pages with
    | zero => simp [fillLines, Fill.ranDry] at hdry
    | succ pages =>
      rw [fillLines] at hdry ⊢
      split at hdry
      · simp [Fill.ranDry] at hdry
      · next line page q hnext =>
        obtain ⟨-, -, hoffset⟩ := stream_nextPage hpage hnext
        dsimp only at hdry ⊢
        split at hdry
        · next hlast =>
          rw [if_pos hlast]
          cases hroll : ((q.program line (min (pages + 1) (q.pagesPerLine - page))).retire
            line).rollOver o .atOnce with
          | mk w r =>
            simp only [hroll, Fill.precededBy] at hdry ⊢
            generalize hrest : fillLines o .atOnce fuel r w _ = f at hdry ⊢
            cases hlines : f.lines with
            | nil =>
              subst hrest
              obtain ⟨hpool, hpointer⟩ := fillLines_of_lines_eq_nil hlines
              rw [hpool]
              apply freeLines_rollOver_atOnce hroll
              simpa [Fill.ranDry, hpointer] using hdry
            | cons first lines =>
              subst hrest
              have hstart := (stream_rollOver hroll).2.2
              refine ih (by omega) ?_
              simpa [Fill.ranDry, hlines] using hdry
        · next hstay =>
          -- A line that was not completed is still the current one.
          have hdone : pages + 1 - min (pages + 1) (q.pagesPerLine - page) = 0 := by
            rw [pagesPerLine_program] at hstay
            omega
          simp [hdone, fillLines, Fill.precededBy, Fill.ranDry] at hdry

/-- A writer that opens lines on demand never waits on the first page of one. -/
theorem begun_fillLines (hbegun : pointer.Begun) :
    (fillLines o .onDemand fuel p pointer pages).pointer.Begun := by
  induction fuel generalizing p pointer pages with
  | zero => cases pages <;> exact hbegun
  | succ fuel ih =>
    cases pages with
    | zero => exact hbegun
    | succ pages =>
      rw [fillLines]
      split
      · exact hbegun
      · next line page q hnext =>
        dsimp only
        split
        · exact ih WritePointer.begun_closed
        · next hstay =>
          refine ih fun id _ => ?_
          rw [pagesPerLine_program] at hstay
          -- A stretch without pages would have ended on the last page.
          change page + min (pages + 1) (q.pagesPerLine - page) ≠ 0
          omega

theorem begun_fill (hbegun : pointer.Begun) (p : Pool) (o : Option UnitId) (pages : Nat) :
    (p.fill o .onDemand pointer pages).pointer.Begun :=
  begun_fillLines hbegun

end Pool

end DataPlacement
