import DataPlacement.Proofs.Pool.Effects

namespace DataPlacement.Pool

variable {p p' : Pool} {o : Option UnitId} {pointer w : WritePointer} {line : LineId} {page : Nat}

/-- Lines of a writer's stream: its current one, if it has one, and its free ones. -/
def streamLines (p : Pool) (o : Option UnitId) (pointer : WritePointer) : Nat :=
  (if pointer.line.isSome then 1 else 0) + p.freeCount o

theorem streamPages_start (p : Pool) (o : Option UnitId) (line : LineId) :
    p.streamPages o ⟨some line, page⟩ = p.pagesPerLine - page + p.freeCount o * p.pagesPerLine := by
  simp [streamPages]

theorem streamPages_closed (p : Pool) (o : Option UnitId) (hline : pointer.line = none) :
    p.streamPages o pointer = p.freeCount o * p.pagesPerLine := by
  simp [streamPages, hline]

theorem freeCount_taken {rest : List LineId} (hfree : p.freeLines o = line :: rest) :
    (p.taken o line rest).freeCount o = rest.length ∧ p.freeCount o = rest.length + 1 := by
  constructor
  · rw [freeCount_eq_length, freeLines_taken o hfree, if_pos rfl]
  · rw [freeCount_eq_length, hfree, List.length_cons]

/-- Finding the line to write on takes nothing from the stream. -/
theorem stream_nextPage (hpage : pointer.page ≤ p.pagesPerLine)
    (hnext : p.nextPage o pointer = (some (line, page), p')) :
    p'.streamPages o ⟨some line, page⟩ = p.streamPages o pointer ∧
      p'.freeCount o + 1 = p.streamLines o pointer ∧ page ≤ p'.pagesPerLine := by
  obtain ⟨current, offset⟩ := pointer
  cases current with
  | some current =>
    obtain ⟨⟨rfl, rfl⟩, rfl⟩ : (current = line ∧ offset = page) ∧ p = p' := by
      simpa [nextPage] using hnext
    exact ⟨rfl, by simp [streamLines, Nat.add_comm], hpage⟩
  | none =>
    cases hfree : p.freeLines o with
    | nil => simp [nextPage, take_of_freeLines_eq_nil hfree] at hnext
    | cons first rest =>
      obtain ⟨⟨rfl, rfl⟩, rfl⟩ : (first = line ∧ 0 = page) ∧ p.taken o first rest = p' := by
        simpa [nextPage, take_of_freeLines_eq_cons hfree] using hnext
      obtain ⟨hafter, hbefore⟩ := freeCount_taken hfree
      rw [streamPages_start, streamPages_closed p o rfl, hafter, hbefore, pagesPerLine_taken]
      refine ⟨?_, by simp [streamLines, hbefore], Nat.zero_le _⟩
      rw [Nat.succ_mul]
      omega

theorem eq_of_nextPage_none (hnext : p.nextPage o pointer = (none, p')) : p' = p := by
  obtain ⟨current, offset⟩ := pointer
  cases current with
  | some current => simp [nextPage] at hnext
  | none =>
    cases hfree : p.freeLines o with
    | nil => simpa [nextPage, take_of_freeLines_eq_nil hfree, eq_comm] using hnext
    | cons first rest => simp [nextPage, take_of_freeLines_eq_cons hfree] at hnext

theorem streamPages_eq_zero_of_nextPage (hnext : p.nextPage o pointer = (none, p')) :
    p.streamPages o pointer = 0 := by
  obtain ⟨current, offset⟩ := pointer
  cases current with
  | some current => simp [nextPage] at hnext
  | none =>
    cases hfree : p.freeLines o with
    | nil => simp [streamPages, freeCount_eq_length, hfree]
    | cons first rest => simp [nextPage, take_of_freeLines_eq_cons hfree] at hnext

/-- Behind a full line the stream consists of the free lines, opened or not. -/
theorem stream_rollOver {rollover : Rollover} (hroll : p.rollOver o rollover = (w, p')) :
    p'.streamPages o w = p.freeCount o * p.pagesPerLine ∧ p'.streamLines o w = p.freeCount o ∧
      w.page = 0 := by
  cases rollover with
  | onDemand =>
    obtain ⟨rfl, rfl⟩ : WritePointer.closed = w ∧ p = p' := by simpa [rollOver] using hroll
    exact ⟨streamPages_closed p o rfl, by simp [streamLines, WritePointer.closed], rfl⟩
  | atOnce =>
    cases hfree : p.freeLines o with
    | nil =>
      obtain ⟨rfl, rfl⟩ : WritePointer.closed = w ∧ p = p' := by
        simpa [rollOver, take_of_freeLines_eq_nil hfree] using hroll
      exact ⟨streamPages_closed p o rfl, by simp [streamLines, WritePointer.closed], rfl⟩
    | cons first rest =>
      obtain ⟨rfl, rfl⟩ : WritePointer.start first = w ∧ p.taken o first rest = p' := by
        simpa [rollOver, take_of_freeLines_eq_cons hfree] using hroll
      obtain ⟨hafter, hbefore⟩ := freeCount_taken hfree
      rw [WritePointer.start, streamPages_start, hafter, hbefore, pagesPerLine_taken]
      refine ⟨by rw [Nat.succ_mul]; omega, ?_, rfl⟩
      simp [streamLines, hafter, Nat.add_comm]

theorem freeCount_retire_program (p : Pool) (o : Option UnitId) (line : LineId) (count : Nat) :
    ((p.program line count).retire line).freeCount o = p.freeCount o := by
  simp [freeCount_eq_length]

/-- A stream that is long enough never runs out of lines. -/
theorem starved_fillLines_eq_false {rollover : Rollover} {fuel : Nat} {pages : Nat}
    (hpage : pointer.page ≤ p.pagesPerLine) (hpages : pages ≤ p.streamPages o pointer)
    (hfuel : p.streamLines o pointer ≤ fuel) :
    (fillLines o rollover fuel p pointer pages).starved = false := by
  induction fuel generalizing p pointer pages with
  | zero =>
    have hnone : p.freeCount o = 0 ∧ pointer.line.isSome = false := by
      unfold streamLines at hfuel
      split at hfuel <;> simp_all
    have hzero : pages = 0 := by simpa [streamPages, hnone] using hpages
    simp [hzero, fillLines]
  | succ fuel ih =>
    cases pages with
    | zero => simp [fillLines]
    | succ pages =>
      rw [fillLines]
      split
      · next hnext =>
        have hempty := streamPages_eq_zero_of_nextPage hnext
        omega
      · next line page q hnext =>
        obtain ⟨hstream, hlines, hoffset⟩ := stream_nextPage hpage hnext
        rw [streamPages_start] at hstream
        dsimp only
        split
        · next hlast =>
          cases hroll : ((q.program line (min (pages + 1) (q.pagesPerLine - page))).retire
            line).rollOver o rollover with
          | mk w r =>
            obtain ⟨hrest, hrestLines, hstart⟩ := stream_rollOver hroll
            rw [freeCount_retire_program] at hrest hrestLines
            simp only [pagesPerLine_retire, pagesPerLine_program] at hrest
            simp only [Fill.precededBy]
            exact ih (by omega) (by omega) (by omega)
        · next hroom =>
          simp only [Fill.precededBy]
          have hdone : pages + 1 - min (pages + 1) (q.pagesPerLine - page) = 0 := by
            simp only [pagesPerLine_program] at hroom
            omega
          rw [hdone]
          simp [fillLines]

theorem starved_fill_eq_false {rollover : Rollover} {pages : Nat}
    (hpage : pointer.page ≤ p.pagesPerLine) (hpages : pages ≤ p.streamPages o pointer) :
    (p.fill o rollover pointer pages).starved = false :=
  starved_fillLines_eq_false hpage hpages (by unfold streamLines; split <;> omega)

/-- A fill that touched no line left the pool and the pointer alone. -/
theorem fillLines_of_lines_eq_nil {rollover : Rollover} {fuel pages : Nat}
    (hlines : (fillLines o rollover fuel p pointer pages).lines = []) :
    (fillLines o rollover fuel p pointer pages).pool = p ∧
      (fillLines o rollover fuel p pointer pages).pointer = pointer := by
  cases fuel with
  | zero => cases pages <;> exact ⟨rfl, rfl⟩
  | succ fuel =>
    cases pages with
    | zero => exact ⟨rfl, rfl⟩
    | succ pages =>
      rw [fillLines] at hlines ⊢
      split at hlines
      · next hnext =>
        exact ⟨eq_of_nextPage_none hnext, rfl⟩
      · dsimp only at hlines
        split at hlines <;> simp [Fill.precededBy] at hlines

theorem pointer_fill_of_lines_eq_nil {rollover : Rollover} {pages : Nat}
    (hlines : (p.fill o rollover pointer pages).lines = []) :
    (p.fill o rollover pointer pages).pointer = pointer :=
  (fillLines_of_lines_eq_nil hlines).2

end DataPlacement.Pool
