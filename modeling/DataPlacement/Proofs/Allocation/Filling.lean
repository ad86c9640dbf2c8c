import DataPlacement.Proofs.Allocation.Traffic
import DataPlacement.Proofs.Pool.Stream

namespace DataPlacement.Allocation

variable {W : Option UnitId → Prop} {frame : Option UnitId → WritePointer} {o : Option UnitId}
  {p p' : Pool} {w w' : WritePointer}

/-! ### Opening lines -/

/-- Among the steps is that of a writer without a line that takes its first free one. -/
def HasOpening {ε : Type} (step : Allocation → List ε → Allocation → Prop) (o : Option UnitId) :
    Prop :=
  ∀ (s : Allocation) (id : LineId) (rest : List LineId), s.pointer o = .closed →
    s.pool.freeLines o = id :: rest →
      step s [] (point ⟨s.pool.taken o id rest, s.pointer⟩ o (.start id))

theorem hasOpening_traffic (ho : W o) : HasOpening (Traffic W) o :=
  fun _ _ _ hpointer hfree => .opens ho hpointer hfree

section Opening

variable {ε : Type} {step : Allocation → List ε → Allocation → Prop}
  (hopening : HasOpening step o)
include hopening

theorem steps_open {id : LineId} {rest : List LineId} (hfree : p.freeLines o = id :: rest) :
    Steps step (point ⟨p, frame⟩ o .closed) []
      (point ⟨p.taken o id rest, frame⟩ o (.start id)) := by
  have h := hopening (point ⟨p, frame⟩ o .closed) id rest (pointer_point_self _ _ _) hfree
  rw [pool_point, point_frame] at h
  exact .single h

/-- Finding the line to write on opens at most one line. -/
theorem steps_nextPage (hs : (point ⟨p, frame⟩ o w).Sound) {line : LineId} {page : Nat}
    (hnext : p.nextPage o w = (some (line, page), p')) :
    Steps step (point ⟨p, frame⟩ o w) [] (point ⟨p', frame⟩ o ⟨some line, page⟩) := by
  obtain ⟨current, offset⟩ := w
  cases current with
  | some current =>
    obtain ⟨⟨rfl, rfl⟩, rfl⟩ : (current = line ∧ offset = page) ∧ p = p' := by
      simpa [Pool.nextPage] using hnext
    exact .refl _
  | none =>
    have hclosed := hs.eq_closed (o := o) (by rw [pointer_point_self])
    rw [pointer_point_self] at hclosed
    cases hfree : p.freeLines o with
    | nil => simp [Pool.nextPage, Pool.take_of_freeLines_eq_nil hfree] at hnext
    | cons first rest =>
      obtain ⟨⟨rfl, rfl⟩, rfl⟩ : (first = line ∧ 0 = page) ∧ p.taken o first rest = p' := by
        simpa [Pool.nextPage, Pool.take_of_freeLines_eq_cons hfree] using hnext
      rw [hclosed]
      exact steps_open hopening hfree

/-- Rolling over opens at most one line. -/
theorem steps_rollOver {rollover : Rollover} (hroll : p.rollOver o rollover = (w, p')) :
    Steps step (point ⟨p, frame⟩ o .closed) [] (point ⟨p', frame⟩ o w) := by
  cases rollover with
  | onDemand =>
    obtain ⟨rfl, rfl⟩ : WritePointer.closed = w ∧ p = p' := by simpa [Pool.rollOver] using hroll
    exact .refl _
  | atOnce =>
    cases hfree : p.freeLines o with
    | nil =>
      obtain ⟨rfl, rfl⟩ : WritePointer.closed = w ∧ p = p' := by
        simpa [Pool.rollOver, Pool.take_of_freeLines_eq_nil hfree] using hroll
      exact .refl _
    | cons first rest =>
      obtain ⟨rfl, rfl⟩ : WritePointer.start first = w ∧ p.taken o first rest = p' := by
        simpa [Pool.rollOver, Pool.take_of_freeLines_eq_cons hfree] using hroll
      exact steps_open hopening hfree

end Opening

/-! ### Stretches -/

/-- One stretch of a fill: the line to write on is found, pages are written to it, and it is given
up if it became full. The flag tells whether it did. -/
inductive Stretch (o : Option UnitId) (rollover : Rollover) (p : Pool) (w : WritePointer)
    (line : LineId) : Pool → WritePointer → Bool → Prop where
  | stays {q : Pool} {page count : Nat} (hnext : p.nextPage o w = (some (line, page), q))
      (hcount : 0 < count) (hroom : page + count < q.pagesPerLine) :
      Stretch o rollover p w line (q.program line count) ⟨some line, page + count⟩ false
  | fills {q r : Pool} {page count : Nat} {w' : WritePointer}
      (hnext : p.nextPage o w = (some (line, page), q)) (hcount : 0 < count)
      (hlast : page + count = q.pagesPerLine)
      (hroll : ((q.program line count).retire line).rollOver o rollover = (w', r)) :
      Stretch o rollover p w line r w' true

/-- Writing further pages finds no line, or begins with a stretch. -/
theorem fillLines_succ (hs : (point ⟨p, frame⟩ o w).Sound) (rollover : Rollover)
    (fuel pages : Nat) :
    let f := Pool.fillLines o rollover (fuel + 1) p w (pages + 1)
    f = { pool := p, pointer := w, starved := true } ∨
      ∃ line q w' full rest, Stretch o rollover p w line q w' full ∧
        f = (Pool.fillLines o rollover fuel q w' rest).precededBy line full := by
  dsimp only
  rw [Pool.fillLines]
  split
  · next hnext =>
    rw [Pool.eq_of_nextPage_none hnext]
    exact .inl rfl
  · next line page q hnext =>
    have hopened := sound_of_traffic
      (steps_nextPage (hasOpening_traffic (W := fun _ => True) trivial) hs hnext) hs
    obtain ⟨-, -, -, -, -, hroom⟩ := hopened.of_pointer (pointer_point_self _ _ _)
    simp only [pool_point] at hroom
    have hcount : 0 < min (pages + 1) (q.pagesPerLine - page) := by omega
    dsimp only
    split
    · next hlast => exact .inr ⟨line, _, _, true, _, .fills hnext hcount hlast rfl, rfl⟩
    · next hstay =>
      rw [Pool.pagesPerLine_program] at hstay
      exact .inr ⟨line, _, _, false, _, .stays hnext hcount (by omega), rfl⟩

theorem Stretch.steps (ho : W o) (hs : (point ⟨p, frame⟩ o w).Sound) {rollover : Rollover}
    {line : LineId} {full : Bool} (h : Stretch o rollover p w line p' w' full) :
    Steps (Traffic W) (point ⟨p, frame⟩ o w) [.wrote o line] (point ⟨p', frame⟩ o w') := by
  cases h with
  | @stays q page count hnext hcount hroom =>
    have hwrite := Traffic.writes ho (s := point ⟨q, frame⟩ o ⟨some line, page⟩)
      (pointer_point_self _ _ _) hcount hroom
    rw [pool_point, point_frame] at hwrite
    exact (steps_nextPage (hasOpening_traffic ho) hs hnext).tail hwrite
  | @fills q r page count w' hnext hcount hlast hroll =>
    have hfill := Traffic.fills ho (s := point ⟨q, frame⟩ o ⟨some line, page⟩)
      (pointer_point_self _ _ _) hcount hlast
    rw [pool_point, point_frame] at hfill
    have hfilled := (steps_nextPage (hasOpening_traffic ho) hs hnext).tail hfill
    simpa using hfilled.trans (steps_rollOver (hasOpening_traffic ho) hroll)

theorem steps_fillLines (frame : Option UnitId → WritePointer) (ho : W o) (rollover : Rollover)
    (fuel pages : Nat) (hs : (point ⟨p, frame⟩ o w).Sound) :
    let f := Pool.fillLines o rollover fuel p w pages
    Steps (Traffic W) (point ⟨p, frame⟩ o w) (f.lines.map (.wrote o))
      (point ⟨f.pool, frame⟩ o f.pointer) := by
  induction fuel generalizing p w pages with
  | zero => cases pages <;> simpa [Pool.fillLines] using Steps.refl _
  | succ fuel ih =>
    cases pages with
    | zero => simpa [Pool.fillLines] using Steps.refl _
    | succ pages =>
      obtain hstarved | ⟨line, q, w', full, rest, hstretch, hrest⟩ :=
        fillLines_succ hs rollover fuel pages
      · rw [hstarved]
        exact .refl _
      · have hfirst := hstretch.steps ho hs
        rw [hrest]
        exact hfirst.trans (ih rest (sound_of_traffic hfirst hs))

/-- A fill writes on the lines that it names, in their order, and moves no other pointer. -/
theorem steps_fill (ho : W o) (rollover : Rollover) (pages : Nat) {s : Allocation} (hs : s.Sound) :
    let f := s.pool.fill o rollover (s.pointer o) pages
    Steps (Traffic W) s (f.lines.map (.wrote o)) (point ⟨f.pool, s.pointer⟩ o f.pointer) := by
  have h := steps_fillLines (p := s.pool) (w := s.pointer o) s.pointer ho rollover
    (s.pool.freeCount o + 1) pages
  rw [point_pointer] at h
  exact h hs

end DataPlacement.Allocation
