import DataPlacement.Proofs.Pool.Progress

namespace DataPlacement

/-- A fill and another one behind it. The line on which the first one stopped is named once. -/
def Fill.followedBy (f g : Fill) : Fill :=
  { g with
    lines := f.lines ++ if f.pointer.page = 0 then g.lines else g.lines.tail
    retired := f.retired ++ g.retired }

theorem Fill.precededBy_followedBy (f g : Fill) (line : LineId) (becameFull : Bool) :
    (f.precededBy line becameFull).followedBy g = (f.followedBy g).precededBy line becameFull := by
  cases becameFull <;> rfl

namespace Pool

variable {p q r : Pool} {o : Option UnitId} {rollover : Rollover} {w w' : WritePointer}
  {line id : LineId} {page count pages more fuel : Nat} {f g : Fill}

/-- What the write loop comes to. It ends when all pages are written, or when it finds no line for
the next one. A line with more room than there are pages takes them all. Any other line takes as
many as it has room for, possibly none, and is left as a full one; the pointer must not stand
behind its last page. -/
inductive WriteLoop (o : Option UnitId) (rollover : Rollover) :
    Pool → WritePointer → Nat → Fill → Prop where
  | written (p : Pool) (w : WritePointer) : WriteLoop o rollover p w 0 { pool := p, pointer := w }
  | starves {p q : Pool} {w : WritePointer} {pages : Nat} (hpages : 0 < pages)
      (hnext : p.nextPage o w = (none, q)) :
      WriteLoop o rollover p w pages { pool := q, pointer := w, starved := true }
  | stays {p q : Pool} {w : WritePointer} {line : LineId} {page pages : Nat} (hpages : 0 < pages)
      (hnext : p.nextPage o w = (some (line, page), q)) (hroom : page + pages < q.pagesPerLine) :
      WriteLoop o rollover p w pages
        { pool := q.program line pages, pointer := ⟨some line, page + pages⟩, lines := [line] }
  | fills {p q r : Pool} {w w' : WritePointer} {line : LineId} {page count pages : Nat} {f : Fill}
      (hpages : 0 < pages) (hnext : p.nextPage o w = (some (line, page), q))
      (hcount : count ≤ pages) (hlast : page + count = q.pagesPerLine)
      (hroll : ((q.program line count).retire line).rollOver o rollover = (w', r))
      (hrest : WriteLoop o rollover r w' (pages - count) f) :
      WriteLoop o rollover p w pages (f.precededBy line true)

namespace WriteLoop

theorem eq_of_zero (h : WriteLoop o rollover p w 0 f) : f = { pool := p, pointer := w } := by
  cases h with
  | written => rfl
  | starves hpages | stays hpages | fills hpages => exact absurd hpages (Nat.lt_irrefl 0)

/-- The loop can come to one end only. -/
theorem unique (h : WriteLoop o rollover p w pages f) (h' : WriteLoop o rollover p w pages g) :
    f = g := by
  induction h generalizing g with
  | written p w => exact h'.eq_of_zero.symm
  | starves hpages hnext =>
    cases h' with
    | written => exact absurd hpages (Nat.lt_irrefl 0)
    | starves _ hnext' =>
      cases hnext.symm.trans hnext'
      rfl
    | stays _ hnext' | fills _ hnext' => cases hnext.symm.trans hnext'
  | stays hpages hnext hroom =>
    cases h' with
    | written => exact absurd hpages (Nat.lt_irrefl 0)
    | starves _ hnext' => cases hnext.symm.trans hnext'
    | stays _ hnext' =>
      cases hnext.symm.trans hnext'
      rfl
    | fills _ hnext' hcount hlast =>
      cases hnext.symm.trans hnext'
      omega
  | fills hpages hnext hcount hlast hroll _ ih =>
    cases h' with
    | written => exact absurd hpages (Nat.lt_irrefl 0)
    | starves _ hnext' => cases hnext.symm.trans hnext'
    | stays _ hnext' hroom =>
      cases hnext.symm.trans hnext'
      omega
    | @fills _ _ _ _ _ _ _ count' _ _ _ hnext' _ hlast' hroll' hrest' =>
      cases hnext.symm.trans hnext'
      obtain rfl := Nat.add_left_cancel (hlast.trans hlast'.symm)
      cases hroll.symm.trans hroll'
      rw [ih hrest']

end WriteLoop

/-! ### Fills are what the loop comes to -/

theorem streamLines_pos_of_nextPage (hnext : p.nextPage o w = (some (line, page), q)) :
    0 < p.streamLines o w := by
  obtain ⟨current, offset⟩ := w
  cases current with
  | some current =>
    simp only [streamLines, Option.isSome_some, if_true]
    omega
  | none =>
    cases hfree : p.freeLines o with
    | nil => simp [nextPage, take_of_freeLines_eq_nil hfree] at hnext
    | cons first rest => simp [streamLines, freeCount_eq_length, hfree]

theorem nextPage_of_streamLines_eq_zero (hnone : p.streamLines o w = 0) :
    p.nextPage o w = (none, p) := by
  cases hnext : p.nextPage o w with
  | mk found q =>
    cases found with
    | none => rw [eq_of_nextPage_none hnext]
    | some place => exact absurd hnone (Nat.ne_of_gt (streamLines_pos_of_nextPage hnext))

/-- With a round for each line of the stream, a fill does not stop before the loop ends. -/
theorem writeLoop_fillLines (hpage : w.page ≤ p.pagesPerLine)
    (hfuel : p.streamLines o w ≤ fuel) :
    WriteLoop o rollover p w pages (fillLines o rollover fuel p w pages) := by
  induction fuel generalizing p w pages with
  | zero =>
    cases pages with
    | zero => exact .written p w
    | succ pages =>
      have hnext := nextPage_of_streamLines_eq_zero (Nat.le_zero.1 hfuel)
      exact .starves (Nat.succ_pos pages) hnext
  | succ fuel ih =>
    cases pages with
    | zero => exact .written p w
    | succ pages =>
      rw [fillLines]
      split
      · next hnext => exact .starves (Nat.succ_pos pages) hnext
      · next line page q hnext =>
        obtain ⟨-, hlines, hoffset⟩ := stream_nextPage hpage hnext
        dsimp only
        rw [pagesPerLine_program]
        split
        · next hlast =>
          cases hroll : ((q.program line (min (pages + 1) (q.pagesPerLine - page))).retire
            line).rollOver o rollover with
          | mk w' r =>
            obtain ⟨-, hrest, hstart⟩ := stream_rollOver hroll
            rw [freeCount_retire_program] at hrest
            exact .fills (Nat.succ_pos pages) hnext (Nat.min_le_left _ _) hlast hroll
              (ih (by omega) (by omega))
        · next hstay =>
          have hall : min (pages + 1) (q.pagesPerLine - page) = pages + 1 := by omega
          rw [hall, Nat.sub_self, fillLines]
          exact .stays (Nat.succ_pos pages) hnext (by omega)

theorem writeLoop_fill (rollover : Rollover) (pages : Nat) (hpage : w.page ≤ p.pagesPerLine) :
    WriteLoop o rollover p w pages (p.fill o rollover w pages) :=
  writeLoop_fillLines hpage (by unfold streamLines; split <;> omega)

theorem WriteLoop.eq_fill (h : WriteLoop o rollover p w pages f)
    (hpage : w.page ≤ p.pagesPerLine) : f = p.fill o rollover w pages :=
  h.unique (writeLoop_fill rollover pages hpage)

/-! ### Rounds -/

namespace WriteLoop

/-- What a loop that finds all its lines leaves of the stream. -/
theorem stream (h : WriteLoop o rollover p w pages f) (hpage : w.page ≤ p.pagesPerLine)
    (hfed : f.starved = false) :
    f.pool.streamPages o f.pointer + pages = p.streamPages o w ∧
      f.pointer.page ≤ f.pool.pagesPerLine := by
  induction h with
  | written p w => exact ⟨rfl, hpage⟩
  | starves => cases hfed
  | @stays p q w line page pages hpages hnext hroom =>
    obtain ⟨hstream, -, -⟩ := stream_nextPage hpage hnext
    rw [streamPages_start] at hstream
    have hfree : (q.program line pages).freeCount o = q.freeCount o := by
      simp [freeCount_eq_length]
    refine ⟨?_, Nat.le_of_lt hroom⟩
    rw [streamPages_start, hfree, pagesPerLine_program]
    omega
  | @fills p q r w w' line page count pages f hpages hnext hcount hlast hroll _ ih =>
    obtain ⟨hstream, -, -⟩ := stream_nextPage hpage hnext
    obtain ⟨hrest, -, hstart⟩ := stream_rollOver hroll
    rw [freeCount_retire_program, pagesPerLine_retire, pagesPerLine_program] at hrest
    rw [streamPages_start] at hstream
    obtain ⟨hlater, hend⟩ := ih (by omega) hfed
    refine ⟨?_, hend⟩
    simp only [Fill.precededBy]
    omega

/-- A loop with pages to write that finds its lines writes on one of them. -/
theorem lines_ne_nil (h : WriteLoop o rollover p w pages f) (hpages : 0 < pages)
    (hfed : f.starved = false) : f.lines ≠ [] := by
  cases h with
  | written => exact absurd hpages (Nat.lt_irrefl 0)
  | starves => cases hfed
  | stays | fills => exact List.cons_ne_nil _ _

/-- A loop begins on the line of its pointer, if it has one. -/
theorem head?_lines (h : WriteLoop o rollover p w pages f) (hpages : 0 < pages)
    (hfed : f.starved = false) (hline : w.line = some id) : f.lines.head? = some id := by
  have hnext' : p.nextPage o w = (some (id, w.page), p) := by simp [nextPage, hline]
  cases h with
  | written => exact absurd hpages (Nat.lt_irrefl 0)
  | starves => cases hfed
  | stays _ hnext | fills _ hnext =>
    cases hnext.symm.trans hnext'
    rfl

/-- A loop that stops in the middle of a line stops on its last one. -/
theorem getLast?_lines (h : WriteLoop o rollover p w pages f) (hpages : 0 < pages)
    (hfed : f.starved = false) (hbegun : f.pointer.page ≠ 0) :
    f.lines.getLast? = f.pointer.line := by
  induction h with
  | written => exact absurd hpages (Nat.lt_irrefl 0)
  | starves => cases hfed
  | stays => rfl
  | @fills p q r w w' line page count pages f _ hnext hcount hlast hroll hrest ih =>
    rcases Nat.eq_zero_or_pos (pages - count) with hdone | hmore
    · rw [hdone] at hrest
      rw [hrest.eq_of_zero] at hbegun
      exact absurd (stream_rollOver hroll).2.2 hbegun
    · have hlines := hrest.lines_ne_nil hmore hfed
      exact (List.getLast?_cons_of_ne_nil hlines).trans (ih hmore hfed hbegun)

end WriteLoop

/-! ### Known lines -/

/-- The free lists name lines of the pool only. -/
def Listed (p : Pool) : Prop := ∀ o, ∀ id ∈ p.freeLines o, id < p.lines.size

theorem listed_iff : p.Listed ↔ (∀ id ∈ p.freeLines none, id < p.lines.size) ∧
    ∀ u < p.reserved.size, ∀ id ∈ p.freeLines (some u), id < p.lines.size := by
  refine ⟨fun h => ⟨h none, fun u _ => h (some u)⟩, fun ⟨hshared, hreserved⟩ o id hid => ?_⟩
  cases o with
  | none => exact hshared id hid
  | some u =>
    by_cases hu : u < p.reserved.size
    · exact hreserved u hu id hid
    · simp [freeLines, freeList, Nat.le_of_not_lt hu] at hid

instance : Decidable p.Listed := decidable_of_iff _ listed_iff.symm

theorem Listed.of_sublist (h : p.Listed) (hsize : q.lines.size = p.lines.size)
    (hfree : ∀ o, q.freeLines o ⊆ p.freeLines o) : q.Listed := fun o id hid => by
  rw [hsize]
  exact h o id (hfree o hid)

theorem Listed.take (h : p.Listed) {found : Option LineId} (htake : p.take o = (found, q)) :
    q.Listed ∧ q.lines.size = p.lines.size ∧ ∀ id, found = some id → id < p.lines.size := by
  cases hfree : p.freeLines o with
  | nil =>
    obtain ⟨rfl, rfl⟩ : none = found ∧ p = q := by
      simpa [take_of_freeLines_eq_nil hfree] using htake
    exact ⟨h, rfl, fun id hid => absurd hid (Option.some_ne_none id).symm⟩
  | cons first rest =>
    obtain ⟨rfl, rfl⟩ : some first = found ∧ p.taken o first rest = q := by
      simpa [take_of_freeLines_eq_cons hfree] using htake
    have hsize := (keeps_taken p o first rest).size
    refine ⟨h.of_sublist hsize fun o' => ?_, hsize, fun id hid => ?_⟩
    · rw [freeLines_taken o' hfree]
      split
      · next ho =>
        rw [ho, hfree]
        exact List.subset_cons_self first rest
      · exact List.Subset.refl _
    · obtain rfl := Option.some.inj hid
      exact h o first (by simp [hfree])

theorem Listed.nextPage (h : p.Listed) (hnext : p.nextPage o w = (some (line, page), q)) :
    q.Listed ∧ q.lines.size = p.lines.size ∧ (w.line = some line ∨ line < p.lines.size) := by
  obtain ⟨current, offset⟩ := w
  cases current with
  | some current =>
    obtain ⟨⟨rfl, rfl⟩, rfl⟩ : (current = line ∧ offset = page) ∧ p = q := by
      simpa [Pool.nextPage] using hnext
    exact ⟨h, rfl, .inl rfl⟩
  | none =>
    cases htake : p.take o with
    | mk found p' =>
      obtain ⟨hlisted, hsize, hfound⟩ := h.take htake
      simp only [Pool.nextPage, htake, Prod.mk.injEq] at hnext
      obtain ⟨hplace, rfl⟩ := hnext
      cases found with
      | none => cases hplace
      | some first =>
        obtain ⟨rfl, -⟩ : first = line ∧ 0 = page := by simpa using hplace
        exact ⟨hlisted, hsize, .inr (hfound first rfl)⟩

theorem Listed.rollOver (h : p.Listed) (hroll : p.rollOver o rollover = (w, q)) :
    q.Listed ∧ q.lines.size = p.lines.size ∧ ∀ id, w.line = some id → id < p.lines.size := by
  cases rollover with
  | onDemand =>
    obtain ⟨rfl, rfl⟩ : WritePointer.closed = w ∧ p = q := by simpa [Pool.rollOver] using hroll
    exact ⟨h, rfl, fun id hid => absurd hid (Option.some_ne_none id).symm⟩
  | atOnce =>
    cases htake : p.take o with
    | mk found p' =>
      obtain ⟨hlisted, hsize, hfound⟩ := h.take htake
      cases found with
      | none =>
        obtain ⟨rfl, rfl⟩ : WritePointer.closed = w ∧ p' = q := by
          simpa [Pool.rollOver, htake] using hroll
        exact ⟨hlisted, hsize, fun id hid => absurd hid (Option.some_ne_none id).symm⟩
      | some line =>
        obtain ⟨rfl, rfl⟩ : WritePointer.start line = w ∧ p' = q := by
          simpa [Pool.rollOver, htake] using hroll
        exact ⟨hlisted, hsize, hfound⟩

theorem Listed.programmed (h : p.Listed) (line : LineId) (count : Nat) :
    (p.program line count).Listed ∧ (p.program line count).lines.size = p.lines.size :=
  ⟨h.of_sublist (keeps_program p line count).size fun o => by simp,
    (keeps_program p line count).size⟩

theorem Listed.retired (h : p.Listed) (line : LineId) :
    (p.retire line).Listed ∧ (p.retire line).lines.size = p.lines.size :=
  ⟨h.of_sublist (keeps_retire p line).size fun o => by simp, (keeps_retire p line).size⟩

/-- Apart from the line on which it began, the loop is on lines of the pool only. -/
theorem WriteLoop.known (h : WriteLoop o rollover p w pages f) (hlisted : p.Listed) :
    ∀ id ∈ f.lines ++ f.pointer.line.toList, w.line = some id ∨ id < p.lines.size := by
  induction h with
  | written p w =>
    intro id hid
    exact .inl (Option.mem_toList.1 hid)
  | starves =>
    intro id hid
    exact .inl (Option.mem_toList.1 hid)
  | stays hpages hnext hroom =>
    obtain ⟨-, -, hline⟩ := hlisted.nextPage hnext
    intro id hid
    obtain rfl : id = _ := by simpa using hid
    exact hline
  | fills hpages hnext hcount hlast hroll _ ih =>
    obtain ⟨hopened, hsize, hline⟩ := hlisted.nextPage hnext
    obtain ⟨hwritten, hsize'⟩ := hopened.programmed _ _
    obtain ⟨hretired, hsize''⟩ := hwritten.retired _
    obtain ⟨hrolled, hsame, hnew⟩ := hretired.rollOver hroll
    have hall := hsame.trans (hsize''.trans (hsize'.trans hsize))
    intro id hid
    obtain rfl | hid := List.mem_cons.1 hid
    · exact hline
    · rcases ih hrolled id hid with hstart | hlater
      · exact .inr (by rw [← hsize, ← hsize', ← hsize'']; exact hnew id hstart)
      · exact .inr (hall ▸ hlater)

/-! ### One loop after another -/

/-- The line holds at most the pages before `page`. -/
def HoldsUpTo (p : Pool) (line : LineId) (page : Nat) : Prop :=
  ∀ l, p.lines[line]? = some l → l.pages ≤ page

/-- The current line, if there is one, holds at most the pages before the pointer. -/
def Recorded (p : Pool) (w : WritePointer) : Prop :=
  ∀ line, w.line = some line → p.HoldsUpTo line w.page

/-- A line is empty when it is taken. -/
theorem holdsUpTo_take (htake : p.take o = (some line, q)) : q.HoldsUpTo line 0 := by
  cases hfree : p.freeLines o with
  | nil => simp [take_of_freeLines_eq_nil hfree] at htake
  | cons first rest =>
    rw [take_of_freeLines_eq_cons hfree] at htake
    obtain ⟨rfl, rfl⟩ : first = line ∧ _ = q := by simpa using htake
    intro l hline
    rw [getElem?_taken, if_pos rfl] at hline
    obtain ⟨k, -, rfl⟩ := Option.map_eq_some_iff.1 hline
    exact Nat.le_refl 0

theorem Recorded.nextPage (h : p.Recorded w) (hnext : p.nextPage o w = (some (line, page), q)) :
    q.HoldsUpTo line page := by
  obtain ⟨current, offset⟩ := w
  cases current with
  | some current =>
    obtain ⟨⟨rfl, rfl⟩, rfl⟩ : (current = line ∧ offset = page) ∧ p = q := by
      simpa [Pool.nextPage] using hnext
    exact h current rfl
  | none =>
    cases htake : p.take o with
    | mk found p' =>
      cases found with
      | none => simp [Pool.nextPage, htake] at hnext
      | some first =>
        obtain ⟨⟨rfl, rfl⟩, rfl⟩ : (first = line ∧ 0 = page) ∧ p' = q := by
          simpa [Pool.nextPage, htake] using hnext
        exact holdsUpTo_take htake

theorem recorded_rollOver (hroll : p.rollOver o rollover = (w, q)) : q.Recorded w := by
  intro line hline
  cases rollover with
  | onDemand =>
    obtain ⟨rfl, rfl⟩ : WritePointer.closed = w ∧ p = q := by simpa [rollOver] using hroll
    cases hline
  | atOnce =>
    cases htake : p.take o with
    | mk found p' =>
      cases found with
      | none =>
        obtain ⟨rfl, rfl⟩ : WritePointer.closed = w ∧ p' = q := by
          simpa [rollOver, htake] using hroll
        cases hline
      | some first =>
        obtain ⟨rfl, rfl⟩ : WritePointer.start first = w ∧ p' = q := by
          simpa [rollOver, htake] using hroll
        obtain rfl : first = line := Option.some.inj hline
        exact holdsUpTo_take htake

/-- Pages that fit behind those of a line can be recorded in two parts. -/
theorem program_program (hholds : p.HoldsUpTo line page)
    (hfits : page + (count + more) ≤ p.pagesPerLine) :
    (p.program line count).program line more = p.program line (count + more) := by
  have hlines : (p.lines.modify line (·.program count p.pagesPerLine)).modify line
      (·.program more p.pagesPerLine) =
        p.lines.modify line (·.program (count + more) p.pagesPerLine) := by
    refine Array.ext_getElem? fun i => ?_
    simp only [Array.getElem?_modify]
    split
    · next heq =>
      subst heq
      cases hline : p.lines[line]? with
      | none => rfl
      | some l =>
        have hpages := hholds l hline
        have hsize := p.pagesPerLine_lt
        have hfirst : l.program count p.pagesPerLine = { l with pages := l.pages + count } :=
          Line.program_of_fits (by omega) hsize
        have hboth : l.program (count + more) p.pagesPerLine =
            { l with pages := l.pages + (count + more) } := Line.program_of_fits (by omega) hsize
        simp only [Option.map_some, hfirst, hboth]
        rw [Line.program_of_fits (by simp only; omega) hsize, Nat.add_assoc]
    · rfl
  simp only [program, updateLine, hlines]

namespace WriteLoop

/-- A loop for more pages goes on where the first one stopped: in the middle of a line, or on the
first page of the next one. -/
theorem append (h : WriteLoop o rollover p w pages f) (hrecorded : p.Recorded w)
    (hfed : f.starved = false) (hstart : pages = 0 → w.page = 0) (hmore : 0 < more)
    (h' : WriteLoop o rollover f.pool f.pointer more g) :
    WriteLoop o rollover p w (pages + more) (f.followedBy g) := by
  induction h with
  | written p w =>
    have hnothing : Fill.followedBy { pool := p, pointer := w } g = g := by
      simp [Fill.followedBy, hstart rfl]
    rw [hnothing, Nat.zero_add]
    exact h'
  | starves => cases hfed
  | @stays p q w line page pages hpages hnext hroom =>
    -- The second loop begins on the same line, so its first round and this one are one round.
    have hbegun : ¬ (page = 0 ∧ pages = 0) := by omega
    have hholds := hrecorded.nextPage hnext
    cases h' with
    | written => exact absurd hmore (Nat.lt_irrefl 0)
    | starves _ hnext' => simp [nextPage] at hnext'
    | stays _ hnext' hroom' =>
      obtain ⟨⟨rfl, rfl⟩, rfl⟩ : (line = _ ∧ page + pages = _) ∧ q.program line pages = _ := by
        simpa [nextPage] using hnext'
      have hboth : WriteLoop o rollover p w (pages + more) _ :=
        .stays (Nat.add_pos_left hpages more) hnext (by simpa [Nat.add_assoc] using hroom')
      have hwritten : (q.program line pages).program line more = q.program line (pages + more) :=
        program_program hholds (by simpa [Nat.add_assoc] using Nat.le_of_lt hroom')
      simpa [Fill.followedBy, hbegun, hwritten, Nat.add_assoc] using hboth
    | @fills _ _ r _ w' _ _ count _ f' _ hnext' hcount hlast hroll hrest =>
      obtain ⟨⟨rfl, rfl⟩, rfl⟩ : (line = _ ∧ page + pages = _) ∧ q.program line pages = _ := by
        simpa [nextPage] using hnext'
      rw [pagesPerLine_program, Nat.add_assoc] at hlast
      rw [program_program hholds (Nat.le_of_eq hlast)] at hroll
      have hleft : pages + more - (pages + count) = more - count := by omega
      rw [← hleft] at hrest
      have hboth := WriteLoop.fills (Nat.add_pos_left hpages more) hnext
        (Nat.add_le_add_left hcount pages) hlast hroll hrest
      simpa [Fill.followedBy, Fill.precededBy, hbegun] using hboth
  | @fills p q r w w' line page count pages f hpages hnext hcount hlast hroll hrest ih =>
    rw [Fill.precededBy_followedBy]
    obtain ⟨-, -, hfirst⟩ := stream_rollOver hroll
    have hboth := ih (recorded_rollOver hroll) hfed (fun _ => hfirst) h'
    rw [← Nat.sub_add_comm hcount] at hboth
    exact .fills (Nat.add_pos_left hpages more) hnext (Nat.le_add_right_of_le hcount) hlast hroll
      hboth

/-- Whoever opens lines at once is without a line only at the end of the stream. -/
theorem streamPages_eq_zero_of_closed (h : WriteLoop o .atOnce p w pages f)
    (hopen : pages = 0 → w.line = none → p.streamPages o w = 0) (hfed : f.starved = false)
    (hclosed : f.pointer.line = none) : f.pool.streamPages o f.pointer = 0 := by
  induction h with
  | written p w => exact hopen rfl hclosed
  | starves => cases hfed
  | stays => cases hclosed
  | fills _ _ _ _ hroll _ ih =>
    refine ih (fun _ hnone => ?_) hfed hclosed
    rw [streamPages_closed _ _ hnone, freeCount_eq_length, freeLines_rollOver_atOnce hroll hnone,
      List.length_nil, Nat.zero_mul]

end WriteLoop

end Pool

end DataPlacement
