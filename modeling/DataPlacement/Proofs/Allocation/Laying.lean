import DataPlacement.Proofs.Allocation.Filling
import DataPlacement.Proofs.Pool.PageStream

namespace DataPlacement

/-- Pages of one line that a writer wrote in one go. -/
structure Stint where
  line : LineId
  page : Nat
  count : Nat

namespace Stint

def pages (c : Stint) : List (LineId × Nat) := stretchOf c.line c.page c.count

/-- The pages of stints, in order. -/
def allPages (cs : List Stint) : List (LineId × Nat) := cs.flatMap pages

/-- The lines that stints wrote the last page of, in order. -/
def completed (pagesPerLine : Nat) (cs : List Stint) : List LineId :=
  (cs.filter fun c => c.page + c.count = pagesPerLine).map (·.line)

variable {cs ds : List Stint} {n : Nat}

theorem allPages_append : allPages (cs ++ ds) = allPages cs ++ allPages ds := List.flatMap_append

theorem completed_append : completed n (cs ++ ds) = completed n cs ++ completed n ds := by
  simp [completed]

theorem completed_of_lt {c : Stint} (hroom : c.page + c.count < n) : completed n [c] = [] := by
  simp [completed, Nat.ne_of_lt hroom]

theorem completed_of_eq {c : Stint} (hlast : c.page + c.count = n) :
    completed n [c] = [c.line] := by
  simp [completed, hlast]

end Stint

/-- The page of the line is written. -/
def Pool.Programmed (p : Pool) (id : LineId) (page : Nat) : Prop :=
  ∃ l, p.lines[id]? = some l ∧ page < l.pages

/-- The record of a line after a writer completed some lines, the first of them as the next after
`retirements`, and stands at `w`. -/
def Line.settled (l : Line) (id : LineId) (pagesPerLine retirements : Nat) (done : List LineId)
    (w : WritePointer) : Line :=
  if id ∈ done then
    { l with state := .full, pages := pagesPerLine, retiredAt := retirements + done.idxOf id + 1 }
  else if w.line = some id then { l with state := .active, pages := w.page }
  else l

theorem Line.settled_nil {l : Line} {i : LineId} {n m : Nat} {w : WritePointer}
    (h : w.line = some i → l.state = .active ∧ l.pages = w.page) : l.settled i n m [] w = l := by
  simp only [Line.settled, List.not_mem_nil, if_false]
  split
  · next hline =>
    obtain ⟨hstate, hpages⟩ := h hline
    rw [← hstate, ← hpages]
  · rfl

namespace Allocation

/-- The pages that the writer can write without an erasure. -/
def pageStream (s : Allocation) (o : Option UnitId) : List (LineId × Nat) :=
  s.pool.pageStream o (s.pointer o)

/-- The steps of one writer, with what it writes. -/
inductive Lays (o : Option UnitId) : Allocation → List Stint → Allocation → Prop where
  | opens {s : Allocation} {id : LineId} {rest : List LineId} (hpointer : s.pointer o = .closed)
      (hfree : s.pool.freeLines o = id :: rest) :
      Lays o s [] (point ⟨s.pool.taken o id rest, s.pointer⟩ o (.start id))
  | writes {s : Allocation} {id : LineId} {page count : Nat}
      (hpointer : s.pointer o = ⟨some id, page⟩) (hcount : 0 < count)
      (hroom : page + count < s.pool.pagesPerLine) :
      Lays o s [⟨id, page, count⟩]
        (point ⟨s.pool.program id count, s.pointer⟩ o ⟨some id, page + count⟩)
  | fills {s : Allocation} {id : LineId} {page count : Nat}
      (hpointer : s.pointer o = ⟨some id, page⟩) (hcount : 0 < count)
      (hlast : page + count = s.pool.pagesPerLine) :
      Lays o s [⟨id, page, count⟩]
        (point ⟨(s.pool.program id count).retire id, s.pointer⟩ o .closed)

variable {o : Option UnitId} {s t t' : Allocation} {cs ds : List Stint}

theorem hasOpening_lays : HasOpening (Lays o) o := fun _ _ _ hpointer hfree => .opens hpointer hfree

theorem Lays.traffic (h : Lays o s cs t) : ∃ es, Traffic (fun o' => o' = o) s es t := by
  cases h with
  | opens hpointer hfree => exact ⟨_, .opens rfl hpointer hfree⟩
  | writes hpointer hcount hroom => exact ⟨_, .writes rfl hpointer hcount hroom⟩
  | fills hpointer hcount hlast => exact ⟨_, .fills rfl hpointer hcount hlast⟩

theorem Lays.sound (h : Lays o s cs t) (hs : s.Sound) : t.Sound := by
  obtain ⟨es, htraffic⟩ := h.traffic
  exact htraffic.sound hs

theorem sound_of_lays (h : Steps (Lays o) s cs t) (hs : s.Sound) : t.Sound :=
  h.preserves (fun _ _ _ hs hstep => hstep.sound hs) hs

/-! ### One step -/

/-- A step takes what it writes off the front of the stream. -/
theorem Lays.stream (h : Lays o s cs t) : s.pageStream o = Stint.allPages cs ++ t.pageStream o := by
  have hfrom : s.pool.pagesPerLine = t.pool.pagesPerLine → s.pool.pagesFrom = t.pool.pagesFrom :=
    fun hcount => by funext page id; rw [Pool.pagesFrom, Pool.pagesFrom, hcount]
  cases h with
  | @opens id rest hpointer hfree =>
    have hsame := hfrom (by simp)
    rw [pageStream, pageStream, hpointer, pointer_point_self,
      Pool.pageStream_closed _ _ rfl, Pool.pageStream_start, ← hsame, pool_point,
      Pool.freeLines_taken o hfree, if_pos rfl, hfree]
    rfl
  | @writes id page count hpointer hcount hroom =>
    have hsplit : page + count + (s.pool.pagesPerLine - (page + count)) = s.pool.pagesPerLine := by
      omega
    have hpages : s.pool.pagesFrom page id =
        stretchOf id page count ++ s.pool.pagesFrom (page + count) id := by
      rw [Pool.pagesFrom, Pool.pagesFrom, stretchOf_append]
      congr 1
      omega
    have hsame := hfrom (by simp)
    rw [pageStream, pageStream, hpointer, pointer_point_self, Pool.pageStream_current,
      Pool.pageStream_current, ← hsame, pool_point, Pool.freeLines_program, hpages,
      List.append_assoc]
    simp [Stint.allPages, Stint.pages]
  | @fills id page count hpointer hcount hlast =>
    have hpages : s.pool.pagesFrom page id = stretchOf id page count := by
      rw [Pool.pagesFrom, ← hlast, Nat.add_sub_cancel_left]
    have hsame := hfrom (by simp)
    rw [pageStream, pageStream, hpointer, pointer_point_self, Pool.pageStream_current,
      Pool.pageStream_closed _ _ rfl, ← hsame, pool_point, Pool.freeLines_retire,
      Pool.freeLines_program, hpages]
    simp [Stint.allPages, Stint.pages]

/-- What a step leaves alone. -/
structure Framed (o : Option UnitId) (s t : Allocation) : Prop where
  pagesPerLine : t.pool.pagesPerLine = s.pool.pagesPerLine
  own : t.pool.freeLines o <:+ s.pool.freeLines o
  lists : ∀ o', o' ≠ o → t.pool.freeLines o' = s.pool.freeLines o'
  pointers : ∀ o', o' ≠ o → t.pointer o' = s.pointer o'

theorem Framed.refl (o : Option UnitId) (s : Allocation) : Framed o s s :=
  ⟨rfl, List.suffix_rfl, fun _ _ => rfl, fun _ _ => rfl⟩

theorem Framed.trans (h : Framed o s t) (h' : Framed o t t') : Framed o s t' where
  pagesPerLine := h'.pagesPerLine.trans h.pagesPerLine
  own := h'.own.trans h.own
  lists o' ho := (h'.lists o' ho).trans (h.lists o' ho)
  pointers o' ho := (h'.pointers o' ho).trans (h.pointers o' ho)

theorem Lays.framed (h : Lays o s cs t) : Framed o s t := by
  cases h with
  | @opens id rest hpointer hfree =>
    refine ⟨by simp, ?_, fun o' ho => ?_, fun o' ho => ?_⟩
    · rw [pool_point, Pool.freeLines_taken o hfree, if_pos rfl, hfree]
      exact List.suffix_cons id rest
    · rw [pool_point, Pool.freeLines_taken o' hfree, if_neg ho]
    · rw [pointer_point, if_neg ho]
  | writes hpointer hcount hroom =>
    refine ⟨by simp, by simp, fun o' _ => by simp, fun o' ho => ?_⟩
    rw [pointer_point, if_neg ho]
  | fills hpointer hcount hlast =>
    refine ⟨by simp, by simp, fun o' _ => by simp, fun o' ho => ?_⟩
    rw [pointer_point, if_neg ho]

/-- A step writes the pages of its stints and no others. -/
theorem Lays.programmed_iff (h : Lays o s cs t) (hs : s.Sound) (i : LineId) (k : Nat) :
    t.pool.Programmed i k ↔ s.pool.Programmed i k ∨ (i, k) ∈ Stint.allPages cs := by
  have hchange {id : LineId} {l l' : Line} {q : Pool} (hline : s.pool.lines[id]? = some l)
      (hlines : ∀ i : LineId, q.lines[i]? = if id = i then some l' else s.pool.lines[i]?) :
      q.Programmed i k ↔ if id = i then k < l'.pages else s.pool.Programmed i k := by
    by_cases hi : id = i <;> simp [Pool.Programmed, hlines, hi]
  cases h with
  | @opens id rest hpointer hfree =>
    have hmem : id ∈ s.pool.freeLines o := by simp [hfree]
    obtain ⟨l, hline, -, -, hpages⟩ := hs.free_of_mem hmem
    have hlines : ∀ i : LineId, (s.pool.taken o id rest).lines[i]? =
        if id = i then some l.activate else s.pool.lines[i]? := fun i => by
      rw [Pool.getElem?_taken]
      exact Pool.ite_map_line hline _ i
    rw [pool_point, hchange hline hlines]
    by_cases hi : id = i
    · subst hi
      simp [Pool.Programmed, hline, hpages, Line.activate, Stint.allPages]
    · simp [hi, Stint.allPages]
  | @writes id page count hpointer hcount hroom =>
    obtain ⟨l, hline, -, -, hpages, -⟩ := hs.of_pointer hpointer
    have hlines : ∀ i : LineId, (s.pool.program id count).lines[i]? =
        if id = i then some (l.program count s.pool.pagesPerLine) else s.pool.lines[i]? := by
      intro i
      rw [Pool.getElem?_program]
      exact Pool.ite_map_line hline _ i
    rw [pool_point, hchange hline hlines]
    by_cases hi : id = i
    · subst hi
      rw [hs.program_current hpointer hline (Nat.le_of_lt hroom)]
      simp [Pool.Programmed, hline, hpages, Stint.allPages, Stint.pages, mem_stretchOf]
      omega
    · simp [hi, Ne.symm hi, Stint.allPages, Stint.pages, mem_stretchOf]
  | @fills id page count hpointer hcount hlast =>
    obtain ⟨l, hline, hstate, -, hpages, -⟩ := hs.of_pointer hpointer
    rw [pool_point, hchange hline (Pool.getElem?_filled hline hstate count)]
    by_cases hi : id = i
    · subst hi
      rw [hs.program_current hpointer hline (Nat.le_of_eq hlast)]
      simp [Pool.Programmed, hline, hpages, Line.retire, Stint.allPages, Stint.pages, mem_stretchOf]
      omega
    · simp [hi, Ne.symm hi, Stint.allPages, Stint.pages, mem_stretchOf]

/-! ### Runs -/

/-- What the steps of a writer come to. -/
structure Laid (o : Option UnitId) (s : Allocation) (cs : List Stint) (t : Allocation) : Prop where
  framed : Framed o s t
  stream : s.pageStream o = Stint.allPages cs ++ t.pageStream o
  fits : ∀ c ∈ cs, 0 < c.count ∧ c.page + c.count ≤ s.pool.pagesPerLine
  retirements : t.pool.retirements =
    s.pool.retirements + (Stint.completed s.pool.pagesPerLine cs).length
  nodup : (Stint.completed s.pool.pagesPerLine cs).Nodup
  records : ∀ i : LineId, t.pool.lines[i]? = s.pool.lines[i]?.map fun l =>
    l.settled i s.pool.pagesPerLine s.pool.retirements (Stint.completed s.pool.pagesPerLine cs)
      (t.pointer o)
  programmed : ∀ (i : LineId) (k : Nat),
    t.pool.Programmed i k ↔ s.pool.Programmed i k ∨ (i, k) ∈ Stint.allPages cs
  last : ∀ c, cs.getLast? = some c →
    t.pointer o = ⟨some c.line, c.page + c.count⟩ ∧ c.page + c.count < s.pool.pagesPerLine ∨
      c.page + c.count = s.pool.pagesPerLine ∧ (t.pointer o).page = 0

theorem Laid.refl (hs : s.Sound) (o : Option UnitId) : Laid o s [] s where
  framed := .refl o s
  stream := rfl
  fits := by simp
  retirements := rfl
  nodup := .nil
  records i := by
    cases hline : s.pool.lines[i]? with
    | none => rfl
    | some l =>
      refine congrArg some (Line.settled_nil fun hcurrent => ?_).symm
      obtain ⟨hstate, howner⟩ := hs.owner_of_current hcurrent hline
      exact ⟨hstate, howner ▸ hs.page i l hline hstate⟩
  programmed i k := by simp [Stint.allPages]
  last := by simp

/-- Only full lines were completed. -/
theorem Laid.not_mem_completed (h : Laid o s cs t) {i : LineId} {l : Line}
    (hline : t.pool.lines[i]? = some l) (hstate : l.state ≠ .full) :
    i ∉ Stint.completed s.pool.pagesPerLine cs := by
  intro hmem
  rw [h.records, Option.map_eq_some_iff] at hline
  obtain ⟨k, -, rfl⟩ := hline
  exact hstate (by rw [Line.settled, if_pos hmem])

theorem Laid.opens (h : Laid o s cs t) (ht : t.Sound) {id : LineId} {rest : List LineId}
    (hpointer : t.pointer o = .closed) (hfree : t.pool.freeLines o = id :: rest) :
    Laid o s cs (point ⟨t.pool.taken o id rest, t.pointer⟩ o (.start id)) := by
  have hstep : Lays o t [] _ := .opens hpointer hfree
  have hmem : id ∈ t.pool.freeLines o := by simp [hfree]
  obtain ⟨l, hline, hstate, -⟩ := ht.free_of_mem hmem
  have hfresh := h.not_mem_completed hline (by simp [hstate])
  exact {
    framed := h.framed.trans hstep.framed
    stream := by
      rw [h.stream, hstep.stream]
      rfl
    fits := h.fits
    retirements := by simpa using h.retirements
    nodup := h.nodup
    records := fun i => by
      rw [pool_point, Pool.getElem?_taken, h.records, hpointer, pointer_point_self]
      by_cases hi : id = i
      · subst hi
        cases s.pool.lines[id]? <;>
          simp [Line.settled, hfresh, WritePointer.closed, WritePointer.start, Line.activate]
      · simp [hi, Line.settled, WritePointer.closed, WritePointer.start]
    programmed := fun i k => by
      rw [hstep.programmed_iff ht, h.programmed]
      simp [Stint.allPages]
    last := fun c hc => by
      obtain ⟨hstays, -⟩ | ⟨hlast, -⟩ := h.last c hc
      · rw [hpointer] at hstays
        cases hstays
      · exact .inr ⟨hlast, by simp [WritePointer.start]⟩ }

theorem Laid.writes (h : Laid o s cs t) (ht : t.Sound) {id : LineId} {page count : Nat}
    (hpointer : t.pointer o = ⟨some id, page⟩) (hcount : 0 < count)
    (hroom : page + count < t.pool.pagesPerLine) :
    Laid o s (cs ++ [⟨id, page, count⟩])
      (point ⟨t.pool.program id count, t.pointer⟩ o ⟨some id, page + count⟩) := by
  have hstep : Lays o t [⟨id, page, count⟩] _ := .writes hpointer hcount hroom
  have hsize := h.framed.pagesPerLine
  obtain ⟨l, hline, hstate, -⟩ := ht.of_pointer hpointer
  have hwritten := ht.program_current hpointer hline (Nat.le_of_lt hroom)
  rw [hsize] at hroom
  have hfresh := h.not_mem_completed hline (by simp [hstate])
  have hdone : Stint.completed s.pool.pagesPerLine (cs ++ [⟨id, page, count⟩]) =
      Stint.completed s.pool.pagesPerLine cs := by
    rw [Stint.completed_append, Stint.completed_of_lt hroom, List.append_nil]
  exact {
    framed := h.framed.trans hstep.framed
    stream := by rw [h.stream, hstep.stream, Stint.allPages_append, List.append_assoc]
    fits := fun c hc => by
      obtain hc | hc := List.mem_append.1 hc
      · exact h.fits c hc
      · obtain rfl := List.mem_singleton.1 hc
        exact ⟨hcount, Nat.le_of_lt hroom⟩
    retirements := by
      rw [hdone]
      exact h.retirements
    nodup := hdone ▸ h.nodup
    records := fun i => by
      have hrecord := h.records i
      rw [hdone, pool_point, Pool.getElem?_program, pointer_point_self]
      by_cases hi : id = i
      · subst hi
        rw [hline] at hrecord
        obtain ⟨k, hk, hl⟩ := Option.map_eq_some_iff.1 hrecord.symm
        rw [if_pos rfl, hline, hk, Option.map_some, Option.map_some, hwritten, ← hl, hpointer]
        simp [Line.settled, hfresh]
      · rw [if_neg hi, hrecord, hpointer]
        simp [hi, Line.settled]
    programmed := fun i k => by
      rw [hstep.programmed_iff ht, h.programmed, Stint.allPages_append, List.mem_append, or_assoc]
    last := fun c hc => by
      obtain rfl : (⟨id, page, count⟩ : Stint) = c := by simpa using hc
      exact .inl ⟨pointer_point_self _ _ _, hroom⟩ }

theorem Laid.fills (h : Laid o s cs t) (ht : t.Sound) {id : LineId} {page count : Nat}
    (hpointer : t.pointer o = ⟨some id, page⟩) (hcount : 0 < count)
    (hlast : page + count = t.pool.pagesPerLine) :
    Laid o s (cs ++ [⟨id, page, count⟩])
      (point ⟨(t.pool.program id count).retire id, t.pointer⟩ o .closed) := by
  have hstep : Lays o t [⟨id, page, count⟩] _ := .fills hpointer hcount hlast
  have hsize := h.framed.pagesPerLine
  obtain ⟨l, hline, hstate, -⟩ := ht.of_pointer hpointer
  have hwritten := ht.program_current hpointer hline (Nat.le_of_eq hlast)
  rw [hsize] at hlast
  have hfresh := h.not_mem_completed hline (by simp [hstate])
  have hdone : Stint.completed s.pool.pagesPerLine (cs ++ [⟨id, page, count⟩]) =
      Stint.completed s.pool.pagesPerLine cs ++ [id] := by
    rw [Stint.completed_append, Stint.completed_of_eq hlast]
  exact {
    framed := h.framed.trans hstep.framed
    stream := by rw [h.stream, hstep.stream, Stint.allPages_append, List.append_assoc]
    fits := fun c hc => by
      obtain hc | hc := List.mem_append.1 hc
      · exact h.fits c hc
      · obtain rfl := List.mem_singleton.1 hc
        exact ⟨hcount, Nat.le_of_eq hlast⟩
    retirements := by
      rw [hdone, pool_point, Pool.retirements_filled hline hstate, h.retirements,
        List.length_append]
      rfl
    nodup := by
      rw [hdone]
      exact h.nodup.append (List.nodup_singleton id) (by simpa using hfresh)
    records := fun i => by
      have hrecord := h.records i
      rw [pool_point, Pool.getElem?_filled hline hstate, hdone, pointer_point_self]
      by_cases hi : id = i
      · subst hi
        rw [hline] at hrecord
        obtain ⟨k, hk, hl⟩ := Option.map_eq_some_iff.1 hrecord.symm
        rw [if_pos rfl, hwritten, hlast, hk, ← hl, hpointer]
        simp [Line.settled, hfresh, Line.retire, h.retirements, List.idxOf_append_of_notMem]
      · rw [if_neg hi, hrecord, hpointer]
        refine congrArg (fun f => s.pool.lines[i]?.map f) (funext fun k => ?_)
        by_cases hmem : i ∈ Stint.completed s.pool.pagesPerLine cs
        · simp [Line.settled, hmem, List.idxOf_append_of_mem]
        · simp [Line.settled, hmem, hi, Ne.symm hi, WritePointer.closed]
    programmed := fun i k => by
      rw [hstep.programmed_iff ht, h.programmed, Stint.allPages_append, List.mem_append, or_assoc]
    last := fun c hc => by
      obtain rfl : (⟨id, page, count⟩ : Stint) = c := by simpa using hc
      exact .inr ⟨hlast, by simp [WritePointer.closed]⟩ }

theorem Laid.step (h : Laid o s cs t) (ht : t.Sound) (hstep : Lays o t ds t') :
    Laid o s (cs ++ ds) t' := by
  cases hstep with
  | opens hpointer hfree =>
    rw [List.append_nil]
    exact h.opens ht hpointer hfree
  | writes hpointer hcount hroom => exact h.writes ht hpointer hcount hroom
  | fills hpointer hcount hlast => exact h.fills ht hpointer hcount hlast

/-- From what a writer wrote, step by step, follows all that its run changed. -/
theorem laid_of_steps (h : Steps (Lays o) s cs t) (hs : s.Sound) : Laid o s cs t := by
  induction h with
  | refl => exact .refl hs o
  | tail hsteps hstep ih => exact ih.step (sound_of_lays hsteps hs) hstep

end Allocation

end DataPlacement
