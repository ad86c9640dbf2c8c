import DataPlacement.Proofs.Allocation.Laying
import Mathlib.Data.List.Dedup

namespace DataPlacement

namespace Stint

variable {cs : List Stint} {c : Stint} {id : LineId} {i n : Nat}

theorem mem_pages : (id, i) ∈ c.pages ↔ id = c.line ∧ c.page ≤ i ∧ i < c.page + c.count :=
  mem_stretchOf

theorem mem_allPages : (id, i) ∈ allPages cs ↔ ∃ c ∈ cs, (id, i) ∈ c.pages := List.mem_flatMap

theorem map_fst_pages (c : Stint) : c.pages.map Prod.fst = List.replicate c.count c.line := by
  simp [pages, stretchOf, Function.comp_def]

theorem allPages_cons : allPages (c :: cs) = c.pages ++ allPages cs := rfl

/-- Of stints on different lines, the pages lie in the lines of the stints, in their order. -/
theorem dedup_map_fst_allPages (hpos : ∀ c ∈ cs, 0 < c.count)
    (hnodup : (cs.map (·.line)).Nodup) :
    ((allPages cs).map Prod.fst).dedup = cs.map (·.line) := by
  induction cs with
  | nil => rfl
  | cons c cs ih =>
    rw [List.forall_mem_cons] at hpos
    rw [List.map_cons, List.nodup_cons] at hnodup
    have hapart : (c.pages.map Prod.fst).Disjoint ((allPages cs).map Prod.fst) := by
      rw [map_fst_pages]
      intro id hid hlater
      obtain rfl := List.eq_of_mem_replicate hid
      obtain ⟨⟨_, i⟩, hpage, rfl⟩ := List.mem_map.1 hlater
      obtain ⟨c', hc', hpage⟩ := mem_allPages.1 hpage
      exact hnodup.1 (List.mem_map.2 ⟨c', hc', (mem_pages.1 hpage).1.symm⟩)
    rw [allPages_cons, List.map_append, hapart.dedup_append, ih hpos.2 hnodup.2, map_fst_pages,
      List.replicate_dedup (Nat.ne_of_gt hpos.1)]
    rfl

/-- Of stints on different lines, those completed their line whose pages include its last one. -/
theorem filter_last_lines (hfits : ∀ c ∈ cs, 0 < c.count ∧ c.page + c.count ≤ n)
    (hnodup : (cs.map (·.line)).Nodup) :
    (cs.map (·.line)).filter (fun id => (id, n - 1) ∈ allPages cs) = completed n cs := by
  rw [List.filter_map, completed]
  refine congrArg _ (List.filter_congr fun c hc => ?_)
  have hsame : ∀ c' ∈ cs, c'.line = c.line → c' = c := fun c' hc' hline =>
    List.inj_on_of_nodup_map hnodup hc' hc hline
  obtain ⟨hcount, hroom⟩ := hfits c hc
  rw [Function.comp_apply, decide_eq_decide, mem_allPages]
  constructor
  · rintro ⟨c', hc', hpage⟩
    obtain ⟨hline, -, hlast⟩ := mem_pages.1 hpage
    rw [hsame c' hc' hline.symm] at hlast
    omega
  · intro hlast
    exact ⟨c, hc, mem_pages.2 ⟨rfl, by omega, by omega⟩⟩

/-- The last page of all is the last one of the last stint. -/
theorem exists_getLast_of_getLast_allPages (hpos : ∀ c ∈ cs, 0 < c.count)
    (hlast : (allPages cs).getLast? = some (id, i)) :
    ∃ c, cs.getLast? = some c ∧ c.line = id ∧ c.page + c.count = i + 1 := by
  obtain rfl | ⟨init, c, rfl⟩ := cs.eq_nil_or_concat'
  · cases hlast
  · have hcount := hpos c (by simp)
    refine ⟨c, by simp, ?_⟩
    have hpages : allPages [c] = c.pages := List.append_nil _
    have hc : c.pages.getLast? = some (c.line, c.page + c.count - 1) := by
      rw [pages, stretchOf, List.getLast?_map, List.getLast?_range', if_neg (Nat.ne_of_gt hcount)]
      simp
    rw [allPages_append, hpages, List.getLast?_append, hc, Option.some_or] at hlast
    cases hlast
    exact ⟨rfl, by omega⟩

end Stint

namespace Allocation

variable {frame : Option UnitId → WritePointer} {o : Option UnitId} {p q : Pool}
  {w : WritePointer} {s t : Allocation} {c : Stint} {cs : List Stint} {f : Fill} {pages : Nat}

/-- The work that a fill comes down to. -/
structure Works (o : Option UnitId) (s : Allocation) (pages : Nat) (f : Fill) (cs : List Stint) :
    Prop where
  steps : Steps (Lays o) s cs (point ⟨f.pool, s.pointer⟩ o f.pointer)
  lines : f.lines = cs.map (·.line)
  retired : f.retired = Stint.completed s.pool.pagesPerLine cs
  count : (Stint.allPages cs).length = pages
  split : f.lines = f.retired ∨ ∃ id, f.lines = f.retired ++ [id] ∧ f.pointer.line = some id

/-! ### What a fill comes down to -/

theorem Works.nothing (frame : Option UnitId → WritePointer) (o : Option UnitId) (p : Pool)
    (w : WritePointer) : Works o (point ⟨p, frame⟩ o w) 0 ⟨p, w, [], [], false⟩ [] where
  steps := by
    rw [point_frame]
    exact .refl _
  lines := rfl
  retired := rfl
  count := rfl
  split := .inl rfl

/-- The last stint, if it leaves room on its line. -/
theorem Works.stays (hroom : c.page + c.count < s.pool.pagesPerLine)
    (h : Steps (Lays o) s [c] (point ⟨q, s.pointer⟩ o ⟨some c.line, c.page + c.count⟩)) :
    Works o s c.count ⟨q, ⟨some c.line, c.page + c.count⟩, [c.line], [], false⟩ [c] where
  steps := h
  lines := rfl
  retired := (Stint.completed_of_lt hroom).symm
  count := by simp [Stint.allPages, Stint.pages, length_stretchOf]
  split := .inr ⟨c.line, rfl, rfl⟩

/-- A stint that completes its line, with further work after it. -/
theorem Works.fills (hs : s.Sound) (hlast : c.page + c.count = s.pool.pagesPerLine)
    (hfirst : Steps (Lays o) s [c] (point ⟨q, s.pointer⟩ o w))
    (h : Works o (point ⟨q, s.pointer⟩ o w) pages f cs) :
    Works o s (c.count + pages) (f.precededBy c.line true) (c :: cs) where
  steps := by
    have hsteps := hfirst.trans h.steps
    rwa [point_frame] at hsteps
  lines := congrArg (c.line :: ·) h.lines
  retired := by
    have hsize := (laid_of_steps hfirst hs).framed.pagesPerLine
    have hretired := h.retired
    rw [hsize] at hretired
    rw [← List.singleton_append, Stint.completed_append, Stint.completed_of_eq hlast]
    exact congrArg (c.line :: ·) hretired
  count := by
    rw [Stint.allPages_cons, List.length_append, h.count, Stint.pages, length_stretchOf]
  split := by
    obtain hall | ⟨id, hsplit, hcurrent⟩ := h.split
    · exact .inl (congrArg (c.line :: ·) hall)
    · exact .inr ⟨id, congrArg (c.line :: ·) hsplit, hcurrent⟩

/-- Further pages that find a line are all written on it, or complete it first. -/
theorem exists_stint_fillLines (hs : (point ⟨p, frame⟩ o w).Sound) (rollover : Rollover)
    (fuel pages : Nat)
    (hfed : (Pool.fillLines o rollover (fuel + 1) p w (pages + 1)).starved = false) :
    ∃ c : Stint,
      (c.count = pages + 1 ∧ c.page + c.count < p.pagesPerLine ∧ ∃ q,
        Steps (Lays o) (point ⟨p, frame⟩ o w) [c]
          (point ⟨q, frame⟩ o ⟨some c.line, c.page + c.count⟩) ∧
        Pool.fillLines o rollover (fuel + 1) p w (pages + 1) =
          ⟨q, ⟨some c.line, c.page + c.count⟩, [c.line], [], false⟩) ∨
      (c.count ≤ pages + 1 ∧ c.page + c.count = p.pagesPerLine ∧ ∃ q w',
        Steps (Lays o) (point ⟨p, frame⟩ o w) [c] (point ⟨q, frame⟩ o w') ∧
        Pool.fillLines o rollover (fuel + 1) p w (pages + 1) =
          (Pool.fillLines o rollover fuel q w' (pages + 1 - c.count)).precededBy c.line true) := by
  rw [Pool.fillLines] at hfed ⊢
  split at hfed
  · cases hfed
  · next line page q hnext =>
    have hopen := steps_nextPage hasOpening_lays hs hnext
    have hsize : q.pagesPerLine = p.pagesPerLine := (laid_of_steps hopen hs).framed.pagesPerLine
    obtain ⟨-, -, -, -, -, hroom⟩ :=
      (sound_of_lays hopen hs).of_pointer (pointer_point_self _ _ _)
    simp only [pool_point] at hroom
    dsimp only
    rw [Pool.pagesPerLine_program]
    split
    · next hlast =>
      have hfill := Lays.fills (s := point ⟨q, frame⟩ o ⟨some line, page⟩)
        (pointer_point_self _ _ _) (by omega) hlast
      have hfilled := hopen.tail hfill
      rw [pool_point, point_frame] at hfilled
      refine ⟨⟨line, page, _⟩, .inr ⟨Nat.min_le_left _ _, hlast.trans hsize, _, _, ?_, rfl⟩⟩
      exact hfilled.trans (steps_rollOver hasOpening_lays rfl)
    · next hstay =>
      have hshort : pages + 1 ≤ q.pagesPerLine - page := by omega
      have hspare : page + (pages + 1) < q.pagesPerLine := by omega
      have hwrite := Lays.writes (s := point ⟨q, frame⟩ o ⟨some line, page⟩)
        (pointer_point_self _ _ _) (Nat.succ_pos pages) hspare
      have hwritten := hopen.tail hwrite
      rw [pool_point, point_frame] at hwritten
      rw [Nat.min_eq_left hshort, Nat.sub_self, Pool.fillLines]
      exact ⟨⟨line, page, pages + 1⟩, .inl ⟨rfl, hsize ▸ hspare, _, hwritten, rfl⟩⟩

theorem exists_works_fillLines (frame : Option UnitId → WritePointer) (rollover : Rollover)
    (fuel pages : Nat) (hs : (point ⟨p, frame⟩ o w).Sound)
    (hfed : (Pool.fillLines o rollover fuel p w pages).starved = false) :
    ∃ cs, Works o (point ⟨p, frame⟩ o w) pages (Pool.fillLines o rollover fuel p w pages) cs := by
  induction fuel generalizing p w pages with
  | zero =>
    cases pages with
    | zero => exact ⟨[], .nothing frame o p w⟩
    | succ pages => cases hfed
  | succ fuel ih =>
    cases pages with
    | zero => exact ⟨[], .nothing frame o p w⟩
    | succ pages =>
      obtain ⟨c, ⟨hcount, hroom, q, hsteps, hfill⟩ | ⟨hcount, hlast, q, w', hsteps, hfill⟩⟩ :=
        exists_stint_fillLines hs rollover fuel pages hfed
      · rw [hfill, ← hcount]
        refine ⟨_, .stays hroom ?_⟩
        rwa [point_frame]
      · rw [hfill] at hfed ⊢
        obtain ⟨cs, hrest⟩ := ih _ (sound_of_lays hsteps hs) hfed
        rw [← point_frame p q frame o w w'] at hsteps hrest
        have hworks := Works.fills hs hlast hsteps hrest
        rw [Nat.add_sub_cancel' hcount] at hworks
        exact ⟨c :: cs, hworks⟩

/-- A fill that is not left without a line is the work of its writer. -/
theorem exists_works_fill (hs : s.Sound) (rollover : Rollover)
    (hfed : (s.pool.fill o rollover (s.pointer o) pages).starved = false) :
    ∃ cs, Works o s pages (s.pool.fill o rollover (s.pointer o) pages) cs := by
  have h := exists_works_fillLines (p := s.pool) (o := o) (w := s.pointer o) s.pointer rollover
    (s.pool.freeCount o + 1) pages
  rw [point_pointer] at h
  exact h hs hfed

/-- A line that is left as the current one was not completed, so no line is named twice. -/
theorem Works.nodup_lines (h : Works o s pages f cs) (hs : s.Sound) : f.lines.Nodup := by
  have hlaid := laid_of_steps h.steps hs
  have hretired : f.retired.Nodup := h.retired ▸ hlaid.nodup
  obtain hall | ⟨id, hsplit, hcurrent⟩ := h.split
  · rwa [hall]
  · have hpointer : (point ⟨f.pool, s.pointer⟩ o f.pointer).pointer o =
        ⟨some id, f.pointer.page⟩ := by rw [pointer_point_self, ← hcurrent]
    obtain ⟨l, hline, hstate, -⟩ := (sound_of_lays h.steps hs).of_pointer hpointer
    have hfresh := hlaid.not_mem_completed hline (by simp [hstate])
    rw [← h.retired] at hfresh
    rw [hsplit]
    exact hretired.append (List.nodup_singleton id) (by simpa using hfresh)

end Allocation

end DataPlacement
