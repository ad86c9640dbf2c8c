import DataPlacement.Proofs.Allocation.Stints
import DataPlacement.ReclaimUnit

namespace DataPlacement.Allocation

variable {s t : Allocation} {o : Option UnitId} {id : LineId} {page pages : Nat} {f : Fill}
  {cs : List Stint}

/-! ### Streams -/

/-- The pages that the writer writes next. -/
def nextPages (s : Allocation) (o : Option UnitId) (pages : Nat) : List (LineId × Nat) :=
  (s.pageStream o).take pages

/-- The stream begins where the pointer stands. -/
theorem Sound.pageStream_current (hs : s.Sound) (hpointer : s.pointer o = ⟨some id, page⟩) :
    ∃ rest, s.pageStream o = (id, page) :: rest := by
  obtain ⟨-, -, -, -, -, hroom⟩ := hs.of_pointer hpointer
  obtain ⟨count, hcount⟩ := Nat.exists_eq_add_of_lt hroom
  rw [pageStream, hpointer, Pool.pageStream_current, Pool.pagesFrom, stretchOf, hcount,
    Nat.add_assoc, Nat.add_sub_cancel_left, List.range'_succ]
  exact ⟨_, rfl⟩

theorem pageStream_of_empty (hline : (s.pointer o).line = none) (hfree : s.pool.freeLines o = []) :
    s.pageStream o = [] := by
  rw [pageStream, Pool.pageStream_closed _ _ hline, hfree]
  rfl

/-- A writer's stream consists of pages that are not written. -/
theorem Sound.blank_of_mem_pageStream (hs : s.Sound)
    (hmem : (id, page) ∈ s.pageStream o) :
    page < s.pool.pagesPerLine ∧ ¬ s.pool.Programmed id page := by
  rw [pageStream, Pool.pageStream, List.mem_append, List.mem_flatMap, List.mem_flatMap] at hmem
  obtain ⟨i, hi, hpage⟩ | ⟨i, hi, hpage⟩ := hmem
  · obtain ⟨rfl, hfrom, hto⟩ := mem_stretchOf.1 hpage
    have hpointer : s.pointer o = ⟨some id, (s.pointer o).page⟩ := by
      rw [Option.mem_toList] at hi
      rw [← hi]
    obtain ⟨l, hline, -, -, hpages, hroom⟩ := hs.of_pointer hpointer
    refine ⟨by omega, ?_⟩
    rintro ⟨k, hk, hprogrammed⟩
    obtain rfl : l = k := Option.some.inj (hline.symm.trans hk)
    omega
  · obtain ⟨rfl, -, hto⟩ := mem_stretchOf.1 hpage
    obtain ⟨l, hline, -, -, hpages⟩ := hs.free_of_mem hi
    refine ⟨by omega, ?_⟩
    rintro ⟨k, hk, hprogrammed⟩
    obtain rfl : l = k := Option.some.inj (hline.symm.trans hk)
    omega

/-- A unit stands at the head of its stream, and is full when there is none. -/
structure Heads (s : Allocation) (u : UnitId) (unit : ReclaimUnit) : Prop where
  full : s.pageStream (some u) = [] → unit.state = .full ∧ unit.pointer = .closed
  current : ∀ id page rest, s.pageStream (some u) = (id, page) :: rest →
    unit.state = .active ∧ unit.pointer = ⟨some id, page⟩

/-! ### Fills -/

/-- The next pages of the writer `o` were written, on `lines`, of which `retired` became full, and
nothing else happened. -/
structure Landed (s : Allocation) (o : Option UnitId) (pages : Nat) (lines retired : List LineId)
    (t : Allocation) : Prop where
  /-- The stream was long enough, and its rest is the stream from here on. -/
  fits : pages ≤ (s.pageStream o).length
  rest : t.pageStream o = (s.pageStream o).drop pages
  /-- The pages were blank and are now the only ones that are written in addition. -/
  blank : ∀ id page, (id, page) ∈ s.nextPages o pages →
    page < s.pool.pagesPerLine ∧ ¬ s.pool.Programmed id page
  programmed : ∀ id page, t.pool.Programmed id page ↔
    s.pool.Programmed id page ∨ (id, page) ∈ s.nextPages o pages
  /-- The lines are those that the pages lie in, in their order and each once. -/
  lines_eq : lines = ((s.nextPages o pages).map Prod.fst).dedup
  /-- Those of them became full whose last page was written, and these come first. -/
  retired_eq : retired =
    lines.filter fun id => (id, s.pool.pagesPerLine - 1) ∈ s.nextPages o pages
  first : retired <+: lines
  /-- They were counted as retirements and took their ages in order, the current line has its new
  page count, and no other record changed. -/
  retirements : t.pool.retirements = s.pool.retirements + retired.length
  records : ∀ id : LineId, t.pool.lines[id]? = s.pool.lines[id]?.map fun l =>
    l.settled id s.pool.pagesPerLine s.pool.retirements retired (t.pointer o)
  /-- The writer stands behind the last page, or that one was the last of its line. -/
  last : ∀ id page, (s.nextPages o pages).getLast? = some (id, page) →
    t.pointer o = ⟨some id, page + 1⟩ ∧ page + 1 < s.pool.pagesPerLine ∨
      page + 1 = s.pool.pagesPerLine ∧ (t.pointer o).page = 0
  /-- The other lists and pointers are as before. -/
  framed : Framed o s t

theorem Works.nextPages (h : Works o s pages f cs) (hs : s.Sound) :
    s.nextPages o pages = Stint.allPages cs := by
  rw [Allocation.nextPages, (laid_of_steps h.steps hs).stream, ← h.count, List.take_left]

theorem Works.landed (h : Works o s pages f cs) (hs : s.Sound) :
    Landed s o pages f.lines f.retired (point ⟨f.pool, s.pointer⟩ o f.pointer) := by
  have hlaid := laid_of_steps h.steps hs
  have hpages := h.nextPages hs
  have hnodup : (cs.map (·.line)).Nodup := h.lines ▸ h.nodup_lines hs
  have hpos : ∀ c ∈ cs, 0 < c.count := fun c hc => (hlaid.fits c hc).1
  have hlines : f.lines = ((Stint.allPages cs).map Prod.fst).dedup := by
    rw [h.lines, Stint.dedup_map_fst_allPages hpos hnodup]
  have hretired : f.retired =
      f.lines.filter fun id => (id, s.pool.pagesPerLine - 1) ∈ Stint.allPages cs := by
    rw [h.lines, Stint.filter_last_lines hlaid.fits hnodup, h.retired]
  exact {
    fits := by
      rw [hlaid.stream, List.length_append, h.count]
      omega
    rest := by rw [hlaid.stream, ← h.count, List.drop_left]
    blank := fun id page hmem => hs.blank_of_mem_pageStream (List.mem_of_mem_take hmem)
    programmed := fun id page => hpages ▸ hlaid.programmed id page
    lines_eq := hpages ▸ hlines
    retired_eq := hpages ▸ hretired
    first := by
      obtain hall | ⟨id, hsplit, -⟩ := h.split
      · exact hall ▸ List.prefix_rfl
      · exact hsplit ▸ List.prefix_append f.retired [id]
    retirements := h.retired ▸ hlaid.retirements
    records := h.retired ▸ hlaid.records
    last := fun id page hlast => by
      rw [hpages] at hlast
      obtain ⟨c, hc, rfl, hend⟩ := Stint.exists_getLast_of_getLast_allPages hpos hlast
      rw [← hend]
      exact hlaid.last c hc
    framed := hlaid.framed }

/-- A fill that is not left without a line lands on the next pages of its writer. -/
theorem landed_fill (hs : s.Sound) (rollover : Rollover)
    (hfed : (s.pool.fill o rollover (s.pointer o) pages).starved = false) :
    let f := s.pool.fill o rollover (s.pointer o) pages
    Landed s o pages f.lines f.retired (point ⟨f.pool, s.pointer⟩ o f.pointer) := by
  obtain ⟨cs, h⟩ := exists_works_fill hs rollover hfed
  exact h.landed hs

theorem Landed.lines_ne_nil {lines retired : List LineId} (h : Landed s o pages lines retired t)
    (hpages : 0 < pages) : lines ≠ [] := by
  intro hnil
  have hnone : s.nextPages o pages = [] := by
    have hlines := h.lines_eq
    rwa [hnil, eq_comm, List.dedup_eq_nil, List.map_eq_nil_iff] at hlines
  rw [nextPages, List.take_eq_nil_iff] at hnone
  obtain hzero | hempty := hnone
  · omega
  · have hfits := h.fits
    rw [hempty, List.length_nil] at hfits
    omega

end DataPlacement.Allocation
