import DataPlacement.Proofs.Configuration.AllOrNothing
import DataPlacement.Proofs.Configuration.DirectUse
import DataPlacement.Proofs.Device.Agreement
import DataPlacement.Proofs.Device.Reclaiming

namespace DataPlacement

namespace Pool

variable {p p' q : Pool} {o : Option UnitId} {rollover : Rollover} {w w' : WritePointer}
  {id : LineId} {rest : List LineId} {place : LineId × Nat} {pages : Nat} {f : Fill}

theorem fill_zero (p : Pool) (o : Option UnitId) (rollover : Rollover) (w : WritePointer) :
    p.fill o rollover w 0 = { pool := p, pointer := w } := by
  rw [fill, fillLines]

/-- What a loop with pages to write comes to follows from the page that it writes first. -/
theorem WriteLoop.of_nextPage (h : WriteLoop o rollover p w pages f) (hpages : 0 < pages)
    (hnext : p.nextPage o w = (some place, q)) (hnext' : p'.nextPage o w' = (some place, q)) :
    WriteLoop o rollover p' w' pages f := by
  have hsame := hnext'.trans hnext.symm
  cases h with
  | written => exact absurd hpages (Nat.lt_irrefl 0)
  | starves _ hnone => cases hnone.symm.trans hnext
  | stays _ hfirst hroom => exact .stays hpages (hsame.trans hfirst) hroom
  | fills _ hfirst hcount hlast hroll hrest =>
    exact .fills hpages (hsame.trans hfirst) hcount hlast hroll hrest

/-- A writer without a line that has pages to write fills the same lines as one that already took
the first of its free lines. -/
theorem fill_start_taken (hfree : p.freeLines o = id :: rest) (hpages : 0 < pages) :
    (p.taken o id rest).fill o rollover (.start id) pages = p.fill o rollover .closed pages := by
  have hopened : (p.taken o id rest).nextPage o (.start id) =
      (some (id, 0), p.taken o id rest) := rfl
  have hclosed : p.nextPage o .closed = (some (id, 0), p.taken o id rest) := by
    simp [nextPage, WritePointer.closed, take_of_freeLines_eq_cons hfree]
  have hloop := writeLoop_fill (p := p.taken o id rest) (o := o) (w := .start id) rollover pages
    (Nat.zero_le _)
  exact (hloop.of_nextPage hpages hopened hclosed).eq_fill (Nat.zero_le _)

end Pool

/-- A unit that is opened and written by one write is as if it had been opened before. -/
theorem ReclaimUnit.afterFill_openOn {unit : ReclaimUnit} {f : Fill} (id : LineId) (now : Nat)
    (hclosed : unit.pointer = .closed) (hlines : f.lines ≠ []) :
    (unit.openOn id now).afterFill f now = unit.afterFill f now := by
  simp [afterFill, openOn, hclosed, hlines, WritePointer.closed, WritePointer.start]

namespace Configuration

variable {c c' : Configuration} {p q : Pool} {u v : UnitId} {placement : Placement}

/-! ### Room -/

section Opened

variable {unit : ReclaimUnit} {id : LineId} {rest : List LineId}

/-- The units after one of them was opened again on a line. -/
def reopened (c : Configuration) (u : UnitId) (id : LineId) (now : Nat) : Configuration :=
  c.updateUnit u (·.openOn id now)

theorem blank_reopened (c : Configuration) (u : UnitId) (id : LineId) (now : Nat) :
    (c.reopened u id now).blank = c.blank :=
  c.blank_updateUnit u fun _ => rfl

/-- Opening a unit on a line leaves the room of the others as it is. -/
theorem availablePages_reopened_of_ne (hfree : p.freeLines (some u) = id :: rest) (hne : v ≠ u)
    (now : Nat) :
    (c.reopened u id now).availablePages (p.taken (some u) id rest) v = c.availablePages p v := by
  have hcount : (p.taken (some u) id rest).freeCount (some v) = p.freeCount (some v) := by
    rw [Pool.freeCount_eq_length, Pool.freeCount_eq_length, Pool.freeLines_taken _ hfree,
      if_neg (by simp [hne])]
  simp only [availablePages, reopened, unit?_updateUnit, if_neg (Ne.symm hne), Pool.streamPages,
    hcount, Pool.pagesPerLine_taken]

end Opened

/-- A line that is taken was free, so that no unit has fewer full lines than before. -/
theorem Hosted.reclaimablePages_taken (h : Hosted c p) {id : LineId} {rest : List LineId}
    (hfree : p.freeLines (some u) = id :: rest) (v : UnitId) :
    reclaimablePages (p.taken (some u) id rest) v = reclaimablePages p v := by
  obtain ⟨d, hd, rfl, rfl⟩ := h
  have hid : id ∈ d.pool.freeLines (some u) := by simp [hfree]
  have hfull : (d.pool.taken (some u) id rest).full (some v) = d.pool.full (some v) := by
    ext i
    rw [Pool.mem_full, Pool.mem_full, Pool.getElem?_taken]
    split
    · next hi =>
      subst hi
      obtain ⟨l, hline, hstate, -⟩ := (hd.allocation.mem_freeLines (some u) id).1 hid
      simp [show d.pool.lines[id]? = some l from hline, Line.activate, hstate]
    · rfl
  rw [reclaimablePages, reclaimablePages, ← Pool.card_full, ← Pool.card_full, hfull,
    Pool.pagesPerLine_taken]

theorem Hosted.availablePages_rearm (h : Hosted c p) (u v : UnitId) (now : Nat) :
    (c.rearm p u now).state.1.availablePages (c.rearm p u now).state.2 v =
      c.availablePages p v := by
  by_cases huv : v = u
  · subst huv
    obtain ⟨d, hd, rfl, rfl⟩ := h
    exact Device.availablePages_rearm hd v now
  · obtain hsame | ⟨unit, id, rest, -, -, hfree, hrearm⟩ := c.rearm_cases p now u
    · rw [hsame]
      rfl
    · rw [hrearm]
      exact availablePages_reopened_of_ne hfree huv now

theorem Hosted.reclaimablePages_rearm (h : Hosted c p) (u v : UnitId) (now : Nat) :
    reclaimablePages (c.rearm p u now).state.2 v = reclaimablePages p v := by
  obtain hsame | ⟨unit, id, rest, -, -, hfree, hrearm⟩ := c.rearm_cases p now u
  · rw [hsame]
    rfl
  · rw [hrearm]
    exact h.reclaimablePages_taken hfree v

/-! ### The next write to the unit -/

section Opened

variable {unit : ReclaimUnit} {id : LineId} {rest : List LineId} (block : Nat) {bytes : Nat}

/-- What the next write makes of a full unit that was opened again, in terms of the unit before. -/
theorem Hosted.write_reopened (h : Hosted c p) (hunit : c.unit? u = some unit)
    (hfull : unit.state = .full) (hfree : p.freeLines (some u) = id :: rest)
    (hu : c.Targets placement bytes u) (hfits : bytes / c.pageSize ≤ c.availablePages p u)
    (now : Nat) :
    let pages := pageCounter (bytes / c.pageSize)
    let f := p.fill (some u) .atOnce .closed pages
    let g := (p.taken (some u) id rest).fill (some u) .atOnce (.start id) pages
    c.write p placement block bytes now =
        .done ⟨some u, block, pages, f.lines, f.retired⟩
          ((c.updateUnit u (·.afterFill f now)).countWrite u bytes, f.pool)
          (if f.ranDry then [.filled u] else []) ∧
      (c.reopened u id now).write (p.taken (some u) id rest) placement block bytes now =
        .done ⟨some u, block, pages, g.lines, g.retired⟩
          ((c.updateUnit u fun unit => (unit.openOn id now).afterFill g now).countWrite u bytes,
            g.pool)
          (if g.ranDry then [.filled u] else []) := by
  intro pages f g
  have hrearmed := h.availablePages_rearm u u now
  have hrearm : c.rearm p u now =
      .done true (c.reopened u id now, p.taken (some u) id rest) [.reopened u id] := by
    simp [rearm, hunit, hfull, Pool.take_of_freeLines_eq_cons hfree, reopened]
  rw [hrearm] at hrearmed
  obtain ⟨d, hd, rfl, rfl⟩ := h
  have hpageSize := pageSize_eq_of_blank (d.configuration.blank_reopened u id now)
  have hclosed := hd.pointer_of_full hunit hfull
  have hopened : (d.configuration.reopened u id now).unit? u = some (unit.openOn id now) := by
    rw [reopened, unit?_updateUnit, if_pos rfl, hunit]
    rfl
  constructor
  · obtain ⟨before, hbefore, hwrite⟩ := d.configuration.write_of_fits d.pool placement block bytes
      now hu hfits fun unit hunit => hd.page_le hunit
    obtain rfl := Option.some.inj (hunit.symm.trans hbefore)
    rw [hwrite, writeFill, hclosed]
  · have hu' := (targets_of_blank (d.configuration.blank_reopened u id now) rfl placement bytes
      u).2 hu
    have hfits' : bytes / (d.configuration.reopened u id now).pageSize ≤
        (d.configuration.reopened u id now).availablePages (d.pool.taken (some u) id rest) u := by
      rw [hpageSize]
      exact hfits.trans_eq hrearmed.symm
    have hpage : ∀ unit, (d.configuration.reopened u id now).unit? u = some unit →
        unit.pointer.page ≤ (d.pool.taken (some u) id rest).pagesPerLine := by
      intro unit hunit
      obtain rfl := Option.some.inj (hopened.symm.trans hunit)
      exact Nat.zero_le _
    obtain ⟨after, hafter, hwrite⟩ := (d.configuration.reopened u id now).write_of_fits
      (d.pool.taken (some u) id rest) placement block bytes now hu' hfits' hpage
    obtain rfl := Option.some.inj (hopened.symm.trans hafter)
    rw [hwrite, writeFill, hpageSize, reopened, updateUnit_updateUnit]
    rfl

/-- A full unit with a line is opened by its next write, on the line and at the time at which it
would have been opened before, if the loop of the write has a page to write. -/
theorem Hosted.write_eq_of_pages (h : Hosted c p) (hunit : c.unit? u = some unit)
    (hfull : unit.state = .full) (hfree : p.freeLines (some u) = id :: rest)
    (hu : c.Targets placement bytes u) (hfits : bytes / c.pageSize ≤ c.availablePages p u)
    (hpages : 0 < pageCounter (bytes / c.pageSize)) (now : Nat) :
    (c.reopened u id now).write (p.taken (some u) id rest) placement block bytes now =
      c.write p placement block bytes now := by
  obtain ⟨hwrite, hwrite'⟩ := h.write_reopened block hunit hfull hfree hu hfits now
  obtain ⟨d, hd, rfl, rfl⟩ := h
  have hclosed := hd.pointer_of_full hunit hfull
  have hroom : pageCounter (bytes / d.configuration.pageSize) ≤
      d.pool.streamPages (some u) .closed := hclosed ▸ pageCounter_le_streamPages hunit hfits
  have hfed : (d.pool.fill (some u) .atOnce .closed
      (pageCounter (bytes / d.configuration.pageSize))).starved = false :=
    Pool.starved_fill_eq_false (Nat.zero_le _) hroom
  have hlines := (Pool.writeLoop_fill .atOnce _ (Nat.zero_le _)).lines_ne_nil hpages hfed
  rw [hwrite, hwrite', Pool.fill_start_taken hfree hpages]
  generalize d.pool.fill (some u) .atOnce .closed _ = f at hlines ⊢
  have hunits : d.configuration.updateUnit u (fun unit => (unit.openOn id now).afterFill f now) =
      d.configuration.updateUnit u (·.afterFill f now) := by
    refine updateUnit_congr fun before hbefore => ?_
    obtain rfl := Option.some.inj (hunit.symm.trans hbefore)
    exact unit.afterFill_openOn id now hclosed hlines
  rw [hunits]

/-- A full unit that its next write gives no page stays as it is: full, or open if it was opened. -/
theorem Hosted.write_of_no_pages (h : Hosted c p) (hunit : c.unit? u = some unit)
    (hfull : unit.state = .full) (hfree : p.freeLines (some u) = id :: rest)
    (hu : c.Targets placement bytes u) (hfits : bytes / c.pageSize ≤ c.availablePages p u)
    (hnone : pageCounter (bytes / c.pageSize) = 0) (now : Nat) :
    let late := c.write p placement block bytes now
    let first := (c.reopened u id now).write (p.taken (some u) id rest) placement block bytes now
    first.result = late.result ∧
      (late.state.1.unit? u).map (·.state) = some .full ∧
      (first.state.1.unit? u).map (·.state) = some .active := by
  obtain ⟨hwrite, hwrite'⟩ := h.write_reopened block hunit hfull hfree hu hfits now
  rw [hwrite, hwrite', hnone]
  have hunit' : c.units[u]? = some unit := hunit
  simp only [Outcome.done, Pool.fill_zero, countWrite, updateUnit, unit?, Array.getElem?_modify,
    if_true, hunit', Option.map_some, Option.some.injEq, true_and]
  simp [ReclaimUnit.countWrite, ReclaimUnit.afterFill, ReclaimUnit.openOn, Fill.ranDry, hfull]

end Opened

/-- Configurations that differ in counters and pointers alone refuse a write for the same cause, if
they have the same room for it. -/
theorem result_write_of_short (hblank : c'.blank = c.blank) (henabled : c'.enabled = c.enabled)
    (hroom : ∀ v, c'.availablePages q v = c.availablePages p v) {bytes : Nat}
    (hshort : ∀ v, c.Targets placement bytes v → c.availablePages p v < bytes / c.pageSize)
    (block now : Nat) :
    (c'.write q placement block bytes now).result =
      (c.write p placement block bytes now).result := by
  have hpageSize := pageSize_eq_of_blank hblank
  have hresolve := resolve_eq_of_blank hblank placement
  cases hon : c.enabled with
  | false => simp [write, henabled, hon, Outcome.refused]
  | true =>
    have hon' := henabled.trans hon
    by_cases hlength : bytes = 0 ∨ bytes % c.pageSize ≠ 0
    · have hlength' : bytes = 0 ∨ bytes % c'.pageSize ≠ 0 := by rwa [hpageSize]
      rw [write_of_invalid p placement block bytes now hon hlength,
        write_of_invalid q placement block bytes now hon' hlength']
      rfl
    · rw [not_or, not_not] at hlength
      cases hunit : c.resolve placement with
      | error cause =>
        rw [write_of_unresolved p block now hon hlength.1 hlength.2 hunit,
          write_of_unresolved q block now hon' hlength.1 (hpageSize ▸ hlength.2)
            (hresolve.trans hunit)]
        rfl
      | ok v =>
        have hv : c.Targets placement bytes v := ⟨hon, hlength.1, hlength.2, hunit⟩
        have hv' := (targets_of_blank hblank henabled placement bytes v).2 hv
        have hlong := hshort v hv
        rw [c.write_of_exhausted p placement block bytes now hv hlong,
          c'.write_of_exhausted q placement block bytes now hv' (by rwa [hpageSize, hroom])]
        rfl

/-- No write tells from its result whether a unit was opened again. -/
theorem Hosted.result_write_rearm (h : Hosted c p) (u : UnitId) (placement : Placement)
    (block bytes now : Nat) :
    ((c.rearm p u now).state.1.write (c.rearm p u now).state.2 placement block bytes now).result =
      (c.write p placement block bytes now).result := by
  obtain hsame | ⟨unit, id, rest, hunit, hfull, hfree, hrearm⟩ := c.rearm_cases p now u
  · rw [hsame]
    rfl
  · have hroom := fun v => h.availablePages_rearm u v now
    simp only [hrearm] at hroom ⊢
    by_cases hfits : ∃ v, c.Targets placement bytes v ∧
        bytes / c.pageSize ≤ c.availablePages p v
    · obtain ⟨v, hv, hfits⟩ := hfits
      by_cases huv : v = u
      · subst huv
        rcases Nat.eq_zero_or_pos (pageCounter (bytes / c.pageSize)) with hnone | hpages
        · exact (h.write_of_no_pages block hunit hfull hfree hv hfits hnone now).1
        · exact congrArg Outcome.result
            (h.write_eq_of_pages block hunit hfull hfree hv hfits hpages now)
      · obtain ⟨d, hd, rfl, rfl⟩ := h
        have hadvances := (Device.advances_rearm (W := fun o => o = some u) hd rfl now).1
        have hagree := hadvances.agree (u := v) (by simp [huv]) hd
        have hresult := (hagree.routeOnce block bytes hd
          (hadvances.sound hd) hv.1 hv.2.2.2 now now).1
        have hrearm' : (d.onUnits fun c p => c.rearm p u now).state =
            d.setUnits (d.configuration.updateUnit u (·.openOn id now),
              d.pool.taken (some u) id rest) := by
          rw [Device.onUnits_eq_mapState, hrearm]
          rfl
        rw [hrearm'] at hresult
        exact hresult
    · have hshort : ∀ v, c.Targets placement bytes v →
          c.availablePages p v < bytes / c.pageSize := by
        intro v hv
        exact Nat.lt_of_not_le fun hle => hfits ⟨v, hv, hle⟩
      exact result_write_of_short (c.blank_reopened u id now) rfl hroom hshort block now

/-- An accepted write fits into the unit that it names. -/
theorem Hosted.fits_of_accepted (h : Hosted c p) {block bytes now : Nat} {r : WriteReport}
    (hr : (c.write p placement block bytes now).result = .ok r) (hunit : r.unit = some u) :
    c.Targets placement bytes u ∧ bytes / c.pageSize ≤ c.availablePages p u := by
  obtain ⟨d, hd, rfl, rfl⟩ := h
  obtain ⟨cause, notices, -, hwrite⟩ | ⟨v, hv, hfits⟩ :=
    d.configuration.write_cases d.pool placement block bytes now
  · rw [hwrite] at hr
    cases hr
  · obtain ⟨unit, -, hwrite⟩ := d.configuration.write_of_fits d.pool placement block bytes now hv
      hfits fun unit hunit => hd.page_le hunit
    rw [hwrite] at hr
    cases hr
    obtain rfl := Option.some.inj hunit
    exact ⟨hv, hfits⟩

/-- Opening a full unit again changes no room, and no result of a write. After an accepted write to
the unit nothing is left of the difference, if the loop of the write has a page to write. -/
theorem deferred_opening (h : Attainable c p) (u : UnitId) (placement : Placement)
    (block bytes now : Nat) :
    let opening := c.rearm p u now
    let first := opening.state.1.write opening.state.2 placement block bytes now
    let late := c.write p placement block bytes now
    (∀ v, opening.state.1.availablePages opening.state.2 v = c.availablePages p v ∧
        reclaimablePages opening.state.2 v = reclaimablePages p v) ∧
      first.result = late.result ∧
      ∀ r, late.result = .ok r → r.unit = some u →
        (first.state = late.state ↔
          0 < pageCounter (bytes / c.pageSize) ∨ opening.result = .ok false) := by
  intro opening first late
  rcases h.hosted_or_barren with h | h
  · refine ⟨fun v => ⟨h.availablePages_rearm u v now, h.reclaimablePages_rearm u v now⟩,
      h.result_write_rearm u placement block bytes now, fun r hr hto => ?_⟩
    obtain ⟨hu, hfits⟩ := h.fits_of_accepted hr hto
    obtain hsame | ⟨unit, id, rest, hunit, hfull, hfree, hrearm⟩ := c.rearm_cases p now u
    · have hopening : opening = .done false (c, p) := hsame
      simp only [first, hopening]
      exact iff_of_true rfl (.inr rfl)
    · have hopening : opening = .done true (c.reopened u id now, p.taken (some u) id rest)
        [.reopened u id] := hrearm
      simp only [first, hopening]
      rcases Nat.eq_zero_or_pos (pageCounter (bytes / c.pageSize)) with hnone | hpages
      · obtain ⟨-, hlate, hfirst⟩ :=
          h.write_of_no_pages block hunit hfull hfree hu hfits hnone now
        apply iff_of_false
        · intro hstates
          have hstate := hfirst.symm.trans ((congrArg (fun s => (s.1.unit? u).map (·.state))
            hstates).trans hlate)
          cases hstate
        · simp [hnone, Outcome.done]
      · have hwrite := h.write_eq_of_pages block hunit hfull hfree hu hfits hpages now
        exact iff_of_true (congrArg Outcome.state hwrite) (.inl hpages)
  · have hopening : opening = .done false (c, p) := h.rearm_eq u now
    simp only [first, hopening]
    exact ⟨fun v => ⟨rfl, rfl⟩, rfl, fun r _ _ => iff_of_true rfl (.inr rfl)⟩

/-- New units over two lines, after placement was turned on, each line was filled by a placed write,
and both were erased. -/
def emptied (c : Configuration) (pagesPerLine : Nat)
    (hsize : pagesPerLine < bitRange 32 := by decide) : Configuration × Pool :=
  let (c, p, _) := (c.enable (.erased 2 pagesPerLine hsize) (.steady 0 1)).state
  let (c, p) := (c.write p {} 0 (pagesPerLine * c.pageSize) 0).state
  let (c, p) := (c.write p {} 0 (pagesPerLine * c.pageSize) 0).state
  (c, ((p.reclaim 0).state.reclaim 1).state)

theorem attainable_emptied {g : Geometry} {params : Parameters} (hbuild : build g params = .ok c)
    (pagesPerLine : Nat) (hsize : pagesPerLine < bitRange 32) :
    Attainable (c.emptied pagesPerLine hsize).1 (c.emptied pagesPerLine hsize).2 :=
  (((((Attainable.built 2 pagesPerLine hsize hbuild).enabled _).written _ _ _ _).written _ _ _
    _).erased 0).erased 1

/-- The unit is full and has both lines back. Opened before a write of three pages or by it, it ends
up in the same way. -/
theorem deferred_opening_of_emptied_unit :
    ∃ c, build ⟨4096, 2, 2, 4096, by decide⟩ { handles := 1 } = .ok c ∧
      let s := c.emptied 2
      let opened := (s.1.rearm s.2 0 7).state
      let first := opened.1.write opened.2 {} 0 12288 7
      let late := s.1.write s.2 {} 0 12288 7
      Attainable s.1 s.2 ∧ (s.1.unit? 0).map (·.state) = some .full ∧
        (opened.1.unit? 0).map (·.state) = some .active ∧
        late.result = .ok ⟨some 0, 0, 3, [0, 1], [0]⟩ ∧ first.state = late.state := by
  have hbuild : build ⟨4096, 2, 2, 4096, by decide⟩ { handles := 1 } = .ok _ := rfl
  refine ⟨_, hbuild, ?_⟩
  intro s opened first late
  have hattainable : Attainable s.1 s.2 := attainable_emptied hbuild 2 (by decide)
  obtain ⟨-, -, hstates⟩ := deferred_opening hattainable 0 {} 0 12288 7
  obtain ⟨hfull, hopened, hresult, hpages⟩ : (s.1.unit? 0).map (·.state) = some .full ∧
      (opened.1.unit? 0).map (·.state) = some .active ∧
      late.result = .ok ⟨some 0, 0, 3, [0, 1], [0]⟩ ∧
      0 < pageCounter (12288 / s.1.pageSize) := by decide +kernel
  exact ⟨hattainable, hfull, hopened, hresult, (hstates _ hresult rfl).2 (.inl hpages)⟩

/-- The same with lines of 2 ^ 31 pages and a write of 2 ^ 32 pages, for which both lines have room.
The write is accepted and leaves the unit full; had the unit been opened before, it would be open.
-/
theorem unopened_unit_of_large_write :
    ∃ c, build ⟨4096, 2147483648, 2, 4096, by decide⟩ { handles := 1 } = .ok c ∧
      let s := c.emptied 2147483648
      let bytes := 17592186044416
      let opened := (s.1.rearm s.2 0 7).state
      let first := opened.1.write opened.2 {} 0 bytes 7
      let late := s.1.write s.2 {} 0 bytes 7
      Attainable s.1 s.2 ∧ bytes < bitRange 64 ∧ late.result = .ok ⟨some 0, 0, 0, [], []⟩ ∧
        first.result = late.result ∧ first.state ≠ late.state ∧
        (late.state.1.unit? 0).map (·.state) = some .full ∧
        late.state.2.freeLines (some 0) = [0, 1] ∧
        (first.state.1.unit? 0).map (·.state) = some .active ∧
        first.state.2.freeLines (some 0) = [1] := by
  have hbuild : build ⟨4096, 2147483648, 2, 4096, by decide⟩ { handles := 1 } = .ok _ := rfl
  refine ⟨_, hbuild, ?_⟩
  intro s bytes opened first late
  have hattainable : Attainable s.1 s.2 := attainable_emptied hbuild 2147483648 (by decide)
  exact ⟨hattainable, by decide +kernel⟩

end Configuration

end DataPlacement
