import DataPlacement.Audit.Device
import DataPlacement.Proofs.Allocation.Stints
import DataPlacement.Proofs.Device.Agreement
import DataPlacement.Proofs.Device.DirectUse
import DataPlacement.Proofs.Device.Endings
import DataPlacement.Proofs.Pool.Progress

namespace DataPlacement

/-- Replacing one item changes a sum by the difference of the two. -/
theorem sumOf_set {α : Type} (quantity : α → Nat) {items : List α} {i : Nat} {before : α}
    (after : α) (h : items[i]? = some before) :
    sumOf quantity (items.set i after) + quantity before =
      sumOf quantity items + quantity after := by
  induction items generalizing i with
  | nil => cases h
  | cons item items ih =>
    cases i with
    | zero =>
      cases h
      simp only [List.set_cons_zero, sumOf_cons]
      omega
    | succ i =>
      have hrest := ih h
      simp only [List.set_cons_succ, sumOf_cons]
      omega

namespace Pool

/-- The written pages of all lines. -/
def writtenPages (p : Pool) : Nat := sumOf (·.pages) p.lines.toList

theorem writtenPages_of_change {p q : Pool} {id : LineId} {before : Line} (after : Line)
    (hline : p.lines[id]? = some before)
    (hlines : ∀ i : LineId, q.lines[i]? = if id = i then some after else p.lines[i]?) :
    q.writtenPages + before.pages = p.writtenPages + after.pages := by
  have hsize : id < p.lines.size := (Array.getElem?_eq_some_iff.1 hline).1
  have hset : q.lines.toList = p.lines.toList.set id after := by
    refine List.ext_getElem? fun i => ?_
    rw [Array.getElem?_toList, hlines, List.getElem?_set, Array.getElem?_toList]
    simp [hsize]
  rw [writtenPages, hset]
  exact sumOf_set _ after (by rwa [Array.getElem?_toList])

end Pool

namespace Allocation

variable {o : Option UnitId} {s t : Allocation} {cs : List Stint} {pages : Nat}

/-- A step of a writer adds the pages of its stints. -/
theorem Lays.writtenPages (h : Lays o s cs t) (hs : s.Sound) :
    t.pool.writtenPages = s.pool.writtenPages + (Stint.allPages cs).length := by
  cases h with
  | @opens id rest hpointer hfree =>
    have hmem : id ∈ s.pool.freeLines o := by simp [hfree]
    obtain ⟨l, hline, -, -, hblank⟩ := hs.free_of_mem hmem
    have hsum := Pool.writtenPages_of_change (q := s.pool.taken o id rest) l.activate hline
      fun i => by
        rw [Pool.getElem?_taken]
        exact Pool.ite_map_line hline _ i
    rw [hblank] at hsum
    exact hsum
  | @writes id page count hpointer hcount hroom =>
    obtain ⟨l, hline, -, -, hpages, -⟩ := hs.of_pointer hpointer
    have hsum := Pool.writtenPages_of_change (q := s.pool.program id count)
      (l.program count s.pool.pagesPerLine) hline fun i => by
        rw [Pool.getElem?_program]
        exact Pool.ite_map_line hline _ i
    rw [hs.program_current hpointer hline (Nat.le_of_lt hroom)] at hsum
    dsimp only at hsum
    simp only [pool_point, Stint.allPages, Stint.pages, List.flatMap_cons, List.flatMap_nil,
      List.append_nil, length_stretchOf]
    omega
  | @fills id page count hpointer hcount hlast =>
    obtain ⟨l, hline, hstate, -, hpages, -⟩ := hs.of_pointer hpointer
    have hsum := Pool.writtenPages_of_change _ hline (Pool.getElem?_filled hline hstate count)
    rw [hs.program_current hpointer hline (Nat.le_of_eq hlast)] at hsum
    simp only [Line.retire] at hsum
    simp only [pool_point, Stint.allPages, Stint.pages, List.flatMap_cons, List.flatMap_nil,
      List.append_nil, length_stretchOf]
    omega

/-- A run of a writer adds the pages of its stints. -/
theorem writtenPages_of_lays (h : Steps (Lays o) s cs t) (hs : s.Sound) :
    t.pool.writtenPages = s.pool.writtenPages + (Stint.allPages cs).length := by
  induction h with
  | refl => rfl
  | tail hsteps hstep ih =>
    rw [hstep.writtenPages (sound_of_lays hsteps hs), ih, Stint.allPages_append,
      List.length_append, Nat.add_assoc]

/-- A fill that there is room for adds all its pages. -/
theorem writtenPages_fill (hs : s.Sound) (rollover : Rollover)
    (hroom : pages ≤ s.pool.streamPages o (s.pointer o)) :
    (s.pool.fill o rollover (s.pointer o) pages).pool.writtenPages =
      s.pool.writtenPages + pages := by
  -- The count of a line stops at its size. Stints end within their lines, so this costs no page.
  obtain ⟨cs, hworks⟩ := exists_works_fill hs rollover
    (Pool.starved_fill_eq_false (hs.page_le o) hroom)
  have hsum := writtenPages_of_lays hworks.steps hs
  rwa [pool_point, hworks.count] at hsum

end Allocation

namespace Device

open Allocation

variable {d d' : Device} {u : UnitId} {unit : ReclaimUnit} {r : WriteReport} {pages : Nat}
  {μ : Type} [Host.Memory μ]

/-- Bytes up to the pointer of a unit: on the lines that it filled up, as far as it counts them, and
on its current one. -/
def bytesPassed (d : Device) (u : UnitId) : Nat :=
  match d.configuration.unit? u with
  | none => 0
  | some unit =>
    (unit.linesConsumed * d.pool.pagesPerLine + unit.pointer.page) * d.configuration.pageSize

/-- Bytes that the host wrote, as a unit or the plain path counts them. -/
def hostBytes (d : Device) : Option UnitId → Nat
  | none => d.path.hostBytes
  | some u =>
    match d.configuration.unit? u with
    | none => 0
    | some unit => unit.hostBytes

/-- Bytes of as many lines as make the 32 bits of a unit's line counter start over. -/
def bytesRange (d : Device) : Nat :=
  bitRange 32 * d.pool.pagesPerLine * d.configuration.pageSize

/-- A write is one of `pages` pages by its report, by what it added to the lines, and by how far it
moved its unit on, if it went to one. -/
structure Tally (d : Device) (r : WriteReport) (d' : Device) (pages : Nat) : Prop where
  report : r.pages = pages
  lines : d'.pool.writtenPages = d.pool.writtenPages + pages
  unit : ∀ u, r.unit = some u →
    d'.bytesPassed u = (d.bytesPassed u + pages * d.configuration.pageSize) % d.bytesRange

/-- A counter that counts the pages of a write counts all of them if they are few enough for it. -/
theorem Tally.complete_iff (h : Tally d r d' (pageCounter pages)) :
    Tally d r d' pages ↔ pages < bitRange 32 := by
  constructor
  · intro hall
    have hcount : pageCounter pages = pages := h.report.symm.trans hall.report
    exact hcount ▸ Nat.mod_lt pages (by decide)
  · intro hshort
    have hcount : pageCounter pages = pages := Nat.mod_eq_of_lt hshort
    rwa [hcount] at h

/-- What an accepted write of `bytes` bytes to `o` makes of the counters. -/
structure Volume (o : Option UnitId) (pageSize bytes : Nat) (d : Device) (r : WriteReport)
    (d' : Device) : Prop where
  unit : r.unit = o
  whole : bytes / pageSize * pageSize = bytes
  hostBytes : d'.hostBytes o = advance 64 (d.hostBytes o) bytes
  counter : Tally d r d' (pageCounter (bytes / pageSize))
  complete : Tally d r d' (bytes / pageSize) ↔ bytes / pageSize < bitRange 32

theorem Volume.of_tally {o : Option UnitId} {pageSize bytes : Nat} (hunit : r.unit = o)
    (hwhole : bytes % pageSize = 0) (hbytes : d'.hostBytes o = advance 64 (d.hostBytes o) bytes)
    (htally : Tally d r d' (pageCounter (bytes / pageSize))) : Volume o pageSize bytes d r d' :=
  ⟨hunit, Nat.div_mul_cancel (Nat.dvd_of_mod_eq_zero hwhole), hbytes, htally, htally.complete_iff⟩

/-- Whole lines and pages of the next one, of which the lines are counted in 32 bits only. -/
theorem lowBits_lines_mul {lines page pagesPerLine : Nat} (hpage : page < pagesPerLine) :
    lowBits 32 lines * pagesPerLine + page =
      (lines * pagesPerLine + page) % (bitRange 32 * pagesPerLine) := by
  have hpositive := Nat.zero_lt_of_lt hpage
  rw [Nat.mul_comm (bitRange 32), Nat.mod_mul, Nat.mul_comm lines, Nat.mul_add_mod,
    Nat.mul_add_div hpositive, Nat.mod_eq_of_lt hpage, Nat.div_eq_of_lt hpage, Nat.add_zero,
    Nat.add_comm page, Nat.mul_comm pagesPerLine]
  rfl

theorem bytesPassed_filled (hd : d.Sound) (hon : d.enabled)
    (hunit : d.configuration.unit? u = some unit) {bytes : Nat}
    (hroom : pageCounter (bytes / d.configuration.pageSize) ≤
      d.pool.streamPages (some u) unit.pointer) (now : Nat) :
    (d.filled u unit bytes now).bytesPassed u = (d.bytesPassed u +
      pageCounter (bytes / d.configuration.pageSize) * d.configuration.pageSize) %
        d.bytesRange := by
  have hpointer : d.allocation.pointer (some u) = unit.pointer :=
    Configuration.pointers_of_unit? d.path hunit
  have hpassed := Pool.programmed_fill .atOnce (hd.page_le hunit)
    (hpointer ▸ hd.allocation.closed (some u)) hroom
  have hfilled : Advances (fun _ => True) d _ (d.filled u unit bytes now) :=
    advances_filled now hd hon trivial hunit
  have hlineSize : (d.filled u unit bytes now).pool.pagesPerLine = d.pool.pagesPerLine :=
    hfilled.keeps.pagesPerLine
  have hpage := (hfilled.sound hd).page_lt (unit?_filled hunit bytes now)
  rw [hlineSize] at hpage
  have hpageSize : (d.filled u unit bytes now).configuration.pageSize = d.configuration.pageSize :=
    rfl
  rw [bytesPassed, unit?_filled hunit, bytesPassed, hunit, hlineSize, hpageSize, bytesRange]
  dsimp only [ReclaimUnit.countWrite, ReclaimUnit.afterFill, Configuration.writeFill] at hpage ⊢
  rw [advance, lowBits_lines_mul hpage, ← Nat.add_mul, Nat.mul_mod_mul_right,
    Nat.add_mul unit.linesConsumed, Nat.add_assoc, hpassed, Nat.add_assoc]

/-- An accepted placed write goes to the unit of its placement. -/
theorem volume_routeOnce (hd : d.Sound) {placement : Placement} {block bytes now : Nat}
    (hok : (d.routeOnce placement block bytes now).result = .ok r) :
    ∃ u, d.configuration.resolve placement = .ok u ∧
      Volume (some u) d.configuration.pageSize bytes d r
        (d.routeOnce placement block bytes now).state := by
  by_cases htargets : ∃ u, d.configuration.Targets placement bytes u
  · obtain ⟨u, hu⟩ := htargets
    rcases Nat.lt_or_ge (d.configuration.availablePages d.pool u)
      (bytes / d.configuration.pageSize) with hlong | hfits
    · rw [routeOnce_of_exhausted block now hu hlong] at hok
      cases hok
    · obtain ⟨unit, hunit, hroute⟩ := routeOnce_of_fits block now hd hu hfits
      rw [hroute] at hok ⊢
      cases hok
      have hroom := Configuration.pageCounter_le_streamPages hunit hfits
      have hpointer : d.allocation.pointer (some u) = unit.pointer :=
        Configuration.pointers_of_unit? d.path hunit
      have hwritten := writtenPages_fill hd.allocation .atOnce (hpointer ▸ hroom)
      rw [hpointer] at hwritten
      refine ⟨u, hu.2.2.2, .of_tally rfl hu.2.2.1 ?_ ⟨rfl, hwritten, fun v hv => ?_⟩⟩
      · simp only [hostBytes, Outcome.done, unit?_filled hunit, hunit]
        rfl
      · cases hv
        exact bytesPassed_filled hd hu.1 hunit hroom now
  · obtain ⟨cause, hroute, -⟩ := routeOnce_of_not_targets block now (not_exists.1 htargets)
    rw [hroute] at hok
    cases hok

/-- An accepted plain write goes to no unit. -/
theorem volume_plainWrite (hd : d.Sound) {pageSize block bytes : Nat}
    (hok : (d.plainWrite pageSize block bytes).result = .ok r) :
    Volume none pageSize bytes d r (d.plainWrite pageSize block bytes).state := by
  rw [plainWrite, onPath_eq_mapState] at hok ⊢
  obtain ⟨cause, hrefused⟩ | ⟨hzero, hwhole, hfits⟩ :=
    d.path.write_cases d.pool pageSize block bytes
  · rw [hrefused] at hok
    cases hok
  · rw [d.path.write_of_fits d.pool block hzero hwhole hfits (hd.allocation.page_le none)] at hok ⊢
    cases hok
    have hroom : pageCounter (bytes / pageSize) ≤ d.path.availablePages d.pool :=
      Nat.le_trans (Nat.mod_le _ _) hfits
    have hwritten := writtenPages_fill (o := none) hd.allocation .onDemand hroom
    exact .of_tally rfl hwhole rfl
      ⟨rfl, hwritten, fun u hu => absurd hu (Option.some_ne_none u).symm⟩

/-- However the parts of a device were used, an accepted write puts as many pages on the lines as
its report says, and moves its unit on by as many, up to where the unit's count of lines starts
over: all pages of the write if there are fewer than 2 ^ 32 of them, and what is left of their
number in 32 bits otherwise. All its bytes are added to the 64 bits in which its unit or the plain
path counts. -/
theorem pages_of_accepted_writes (h : Attainable μ d) :
    (∀ (placement : Placement) (block bytes now : Nat) (r : WriteReport),
      (d.routeOnce placement block bytes now).result = .ok r →
        ∃ u, d.configuration.resolve placement = .ok u ∧
          Volume (some u) d.configuration.pageSize bytes d r
            (d.routeOnce placement block bytes now).state) ∧
    ∀ (pageSize block bytes : Nat) (r : WriteReport),
      (d.plainWrite pageSize block bytes).result = .ok r →
        Volume none pageSize bytes d r (d.plainWrite pageSize block bytes).state :=
  ⟨fun _ _ _ _ _ => volume_routeOnce h.sound, fun _ _ _ _ => volume_plainWrite h.sound⟩

/-- The plain path is on page 2 of line 0, and unit 0 has the other three lines. Of 2 ^ 32 + 1
placed pages one is written; all of three plain pages are. -/
theorem pages_of_accepted_writes_of_large_lines :
    ∃ fresh,
      build ⟨4096, 2147483648, 4, 4096, by decide⟩ { handles := 1 } (.steady 0 1) = .ok fresh ∧
      let d := (fresh.plainWrite 4096 0 8192).state.enableUnits
      let r : WriteReport := ⟨some 0, 0, 1, [1], []⟩
      let r' : WriteReport := ⟨none, 2, 3, [0], []⟩
      Attainable Host.Window d ∧
        (d.routeOnce {} 0 17592186048512 0).result = .ok r ∧
        Volume (some 0) 4096 17592186048512 d r (d.routeOnce {} 0 17592186048512 0).state ∧
        (d.plainWrite 4096 2 12288).result = .ok r' ∧
        Volume none 4096 12288 d r' (d.plainWrite 4096 2 12288).state := by
  have hbuild :
      build ⟨4096, 2147483648, 4, 4096, by decide⟩ { handles := 1 } (.steady 0 1) = .ok _ := rfl
  refine ⟨_, hbuild, ?_⟩
  intro d r r'
  have hattainable : Attainable Host.Window d :=
    ((Attainable.built hbuild).written 4096 0 8192).enabled
  obtain ⟨hplaced, hplain⟩ := pages_of_accepted_writes hattainable
  obtain ⟨hok, hok', hzero, hsize⟩ : (d.routeOnce {} 0 17592186048512 0).result = .ok r ∧
      (d.plainWrite 4096 2 12288).result = .ok r' ∧ d.configuration.resolve {} = .ok 0 ∧
      d.configuration.pageSize = 4096 := by decide +kernel
  obtain ⟨u, hresolve, hvolume⟩ := hplaced {} 0 17592186048512 0 r hok
  obtain rfl : u = 0 := Except.ok.inj (hresolve.symm.trans hzero)
  rw [hsize] at hvolume
  exact ⟨hattainable, hok, hvolume, hok', hplain 4096 2 12288 r' hok'⟩

/-- A write of 2 ^ 32 pages that fits is accepted, and none of its pages is written. The unit counts
its bytes, and no longer passes the check of its own counters. -/
theorem dropped_pages_of_large_write :
    ∃ fresh,
      build ⟨4096, 2147483648, 3, 4096, by decide⟩ { handles := 1 } (.steady 0 1) = .ok fresh ∧
      let d := fresh.enableUnits
      let bytes := 17592186044416
      let r : WriteReport := ⟨some 0, 0, 0, [], []⟩
      let d' := (d.routeOnce {} 0 bytes 0).state
      Attainable Host.Window d ∧ d.configuration.pageSize = 4096 ∧ bytes < bitRange 64 ∧
        bytes / 4096 ≤ d.configuration.availablePages d.pool 0 ∧
        (d.routeOnce {} 0 bytes 0).result = .ok r ∧ ¬ Tally d r d' (bytes / 4096) ∧
        d'.pool = d.pool ∧ d'.bytesPassed 0 = 0 ∧ d'.hostBytes (some 0) = bytes ∧
        d.checkAll.hasError = false ∧ d'.checkAll.hasError = true := by
  have hbuild :
      build ⟨4096, 2147483648, 3, 4096, by decide⟩ { handles := 1 } (.steady 0 1) = .ok _ := rfl
  refine ⟨_, hbuild, ?_⟩
  intro d bytes r d'
  obtain ⟨hsize, hbound, hfits, hok, hcounted⟩ : d.configuration.pageSize = 4096 ∧
      bytes < bitRange 64 ∧ bytes / 4096 ≤ d.configuration.availablePages d.pool 0 ∧
      (d.routeOnce {} 0 bytes 0).result = .ok r ∧
      d'.pool = d.pool ∧ d'.bytesPassed 0 = 0 ∧ d'.hostBytes (some 0) = bytes ∧
      d.checkAll.hasError = false ∧ d'.checkAll.hasError = true := by decide +kernel
  have hdropped : ¬ Tally d r d' (bytes / 4096) := fun h => absurd h.report (by decide)
  exact ⟨(Attainable.built hbuild).enabled, hsize, hbound, hfits, hok, hdropped, hcounted⟩

end Device

end DataPlacement
