import DataPlacement.Proofs.Allocation.Landing
import DataPlacement.Proofs.Device.DirectUse
import DataPlacement.Proofs.Pool.WriteLoop

namespace DataPlacement

/-- Lines that one write names and lines that the next one names, as one list. A line on which the
second goes on where the first one stopped is counted once. -/
def joinLines (xs ys : List LineId) : List LineId :=
  xs ++ if xs.getLast? = ys.head? then ys.tail else ys

namespace Pool

variable {p : Pool} {o : Option UnitId} {rollover : Rollover} {w : WritePointer} {a b : Nat}
  {f g : Fill}

/-- A fill with pages for another one behind it. -/
structure Halves (p : Pool) (o : Option UnitId) (rollover : Rollover) (w : WritePointer)
    (a b : Nat) (f g : Fill) : Prop where
  first : WriteLoop o rollover p w a f
  second : WriteLoop o rollover f.pool f.pointer b g
  positive : 0 < a ∧ 0 < b
  fed : f.starved = false ∧ g.starved = false
  stream : f.pool.streamPages o f.pointer + a = p.streamPages o w
  page : f.pointer.page ≤ f.pool.pagesPerLine

theorem halves_fill (rollover : Rollover) (ha : 0 < a) (hb : 0 < b)
    (hpage : w.page ≤ p.pagesPerLine) (hfits : a + b ≤ p.streamPages o w) :
    let f := p.fill o rollover w a
    Halves p o rollover w a b f (f.pool.fill o rollover f.pointer b) := by
  intro f
  have hloop := writeLoop_fill (o := o) rollover a hpage
  have hfed : f.starved = false := starved_fill_eq_false hpage (by omega)
  obtain ⟨hstream, hend⟩ : f.pool.streamPages o f.pointer + a = p.streamPages o w ∧ _ :=
    hloop.stream hpage hfed
  exact ⟨hloop, writeLoop_fill rollover b hend, ⟨ha, hb⟩,
    ⟨hfed, starved_fill_eq_false hend (by omega)⟩, hstream, hend⟩

namespace Halves

variable (h : Halves p o rollover w a b f g)
include h

theorem joined (hpage : w.page ≤ p.pagesPerLine) (hrecorded : p.Recorded w) :
    p.fill o rollover w (a + b) = f.followedBy g := by
  have hzero : a = 0 → w.page = 0 := fun hnone => absurd hnone (Nat.ne_of_gt h.positive.1)
  exact ((h.first.append hrecorded h.fed.1 hzero h.positive.2 h.second).eq_fill hpage).symm

theorem lines_ne_nil : f.lines ≠ [] ∧ g.lines ≠ [] :=
  ⟨h.first.lines_ne_nil h.positive.1 h.fed.1, h.second.lines_ne_nil h.positive.2 h.fed.2⟩

/-- If no line is named twice, the lists of the halves meet in a line if and only if the first half
stops in the middle of it. -/
theorem joinLines_eq (hnodup : (f.followedBy g).lines.Nodup) :
    joinLines f.lines g.lines = (f.followedBy g).lines := by
  have hfirst := List.getLast?_eq_some_getLast h.lines_ne_nil.1
  rw [joinLines]
  by_cases hstart : f.pointer.page = 0
  · have happend : (f.followedBy g).lines = f.lines ++ g.lines := by
      simp [Fill.followedBy, hstart]
    rw [happend] at hnodup ⊢
    have hapart := (List.nodup_append'.1 hnodup).2.2
    rw [if_neg]
    rw [hfirst]
    intro hmeet
    exact hapart (List.getLast_mem h.lines_ne_nil.1) (List.mem_of_head? hmeet.symm)
  · have hlast := h.first.getLast?_lines h.positive.1 h.fed.1 hstart
    have hhead := h.second.head?_lines h.positive.2 h.fed.2 (hlast.symm.trans hfirst)
    simp [Fill.followedBy, hstart, hfirst, hhead]

end Halves

end Pool

namespace ReclaimUnit

variable {f g : Fill}

/-- A unit that stops on a line is the same after a second fill as after both in one. -/
theorem afterFill_followedBy (unit : ReclaimUnit) (now : Nat) (hlines : f.lines ≠ [] ∧ g.lines ≠ [])
    (hopen : f.pointer.line ≠ none) :
    (unit.afterFill f now).afterFill g now = unit.afterFill (f.followedBy g) now := by
  obtain ⟨line, hline⟩ := Option.ne_none_iff_exists'.1 hopen
  have hwritten : f.lines.isEmpty = false := by simpa using hlines.1
  have hwritten' : g.lines.isEmpty = false := by simpa using hlines.2
  have hboth : (f.followedBy g).lines.isEmpty = false := by
    simpa [Fill.followedBy] using fun hnone => absurd hnone hlines.1
  have hpointer : (f.followedBy g).pointer = g.pointer := rfl
  have hretired : (f.followedBy g).retired = f.retired ++ g.retired := rfl
  simp [afterFill, Fill.ranDry, hline, hwritten, hwritten', hboth, hpointer, hretired]

end ReclaimUnit

namespace Configuration

variable {c : Configuration} {p : Pool} {u : UnitId} {unit : ReclaimUnit} {f g : Fill}

/-- One more command in the counts of the unit and of all units. -/
def countCommand (c : Configuration) (u : UnitId) : Configuration :=
  { c with
    units := c.units.modify u fun unit => { unit with writes := advance 64 unit.writes 1 }
    totals := { c.totals with writes := advance 64 c.totals.writes 1 } }

/-- The units after two fills, each with its write counted, and after both fills in one. -/
theorem countWrite_followedBy (hunit : c.unit? u = some unit) (now first second : Nat)
    (hlines : f.lines ≠ [] ∧ g.lines ≠ []) (hopen : f.pointer.line ≠ none) :
    ((((c.updateUnit u (·.afterFill f now)).countWrite u first).updateUnit u
        (·.afterFill g now)).countWrite u second) =
      ((c.updateUnit u (·.afterFill (f.followedBy g) now)).countWrite u
        (first + second)).countCommand u := by
  have hself : ((((unit.afterFill f now).countWrite first).afterFill g now).countWrite second) =
      { (unit.afterFill (f.followedBy g) now).countWrite (first + second) with
        writes := advance 64 unit.writes 2 } := by
    rw [← unit.afterFill_followedBy now hlines hopen]
    simp [ReclaimUnit.countWrite, ReclaimUnit.afterFill]
  simp only [countCommand, countWrite, updateUnit, mk.injEq, true_and, and_true]
  refine ⟨Array.ext_getElem? fun i => ?_, ?_⟩
  · simp only [Array.getElem?_modify]
    by_cases hi : u = i
    · subst hi
      have hbefore : c.units[u]? = some unit := hunit
      simp only [if_true, hbefore, Option.map_some, hself]
      simp [ReclaimUnit.countWrite, ReclaimUnit.afterFill]
    · simp [hi]
  · simp

/-- A placed write of a number of pages. -/
theorem write_pages {placement : Placement} {pages : Nat} (block now : Nat) (hon : c.enabled)
    (hresolve : c.resolve placement = .ok u) (hsize : 0 < c.pageSize) (hpages : 0 < pages)
    (hcounter : pages < bitRange 32) (hunit : c.unit? u = some unit)
    (hpage : unit.pointer.page ≤ p.pagesPerLine)
    (hfits : pages ≤ p.streamPages (some u) unit.pointer) :
    let f := p.fill (some u) .atOnce unit.pointer pages
    c.write p placement block (pages * c.pageSize) now =
      .done ⟨some u, block, pages, f.lines, f.retired⟩
        ((c.updateUnit u (·.afterFill f now)).countWrite u (pages * c.pageSize), f.pool)
        (if f.ranDry then [.filled u] else []) := by
  intro f
  have htargets : c.Targets placement (pages * c.pageSize) u :=
    ⟨hon, Nat.ne_of_gt (Nat.mul_pos hpages hsize), Nat.mul_mod_left pages c.pageSize, hresolve⟩
  have hcount : pages * c.pageSize / c.pageSize = pages := Nat.mul_div_cancel pages hsize
  have hroom : c.availablePages p u = p.streamPages (some u) unit.pointer := by
    simp only [availablePages, hunit]
  obtain ⟨found, hfound, hwrite⟩ := c.write_of_fits p placement block (pages * c.pageSize) now
    htargets (by rwa [hcount, hroom]) fun found hfound => by
      obtain rfl : unit = found := Option.some.inj (hunit.symm.trans hfound)
      exact hpage
  obtain rfl : unit = found := Option.some.inj (hunit.symm.trans hfound)
  have hpages : pageCounter pages = pages := Nat.mod_eq_of_lt hcounter
  rw [hwrite, writeFill, hcount, hpages]

end Configuration

/-- One report for those of two writes, of which the second went on where the first one stopped. -/
structure WriteReport.Joins (x y z : WriteReport) : Prop where
  unit : x.unit = z.unit ∧ y.unit = z.unit
  pages : x.pages + y.pages = z.pages
  lines : joinLines x.lines y.lines = z.lines
  retired : x.retired ++ y.retired = z.retired

/-- Two writes are accepted and do what one does; `count` counts one more command. -/
structure InHalves {σ : Type} (first second whole : Outcome σ WriteReport) (count : σ → σ) :
    Prop where
  accepted : ∃ x y z, first.result = .ok x ∧ second.result = .ok y ∧ whole.result = .ok z ∧
    x.Joins y z
  state : second.state = count whole.state

section Halves

variable {p : Pool} {a b : Nat}

theorem Pool.Halves.joins {o : Option UnitId} {rollover : Rollover} {w : WritePointer} {f g : Fill}
    (h : p.Halves o rollover w a b f g) (hnodup : (f.followedBy g).lines.Nodup)
    (block block' : Nat) :
    WriteReport.Joins ⟨o, block, a, f.lines, f.retired⟩ ⟨o, block', b, g.lines, g.retired⟩
      ⟨o, block, a + b, (f.followedBy g).lines, (f.followedBy g).retired⟩ :=
  ⟨⟨rfl, rfl⟩, rfl, h.joinLines_eq hnodup, rfl⟩

/-- A placed write in halves, if its stream names no line twice. -/
theorem Configuration.inHalves_write {c : Configuration} {u : UnitId} {unit : ReclaimUnit}
    {placement : Placement} (block block' now : Nat) (hon : c.enabled)
    (hresolve : c.resolve placement = .ok u) (hsize : 0 < c.pageSize) (ha : 0 < a) (hb : 0 < b)
    (hcounter : a + b < bitRange 32) (hunit : c.unit? u = some unit)
    (hpage : unit.pointer.page ≤ p.pagesPerLine) (hrecorded : p.Recorded unit.pointer)
    (hfits : a + b ≤ p.streamPages (some u) unit.pointer)
    (hnodup : (p.fill (some u) .atOnce unit.pointer (a + b)).lines.Nodup) :
    let first := c.write p placement block (a * c.pageSize) now
    let (c', p') := first.state
    let second := c'.write p' placement block' (b * c.pageSize) now
    let whole := c.write p placement block ((a + b) * c.pageSize) now
    InHalves first second whole fun (c, p) => (c.countCommand u, p) := by
  have hhalves := Pool.halves_fill (o := some u) .atOnce ha hb hpage hfits
  have hjoined := hhalves.joined hpage hrecorded
  rw [hjoined] at hnodup
  have hfirst := c.write_pages block now hon hresolve hsize ha (by omega) hunit hpage
    (by omega)
  have hwhole := c.write_pages block now hon hresolve hsize (by omega) hcounter hunit hpage hfits
  rw [hjoined] at hwhole
  generalize p.fill (some u) .atOnce unit.pointer a = f at *
  have hroom : b ≤ f.pool.streamPages (some u) f.pointer := by
    have hstream := hhalves.stream
    omega
  -- A unit that the first part left without a line would have no pages for the second part.
  have hopen : f.pointer.line ≠ none := by
    intro hclosed
    have hnothing := hhalves.first.streamPages_eq_zero_of_closed
      (fun hzero => absurd hzero (Nat.ne_of_gt ha)) hhalves.fed.1 hclosed
    omega
  have hunit' : ((c.updateUnit u (·.afterFill f now)).countWrite u (a * c.pageSize)).unit? u =
      some ((unit.afterFill f now).countWrite (a * c.pageSize)) := by
    have hbefore : c.units[u]? = some unit := hunit
    simp [unit?, updateUnit, countWrite, Array.getElem?_modify, hbefore]
  have hsecond := write_pages (c := (c.updateUnit u (·.afterFill f now)).countWrite u
    (a * c.pageSize)) block' now hon hresolve hsize hb (by omega) hunit' hhalves.page hroom
  have hstate := countWrite_followedBy hunit now (a * c.pageSize) (b * c.pageSize)
    hhalves.lines_ne_nil hopen
  rw [← Nat.add_mul] at hstate
  rw [hfirst, hwhole]
  refine ⟨⟨_, _, _, rfl, congrArg Outcome.result hsecond, rfl,
    hhalves.joins hnodup block block'⟩, ?_⟩
  exact (congrArg Outcome.state hsecond).trans (Prod.ext hstate rfl)

/-- One more command in the count of the path. -/
def PlainPath.countCommand (path : PlainPath) : PlainPath :=
  { path with writes := advance 64 path.writes 1 }

/-- A plain write of a number of pages. -/
theorem PlainPath.write_pages (path : PlainPath) {pageSize pages : Nat} (block : Nat)
    (hsize : 0 < pageSize) (hpages : 0 < pages) (hcounter : pages < bitRange 32)
    (hpage : path.pointer.page ≤ p.pagesPerLine) (hfits : pages ≤ path.availablePages p) :
    let f := p.fill none .onDemand path.pointer pages
    path.write p pageSize block (pages * pageSize) =
      .done ⟨none, block, pages, f.lines, f.retired⟩
        (⟨f.pointer, advance 64 path.hostBytes (pages * pageSize), advance 64 path.writes 1⟩,
          f.pool) := by
  intro f
  have hcount : pages * pageSize / pageSize = pages := Nat.mul_div_cancel pages hsize
  have hsame : pageCounter pages = pages := Nat.mod_eq_of_lt hcounter
  rw [path.write_of_fits p block (Nat.ne_of_gt (Nat.mul_pos hpages hsize))
    (Nat.mul_mod_left pages pageSize) (by rwa [hcount]) hpage, writeFill, hcount, hsame]

/-- A plain write in halves, if its stream names no line twice. -/
theorem PlainPath.inHalves_write {path : PlainPath} {pageSize : Nat} (block block' : Nat)
    (hsize : 0 < pageSize) (ha : 0 < a) (hb : 0 < b) (hcounter : a + b < bitRange 32)
    (hpage : path.pointer.page ≤ p.pagesPerLine) (hrecorded : p.Recorded path.pointer)
    (hfits : a + b ≤ path.availablePages p)
    (hnodup : (p.fill none .onDemand path.pointer (a + b)).lines.Nodup) :
    let first := path.write p pageSize block (a * pageSize)
    let (path', p') := first.state
    let second := path'.write p' pageSize block' (b * pageSize)
    let whole := path.write p pageSize block ((a + b) * pageSize)
    InHalves first second whole fun (path, p) => (path.countCommand, p) := by
  have hhalves := Pool.halves_fill (o := none) .onDemand ha hb hpage hfits
  have hjoined := hhalves.joined hpage hrecorded
  rw [hjoined] at hnodup
  have hfirst := path.write_pages block hsize ha (by omega) hpage (by omega)
  have hwhole := path.write_pages block hsize (by omega) hcounter hpage hfits
  rw [hjoined] at hwhole
  generalize p.fill none .onDemand path.pointer a = f at *
  have hroom : b ≤ f.pool.streamPages none f.pointer := by
    have hstream : f.pool.streamPages none f.pointer + a = path.availablePages p := hhalves.stream
    omega
  have hsecond := PlainPath.write_pages ⟨f.pointer, advance 64 path.hostBytes (a * pageSize),
    advance 64 path.writes 1⟩ block' hsize hb (by omega) hhalves.page hroom
  rw [hfirst, hwhole]
  refine ⟨⟨_, _, _, rfl, congrArg Outcome.result hsecond, rfl,
    hhalves.joins hnodup block block'⟩, ?_⟩
  have hbytes : advance 64 (advance 64 path.hostBytes (a * pageSize)) (b * pageSize) =
      advance 64 path.hostBytes ((a + b) * pageSize) := by rw [advance_advance, Nat.add_mul]
  refine (congrArg Outcome.state hsecond).trans ?_
  simp only [Outcome.done, hbytes]
  rfl

end Halves

namespace Device

open Allocation

variable {d : Device} {a b : Nat} {μ : Type} [Host.Memory μ]

/-- A write that a writer of a sound device has room for names no line twice. -/
theorem Sound.nodup_lines_fill (hd : d.Sound) (o : Option UnitId) (rollover : Rollover)
    {pages : Nat} (hfits : pages ≤ d.pool.streamPages o (d.allocation.pointer o)) :
    (d.pool.fill o rollover (d.allocation.pointer o) pages).lines.Nodup := by
  have hfed : (d.pool.fill o rollover (d.allocation.pointer o) pages).starved = false :=
    Pool.starved_fill_eq_false (hd.allocation.page_le o) hfits
  obtain ⟨cs, hworks⟩ := exists_works_fill hd.allocation rollover hfed
  exact hworks.nodup_lines hd.allocation

/-- On a sound device a current line holds the pages before its pointer. -/
theorem Sound.recorded (hd : d.Sound) (o : Option UnitId) :
    d.pool.Recorded (d.allocation.pointer o) := by
  intro line hline l hrecord
  have hpointer : d.allocation.pointer o = ⟨some line, (d.allocation.pointer o).page⟩ := by
    rw [← hline]
  obtain ⟨k, hk, -, -, hpages, -⟩ := hd.allocation.of_pointer hpointer
  obtain rfl : l = k := Option.some.inj (hrecord.symm.trans hk)
  exact Nat.le_of_eq hpages

/-- A write of a number of pages that its writer has room for, and that 32 bits can count, may be
done in two parts, whatever the state that the units, the plain path and the pool got into. -/
theorem writes_in_halves (h : Attainable μ d) (ha : 0 < a) (hb : 0 < b)
    (hcounter : a + b < bitRange 32) :
    (∀ (placement : Placement) (u : UnitId) (block block' now : Nat), d.enabled →
      d.configuration.resolve placement = .ok u →
      a + b ≤ d.configuration.availablePages d.pool u →
      let pageSize := d.configuration.pageSize
      let first := d.configuration.write d.pool placement block (a * pageSize) now
      let (c, p) := first.state
      let second := c.write p placement block' (b * pageSize) now
      let whole := d.configuration.write d.pool placement block ((a + b) * pageSize) now
      InHalves first second whole fun (c, p) => (c.countCommand u, p)) ∧
    ∀ pageSize block block' : Nat, 0 < pageSize → a + b ≤ d.path.availablePages d.pool →
      let first := d.path.write d.pool pageSize block (a * pageSize)
      let (path, p) := first.state
      let second := path.write p pageSize block' (b * pageSize)
      let whole := d.path.write d.pool pageSize block ((a + b) * pageSize)
      InHalves first second whole fun (path, p) => (path.countCommand, p) := by
  have hd := h.sound
  constructor
  · intro placement u block block' now hon hresolve hfits
    cases hunit : d.configuration.unit? u with
    | none =>
      simp only [Configuration.availablePages, hunit] at hfits
      omega
    | some unit =>
      have hpointer : d.allocation.pointer (some u) = unit.pointer :=
        Configuration.pointers_of_unit? d.path hunit
      have hstream : a + b ≤ d.pool.streamPages (some u) unit.pointer := by
        simpa only [Configuration.availablePages, hunit] using hfits
      have hsize : 0 < d.configuration.pageSize :=
        hd.pageSize ▸ (Geometry.pos_of_validate hd.geometry).1
      have hnodup := hd.nodup_lines_fill (some u) .atOnce (hpointer ▸ hstream)
      rw [hpointer] at hnodup
      exact Configuration.inHalves_write block block' now hon hresolve hsize ha hb hcounter hunit
        (hd.page_le hunit) (hpointer ▸ hd.recorded (some u)) hstream hnodup
  · intro pageSize block block' hsize hfits
    exact PlainPath.inHalves_write block block' hsize ha hb hcounter (hd.allocation.page_le none)
      (hd.recorded none) hfits (hd.nodup_lines_fill none .onDemand hfits)

/-- The plain path is in the middle of line 0, and unit 0 is full with the lines 2 and 1 in its
list. The first three pages open the unit again and fill line 2, so that the other two begin on the
first page of line 1. -/
theorem writes_in_halves_of_emptied_unit :
    ∃ fresh, build ⟨4, 3, 4, 1, by decide⟩ { handles := 1 } (.steady 0 1) = .ok fresh ∧
      let filled := ((fresh.plainWrite 4 0 4).state.enableUnits.routeOnce {} 0 36 0).state
      let emptied := { filled with pool := (filled.pool.reclaim 2).state }
      let d := { emptied with pool := (emptied.pool.reclaim 1).state }
      Attainable Host.Window d ∧ d.enabled ∧ d.configuration.resolve {} = .ok 0 ∧
        3 + 2 ≤ d.configuration.availablePages d.pool 0 ∧ 1 + 1 ≤ d.path.availablePages d.pool ∧
        (let first := d.configuration.write d.pool {} 0 12 5
          let (c, p) := first.state
          first.result = .ok ⟨some 0, 0, 3, [2], [2]⟩ ∧
            InHalves first (c.write p {} 3 8 5) (d.configuration.write d.pool {} 0 20 5)
              fun (c, p) => (c.countCommand 0, p)) ∧
        let first := d.path.write d.pool 4 0 4
        let (path, p) := first.state
        first.result = .ok ⟨none, 0, 1, [0], []⟩ ∧
          InHalves first (path.write p 4 1 4) (d.path.write d.pool 4 0 8)
            fun (path, p) => (path.countCommand, p) := by
  have hbuild : build ⟨4, 3, 4, 1, by decide⟩ { handles := 1 } (.steady 0 1) = .ok _ := rfl
  refine ⟨_, hbuild, ?_⟩
  intro filled emptied d
  have hattainable : Attainable Host.Window d :=
    (((((Attainable.built hbuild).written 4 0 4).enabled).placed {} 0 36 0).erased 2).erased 1
  obtain ⟨hon, hresolve, hsize, hfits, hfits', hfirst, hfirst'⟩ : d.enabled ∧
      d.configuration.resolve {} = .ok 0 ∧ d.configuration.pageSize = 4 ∧
      3 + 2 ≤ d.configuration.availablePages d.pool 0 ∧ 1 + 1 ≤ d.path.availablePages d.pool ∧
      (d.configuration.write d.pool {} 0 12 5).result = .ok ⟨some 0, 0, 3, [2], [2]⟩ ∧
      (d.path.write d.pool 4 0 4).result = .ok ⟨none, 0, 1, [0], []⟩ := by decide +kernel
  have hplaced := (writes_in_halves (a := 3) (b := 2) hattainable (by decide) (by decide)
    (by decide)).1 {} 0 0 3 5 hon hresolve hfits
  dsimp only at hplaced
  rw [hsize] at hplaced
  have hplain := (writes_in_halves (a := 1) (b := 1) hattainable (by decide) (by decide)
    (by decide)).2 4 0 1 (by decide) hfits'
  exact ⟨hattainable, hon, hresolve, hfits, hfits', ⟨hfirst, hplaced⟩, ⟨hfirst', hplain⟩⟩

end Device

end DataPlacement
