import DataPlacement.Proofs.Allocation.Landing
import DataPlacement.Proofs.Device.Agreement
import DataPlacement.Proofs.Device.Courses
import DataPlacement.Proofs.Device.Metering
import DataPlacement.Proofs.Device.Retirements

namespace DataPlacement.Device

open Allocation

variable {d e : Device} {w : WriteCommand} {r : WriteReport} {u : UnitId} {unit : ReclaimUnit}
  {bytes : Nat} {μ : Type} [Host.Memory μ]

/-! ### Writes without a pass -/

theorem passes_emptying (d : Device) (u : UnitId) :
    (d.emptying u).state.accounting.foregroundPasses = d.accounting.foregroundPasses + 1 :=
  congrArg Accounting.foregroundPasses (accounting_collect d.tick.countForegroundPass none _)

theorem passes_sweeping (d : Device) :
    d.sweeping.state.accounting.foregroundPasses = d.accounting.foregroundPasses + 1 := rfl

/-- A write that counts no pass was tried once, whether it was accepted or not. -/
theorem attempt_of_spared (hd : d.Sound)
    (hpasses : (d.write w).state.accounting.foregroundPasses = d.accounting.foregroundPasses) :
    d.places w = true ∧ (d.attempt w).outcome = d.routed d.tick w ∨
      d.places w = false ∧ (d.attempt w).outcome = d.plainRouted d w := by
  have hcourse := course_attempt hd w
  have hcounted := (write_views d w).1.symm.trans hpasses
  generalize d.attempt w = a at hcourse hcounted ⊢
  cases hcourse with
  | placed hplaces => exact .inl ⟨hplaces, rfl⟩
  | plain hplain => exact .inr ⟨hplain, rfl⟩
  | @emptied u count h hpass earlier =>
    have hroute := (shifts_routeOnce w.block d.clock.now (hd.emptying u) (d.placementOf w)
      (w.bytes d.geometry.blockSize)).2.2
    have hone := (congrArg Accounting.foregroundPasses hroute).trans (passes_emptying d u)
    exact absurd (hone.symm.trans hcounted) (Nat.succ_ne_self _)
  | @stuck u =>
    exact absurd ((passes_emptying d u).symm.trans hcounted) (Nat.succ_ne_self _)
  | @swept erased h hpass =>
    have htry := (shifts_plainOnce w.block hd.sweeping (w.bytes d.geometry.blockSize)).2.2
    have hone := (congrArg Accounting.foregroundPasses htry).trans (passes_sweeping d)
    exact absurd (hone.symm.trans hcounted) (Nat.succ_ne_self _)
  | unswept => exact absurd ((passes_sweeping d).symm.trans hcounted) (Nat.succ_ne_self _)

/-! ### One try -/

theorem landed_filled (hd : d.Sound) (hunit : d.configuration.unit? u = some unit)
    (hfits : bytes / d.configuration.pageSize ≤ d.configuration.availablePages d.pool u)
    (now : Nat) :
    let f := d.configuration.writeFill d.pool bytes unit u
    Landed d.allocation (some u) (pageCounter (bytes / d.configuration.pageSize)) f.lines f.retired
      (d.filled u unit bytes now).allocation := by
  have hpointer : d.allocation.pointer (some u) = unit.pointer :=
    Configuration.pointers_of_unit? d.path hunit
  have hroom := Configuration.pageCounter_le_streamPages hunit hfits
  have hlanded := landed_fill (o := some u) hd.allocation .atOnce (by
    rw [hpointer]
    exact Pool.starved_fill_eq_false (hd.page_le hunit) hroom)
  rw [hpointer] at hlanded
  rw [allocation_filled hunit]
  exact hlanded

theorem landed_plainFilled (hd : d.Sound)
    (hfits : bytes / d.geometry.pageSize ≤ d.path.availablePages d.pool) :
    let f := d.path.writeFill d.pool d.geometry.pageSize bytes
    Landed d.allocation none (pageCounter (bytes / d.geometry.pageSize)) f.lines f.retired
      (d.plainFilled bytes).allocation := by
  have hroom : pageCounter (bytes / d.geometry.pageSize) ≤
      d.pool.streamPages none d.path.pointer := Nat.le_trans (Nat.mod_le _ _) hfits
  rw [allocation_plainFilled]
  exact landed_fill (o := none) hd.allocation .onDemand
    (Pool.starved_fill_eq_false (hd.allocation.page_le none) hroom)

theorem heads_of_open (hd : d.Sound) (hon : d.enabled)
    (hunit : d.configuration.unit? u = some unit)
    (hdry : unit.pointer.line = none → d.pool.freeLines (some u) = []) :
    d.allocation.Heads u unit := by
  have hpointer : d.allocation.pointer (some u) = unit.pointer :=
    Configuration.pointers_of_unit? d.path hunit
  have henabled : d.configuration.enabled = true := hon
  have hstate := hd.settled u unit hunit
  rw [henabled] at hstate
  cases hwhere : unit.pointer with
  | mk line page =>
    cases line with
    | none =>
      have hline : (d.allocation.pointer (some u)).line = none := by rw [hpointer, hwhere]
      have hclosed : unit.pointer = .closed := hpointer.symm.trans (hd.allocation.eq_closed hline)
      have hempty := pageStream_of_empty hline (hdry (by rw [hwhere]))
      rw [hclosed] at hstate
      refine ⟨fun _ => ⟨hstate, hclosed⟩, fun id page rest hrest => ?_⟩
      rw [hempty] at hrest
      cases hrest
    | some id =>
      obtain ⟨rest, hstream⟩ := hd.allocation.pageStream_current (hpointer.trans hwhere)
      rw [hwhere] at hstate
      refine ⟨fun hempty => ?_, fun id' page' rest' hrest => ?_⟩
      · rw [hstream] at hempty
        cases hempty
      · rw [hstream] at hrest
        obtain ⟨⟨rfl, rfl⟩, -⟩ := List.cons_eq_cons.1 hrest |>.imp_left Prod.mk.inj
        exact ⟨hstate, hwhere⟩

/-- The unit of a write stands at the head of the rest of its stream. -/
theorem heads_filled (hd : d.Sound) (hon : d.enabled) (hunit : d.configuration.unit? u = some unit)
    (hlines : (d.configuration.writeFill d.pool bytes unit u).lines ≠ []) (now : Nat) :
    ∃ after, (d.filled u unit bytes now).configuration.unit? u = some after ∧
      (d.filled u unit bytes now).allocation.Heads u after := by
  have hadvances : Advances (fun _ => True) d _ (d.filled u unit bytes now) :=
    advances_filled now hd hon trivial hunit
  have hafter := unit?_filled hunit bytes now
  refine ⟨_, hafter, heads_of_open (hadvances.sound hd) (hadvances.enabled.trans hon) hafter ?_⟩
  intro hnone
  apply Pool.freeLines_fillLines_of_ranDry (hd.page_le hunit)
  change (d.configuration.writeFill d.pool bytes unit u).ranDry
  have hline : (d.configuration.writeFill d.pool bytes unit u).pointer.line = none := hnone
  rw [Fill.ranDry, hline]
  simpa using hlines

/-- The plain path stands behind the last page that it wrote, and has no line after a line end. -/
theorem pointer_plainFilled (hd : d.Sound) (hpoised : d.Poised)
    (hfits : bytes / d.geometry.pageSize ≤ d.path.availablePages d.pool) {id : LineId} {page : Nat}
    (hlast : (d.allocation.nextPages none (pageCounter (bytes / d.geometry.pageSize))).getLast? =
      some (id, page)) :
    (d.plainFilled bytes).path.pointer =
      if page + 1 = d.pool.pagesPerLine then .closed else ⟨some id, page + 1⟩ := by
  have hsound : (d.plainFilled bytes).Sound :=
    (advances_plainFilled (W := fun _ => True) hd trivial).sound hd
  have hbegun : (d.plainFilled bytes).path.pointer.Begun := Pool.begun_fill hpoised.begun _ _ _
  obtain ⟨hstays, hroom⟩ | ⟨hend, hpage⟩ := (landed_plainFilled hd hfits).last id page hlast
  · exact hstays.trans (if_neg (Nat.ne_of_lt hroom)).symm
  · refine Eq.trans ?_ (if_pos hend).symm
    have hnone : (d.plainFilled bytes).path.pointer.line = none := by
      cases hline : (d.plainFilled bytes).path.pointer.line with
      | none => rfl
      | some i => exact absurd hpage (hbegun i hline)
    exact hsound.allocation.eq_closed (o := none) hnone

/-! ### The command -/

/-- Where an accepted write went that needed no pass, and what it left. -/
structure Lands (d : Device) (w : WriteCommand) (r : WriteReport) (e : Device) : Prop where
  writer : r.unit = d.writerOf w
  /-- The page count is exact, and within the range of 16 bits and one more. -/
  whole : r.pages * d.geometry.pageSize = w.bytes d.geometry.blockSize
  bound : r.pages ≤ bitRange 16
  /-- The next pages of the writer were written, on the lines of the report, and nothing else
  happened in the pool. -/
  landed : Landed d.allocation r.unit r.pages r.lines r.retired e.allocation
  /-- A unit has the next line open as soon as one is full. -/
  heads : ∀ u, r.unit = some u →
    ∃ unit, e.configuration.unit? u = some unit ∧ e.allocation.Heads u unit
  /-- The plain path has no line after a line end. -/
  path : r.unit = none → ∀ id page,
    (d.allocation.nextPages none r.pages).getLast? = some (id, page) →
      e.path.pointer = if page + 1 = d.pool.pagesPerLine then .closed else ⟨some id, page + 1⟩
  /-- The other writers have no part in it. -/
  units : ∀ u, r.unit ≠ some u → e.configuration.unit? u = d.configuration.unit? u
  apart : r.unit ≠ none → e.path = d.path


/-- The pages of a write that is whole, in a command's range. -/
theorem pages_of_whole (hd : d.Sound) (hblocks : w.blocks < bitRange 16) (hwhole : d.IsWhole w) :
    let pages := pageCounter (w.bytes d.geometry.blockSize / d.geometry.pageSize)
    pages * d.geometry.pageSize = w.bytes d.geometry.blockSize ∧ pages ≤ bitRange 16 := by
  dsimp only
  rw [pageCounter_of_blocks hd hblocks]
  exact ⟨Nat.div_mul_cancel (Nat.dvd_of_mod_eq_zero hwhole),
    Nat.le_trans (pages_le_blocks hd w) hblocks⟩

theorem lands_of_places (hd : d.Sound) (hblocks : w.blocks < bitRange 16) (hplaces : d.places w)
    (hresult : (d.routed d.tick w).result = .ok r) : d.Lands w r (d.routed d.tick w).state := by
  obtain ⟨cause, notices, honce⟩ | ⟨u, -, -, -, htargets, hfits, -, -, -⟩ :=
    routeOnce_cases w.block d.clock.now hd.tick (d.placementOf w) (w.bytes d.geometry.blockSize)
  · rw [routed, honce] at hresult
    cases hresult
  · obtain ⟨unit, hunit, honce⟩ := routeOnce_of_fits w.block d.clock.now hd.tick htargets hfits
    rw [routed, honce] at hresult ⊢
    obtain rfl := Except.ok.inj hresult
    have hpageSize : d.tick.configuration.pageSize = d.geometry.pageSize := hd.pageSize
    have hlanded := landed_filled hd.tick hunit hfits d.clock.now
    obtain ⟨hwhole, hleads⟩ := (targets_iff hd htargets.1 w u).1 htargets
    obtain ⟨hpages, hbound⟩ := pages_of_whole hd hblocks hwhole
    rw [hpageSize] at hlanded ⊢
    have hpos : 0 < pageCounter (w.bytes d.geometry.blockSize / d.geometry.pageSize) := by
      refine Nat.pos_of_ne_zero fun hzero => bytes_ne_zero hd w ?_
      rw [← hpages, hzero, Nat.zero_mul]
    have hadvances : Advances (fun o => o = some u) d.tick _
        (d.tick.filled u unit (w.bytes d.geometry.blockSize) d.clock.now) :=
      advances_filled _ hd.tick htargets.1 rfl hunit
    exact {
      writer := by
        rw [writerOf, if_pos hplaces, hleads]
        rfl
      whole := hpages
      bound := hbound
      landed := hlanded
      heads := fun v hv => by
        cases hv
        exact heads_filled hd.tick htargets.1 hunit (hlanded.lines_ne_nil hpos) _
      path := fun hnone => by cases hnone
      units := fun v hv => hadvances.units v fun heq => hv heq.symm
      apart := fun _ => rfl }

theorem lands_of_plain (hd : d.Sound) (hpoised : d.Poised) (hblocks : w.blocks < bitRange 16)
    (hplain : d.places w = false) (hresult : (d.plainRouted d w).result = .ok r) :
    d.Lands w r (d.plainRouted d w).state := by
  obtain ⟨cause, honce⟩ | ⟨-, hzero, hwhole, hfits, -, -⟩ :=
    plainOnce_cases w.block hd (w.bytes d.geometry.blockSize)
  · rw [plainRouted, honce] at hresult
    cases hresult
  · have honce := plainOnce_of_fits w.block hd hzero hwhole hfits
    rw [plainRouted, honce] at hresult ⊢
    obtain rfl := Except.ok.inj hresult
    obtain ⟨hpages, hbound⟩ := pages_of_whole hd hblocks hwhole
    exact {
      writer := (if_neg (ne_true_of_eq_false hplain)).symm
      whole := hpages
      bound := hbound
      landed := landed_plainFilled hd hfits
      heads := fun u hu => by cases hu
      path := fun _ id page hlast => pointer_plainFilled hd hpoised hfits hlast
      units := fun u _ => rfl
      apart := fun hnone => absurd rfl hnone }

/-- Every accepted write that needs no pass lands on the first pages of its writer's stream,
reports the lines that these lie in and those of them that became full, and leaves the rest of the
stream. -/
theorem lands_of_spared_write (hd : Reachable μ d) (hblocks : w.blocks < bitRange 16)
    (hresult : (d.write w).result = .ok r)
    (hpasses : (d.write w).state.accounting.foregroundPasses = d.accounting.foregroundPasses) :
    d.Lands w r (d.write w).state := by
  have hattempt : d.Lands w r (d.attempt w).outcome.state := by
    have haccepted := hresult
    rw [result_write] at haccepted
    obtain ⟨hplaces, honce⟩ | ⟨hplain, honce⟩ := attempt_of_spared hd.sound hpasses
    · rw [honce] at haccepted ⊢
      exact lands_of_places hd.sound hblocks hplaces haccepted
    · rw [honce] at haccepted ⊢
      exact lands_of_plain hd.sound hd.poised hblocks hplain haccepted
  obtain ⟨a, hstate⟩ := exists_accounting_write d w
  obtain ⟨hwriter, hwhole, hbound, hlanded, hheads, hpath, hunits, hapart⟩ := hattempt
  rw [hstate]
  exact ⟨hwriter, hwhole, hbound, hlanded, hheads, hpath, hunits, hapart⟩

/-- Four pages, from the middle of one line over the next into a third. -/
theorem lands_of_spared_write_across_lines :
    ∃ fresh, build ⟨4, 2, 6, 1, by decide⟩ { handles := 2 } (.steady 0 1) = .ok fresh ∧
      let d := fresh.run ([.enable, .write (.placed 0 3 0)] : List (Request Host.Window))
      let w : WriteCommand := .placed 4 15 0
      let r : WriteReport := ⟨some 0, 4, 4, [0, 1, 2], [0, 1]⟩
      Reachable Host.Window d ∧ w.blocks < bitRange 16 ∧ (d.write w).result = .ok r ∧
        (d.write w).state.accounting.foregroundPasses = d.accounting.foregroundPasses ∧
        d.allocation.nextPages (some 0) 4 = [(0, 1), (1, 0), (1, 1), (2, 0)] ∧
        d.Lands w r (d.write w).state := by
  have hbuild : build ⟨4, 2, 6, 1, by decide⟩ { handles := 2 } (.steady 0 1) = .ok _ := rfl
  refine ⟨_, hbuild, ?_⟩
  intro d w r
  have hreach : Reachable Host.Window d := ⟨_, _, _, _, hbuild, _, rfl⟩
  have hresult : (d.write w).result = .ok r := by decide +kernel
  have hpasses : (d.write w).state.accounting.foregroundPasses =
      d.accounting.foregroundPasses := by decide +kernel
  exact ⟨hreach, by decide, hresult, hpasses, by decide +kernel,
    lands_of_spared_write hreach (by decide) hresult hpasses⟩

end DataPlacement.Device
