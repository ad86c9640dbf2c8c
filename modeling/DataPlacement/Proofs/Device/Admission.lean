import DataPlacement.Proofs.Device.Periods
import DataPlacement.Proofs.Device.Reclaiming

namespace DataPlacement.Device

open Allocation

variable {d start : Device} {dist : Distribution} {u : UnitId} {w : WriteCommand}
  {μ : Type} [Host.Memory μ]

/-- The write is accepted. -/
def Accepts (d : Device) (w : WriteCommand) : Prop := ∃ r, (d.write w).result = .ok r

/-- The length of the write is a multiple of the page size. -/
def IsWhole (d : Device) (w : WriteCommand) : Prop :=
  w.bytes d.geometry.blockSize % d.geometry.pageSize = 0

/-- The length of the write in pages. -/
def pagesOf (d : Device) (w : WriteCommand) : Nat :=
  w.bytes d.geometry.blockSize / d.geometry.pageSize

/-- The write leads to the unit. -/
def LeadsTo (d : Device) (w : WriteCommand) (u : UnitId) : Prop :=
  d.configuration.resolve (d.placementOf w) = .ok u

/-- The line is full, and its unit accepts the write although it is too long for what the unit can
take without an erasure. -/
def Evicts (d : Device) (w : WriteCommand) (l : Line) : Prop :=
  d.Accepts w ∧ ∃ u, d.LeadsTo w u ∧ d.configuration.availablePages d.pool u < d.pagesOf w ∧
    l.owner = some u ∧ l.state = .full

theorem bytes_ne_zero (hd : d.Sound) (w : WriteCommand) : w.bytes d.geometry.blockSize ≠ 0 := by
  have hblock := (Geometry.pos_of_validate hd.geometry).2.2
  exact Nat.ne_of_gt (Nat.mul_pos (Nat.succ_pos w.blocks) hblock)

theorem targets_iff (hd : d.Sound) (hon : d.enabled) (w : WriteCommand) (u : UnitId) :
    d.configuration.Targets (d.placementOf w) (w.bytes d.geometry.blockSize) u ↔
      d.IsWhole w ∧ d.LeadsTo w u := by
  unfold Configuration.Targets IsWhole LeadsTo
  rw [hd.pageSize]
  constructor
  · rintro ⟨-, -, hwhole, hresolve⟩
    exact ⟨hwhole, hresolve⟩
  · rintro ⟨hwhole, hresolve⟩
    exact ⟨hon, bytes_ne_zero hd w, hwhole, hresolve⟩

/-- What a unit can take once its full lines are erased. -/
theorem availablePages_add_fullPages (hd : d.Sound) {unit : ReclaimUnit}
    (hunit : d.configuration.unit? u = some unit) :
    d.configuration.availablePages d.pool u + d.fullPages (some u) =
      d.geometry.pagesPerLine * (d.pool.owned (some u)).card - unit.pointer.page := by
  have hpointer : d.allocation.pointer (some u) = unit.pointer :=
    Configuration.pointers_of_unit? d.path hunit
  have hcapacity := hd.allocation.streamPages_add_full (some u)
  rw [hpointer] at hcapacity
  rw [← hd.pagesPerLine]
  unfold Configuration.availablePages
  rw [hunit]
  exact hcapacity

theorem exists_unit_of_pages (hd : d.Sound) {pages : Nat} (hpages : 0 < pages)
    (hfits : pages ≤ d.configuration.availablePages d.pool u + d.fullPages (some u)) :
    ∃ unit, d.configuration.unit? u = some unit := by
  cases hunit : d.configuration.unit? u with
  | some unit => exact ⟨unit, rfl⟩
  | none =>
    have hfull := fullPages_of_no_unit hd hunit
    have hnone : d.configuration.availablePages d.pool u = 0 := by
      simp [Configuration.availablePages, hunit]
    omega

/-- The end of a placed write command. -/
theorem placedEnd_write (hd : d.Sound) (hc : d.collector.policy.Reorders) (hplaced : d.places w) :
    PlacedEnd d (d.placementOf w) (w.bytes d.geometry.blockSize) (d.attempt w).outcome := by
  rw [attempt_of_places hplaced]
  exact placedEnd hd hc _ _ _

/-- A placed write is accepted if and only if it fits into the lines of its unit. -/
theorem accepts_placed_iff (hd : d.Sound) (hc : d.collector.policy.Reorders)
    (hplaced : d.places w) :
    d.Accepts w ↔ d.IsWhole w ∧ ∃ u unit, d.LeadsTo w u ∧ d.configuration.unit? u = some unit ∧
      d.pagesOf w ≤ d.geometry.pagesPerLine * (d.pool.owned (some u)).card - unit.pointer.page := by
  have hon : d.enabled := (Bool.and_eq_true_iff.1 hplaced).1
  unfold Accepts
  rw [result_write]
  have hpages : w.bytes d.geometry.blockSize / d.configuration.pageSize = d.pagesOf w := by
    rw [pagesOf, hd.pageSize]
  constructor
  · have hroom : ∀ u, d.configuration.Targets (d.placementOf w) (w.bytes d.geometry.blockSize) u →
        d.pagesOf w ≤ d.configuration.availablePages d.pool u + d.fullPages (some u) →
        d.IsWhole w ∧ ∃ u unit, d.LeadsTo w u ∧ d.configuration.unit? u = some unit ∧
          d.pagesOf w ≤
            d.geometry.pagesPerLine * (d.pool.owned (some u)).card - unit.pointer.page := by
      intro u hu hfits
      obtain ⟨hwhole, hleads⟩ := (targets_iff hd hon w u).1 hu
      obtain ⟨unit, hunit⟩ := exists_unit_of_pages hd (hpages ▸ Configuration.pos_pages hu) hfits
      rw [availablePages_add_fullPages hd hunit] at hfits
      exact ⟨hwhole, u, unit, hleads, hunit, hfits⟩
    rintro ⟨r, haccepted⟩
    cases placedEnd_write hd hc hplaced with
    | refused cause hresult =>
      rw [hresult] at haccepted
      cases haccepted
    | fits u r hu hfits => exact hroom u hu (hpages ▸ Nat.le_add_right_of_le hfits)
    | emptied u r hu hlong hfits => exact hroom u hu (hpages ▸ hfits)
  · rintro ⟨hwhole, u, unit, hleads, hunit, hfits⟩
    rw [← availablePages_add_fullPages hd hunit] at hfits
    cases placedEnd_write hd hc hplaced with
    | refused cause hresult hevents hlong =>
      have hshort := hlong u ((targets_iff hd hon w u).2 ⟨hwhole, hleads⟩)
      rw [hpages] at hshort
      exact absurd hfits (Nat.not_le.2 hshort)
    | fits u r hu hfits hresult => exact ⟨r, hresult⟩
    | emptied u r hu hlong hfits hresult => exact ⟨r, hresult⟩

/-- A placed write erases the lines that it evicts, each once, and no others. -/
theorem erases_placed (hd : d.Sound) (hc : d.collector.policy.Reorders) (hplaced : d.places w)
    {id : LineId} {l : Line} (hline : d.pool.lines[id]? = some l) :
    ∃ l', (d.write w).state.pool.lines[id]? = some l' ∧
      (d.Evicts w l → l'.erases = advance 32 l.erases 1) ∧
      (¬ d.Evicts w l → l'.erases = l.erases) := by
  have hsteps := steps_move_of_traffic (advances_any_write hd w).steps
  obtain ⟨l', hafter, hevolves⟩ := evolves_of_steps hsteps hd.allocation id l hline
  have herases := hevolves.erases
  rw [lineEvents_write] at herases
  refine ⟨l', hafter, ?_⟩
  cases placedEnd_write hd hc hplaced with
  | refused cause hresult hevents =>
    have hnot : ¬ d.Evicts w l := by
      rintro ⟨⟨r, haccepted⟩, -⟩
      rw [result_write, hresult] at haccepted
      cases haccepted
    rw [hevents, erasuresOf_nil] at herases
    exact ⟨fun h => absurd h hnot, fun _ => herases⟩
  | fits u r hu hfits hresult hevents =>
    have hnot : ¬ d.Evicts w l := by
      rintro ⟨-, v, hv, hlong, -⟩
      obtain rfl : u = v := Except.ok.inj (hu.2.2.2.symm.trans hv)
      rw [hd.pageSize] at hfits
      exact Nat.not_le.2 hlong hfits
    rw [hevents, WriteReport.erasuresOf_events] at herases
    exact ⟨fun h => absurd h hnot, fun _ => herases⟩
  | emptied u r hu hlong hfits hresult hevents =>
    have hevicts : d.Evicts w l ↔
        id ∈ d.collector.victims d.pool none fun candidate => candidate.line.isOwnedBy u := by
      rw [Collector.mem_victims hc]
      simp only [Line.isOwnedBy_iff]
      constructor
      · rintro ⟨-, v, hv, -, howner, hfull⟩
        obtain rfl : u = v := Except.ok.inj (hu.2.2.2.symm.trans hv)
        exact ⟨l, hline, hfull, howner⟩
      · rintro ⟨k, hk, hfull, howner⟩
        obtain rfl : l = k := Option.some.inj (hline.symm.trans hk)
        rw [hd.pageSize] at hlong
        exact ⟨⟨r, (result_write d w).trans hresult⟩, u, hu.2.2.2, hlong, howner, hfull⟩
    rw [hevents, erasuresOf_append, WriteReport.erasuresOf_events, erasuresOf_erased] at herases
    rw [hevicts]
    constructor
    · intro hmem
      rw [herases, List.count_eq_one_of_mem (Collector.nodup_victims hc) hmem]
      rfl
    · intro hmem
      rw [herases, List.count_eq_zero_of_not_mem hmem]
      rfl

/-- A write to the plain path is accepted if and only if it fits into the lines without an owner. -/
theorem accepts_plain_iff (hd : d.Sound) (hc : d.collector.policy.Reorders)
    (hplain : d.places w = false) :
    d.Accepts w ↔ d.IsWhole w ∧
      d.pagesOf w ≤ d.geometry.pagesPerLine * (d.pool.owned none).card - d.path.pointer.page := by
  have hcapacity : d.path.availablePages d.pool + d.fullPages none =
      d.pool.pagesPerLine * (d.pool.owned none).card - d.path.pointer.page :=
    hd.allocation.streamPages_add_full none
  unfold Accepts
  rw [result_write, attempt_of_not_places hplain,
    accepted_writePlain_iff hd hc w.block (bytes_ne_zero hd w), hcapacity, hd.pagesPerLine]
  rfl

/-- Whenever placement is on, it is so since a period began. All through a period each unit owns the
lines that it was given at the start; a write with a placement is accepted if and only if it fits
into them, and erases the full ones among them if and only if it must. Any other write is accepted
if and only if it fits into the lines without an owner. -/
theorem exact_admission (hd : Orderly μ d) :
    (d.enabled → ∃ dist start, Period μ dist start d) ∧
    (∀ dist start, Period μ dist start d →
      (∀ u < d.configuration.units.size, d.pool.owned (some u) = start.pool.owned (some u) ∧
        dist.perUnit[u]? = some (d.pool.owned (some u)).card) ∧
      ∀ w : WriteCommand, w.hasPlacement →
        (d.Accepts w ↔ d.IsWhole w ∧ ∃ u unit n, d.LeadsTo w u ∧
          d.configuration.unit? u = some unit ∧ dist.perUnit[u]? = some n ∧
          d.pagesOf w ≤ d.geometry.pagesPerLine * n - unit.pointer.page) ∧
        ∀ (id : LineId) (l : Line), d.pool.lines[id]? = some l →
          ∃ l', (d.write w).state.pool.lines[id]? = some l' ∧
            (d.Evicts w l → l'.erases = advance 32 l.erases 1) ∧
            (¬ d.Evicts w l → l'.erases = l.erases)) ∧
    ∀ w, d.places w = false →
      (d.Accepts w ↔ d.IsWhole w ∧
        d.pagesOf w ≤ d.geometry.pagesPerLine * (d.pool.owned none).card - d.path.pointer.page) := by
  have hsound := hd.sound
  have hc := hd.reorders
  refine ⟨hd.exists_period, fun dist start hperiod => ?_, fun w => accepts_plain_iff hsound hc⟩
  have hgranted := hperiod.granted
  have hshares : ∀ u < d.configuration.units.size,
      dist.perUnit[u]? = some (d.pool.owned (some u)).card := by
    intro u hu
    rw [hgranted.owned]
    exact hgranted.shares u (hgranted.units ▸ hu)
  refine ⟨fun u hu => ⟨hgranted.owned _, hshares u hu⟩, fun w hw => ?_⟩
  have hplaced : d.places w := Bool.and_eq_true_iff.2 ⟨hgranted.enabled, hw⟩
  refine ⟨?_, fun id l hline => erases_placed hsound hc hplaced hline⟩
  rw [accepts_placed_iff hsound hc hplaced]
  have hexists : ∀ {u unit}, d.configuration.unit? u = some unit → u < d.configuration.units.size :=
    fun hunit => (Array.getElem?_eq_some_iff.1 hunit).1
  refine and_congr_right fun _ => ⟨?_, ?_⟩
  · rintro ⟨u, unit, hleads, hunit, hfits⟩
    exact ⟨u, unit, _, hleads, hunit, hshares u (hexists hunit), hfits⟩
  · rintro ⟨u, unit, n, hleads, hunit, hn, hfits⟩
    obtain rfl : _ = n := Option.some.inj ((hshares u (hexists hunit)).symm.trans hn)
    exact ⟨u, unit, hleads, hunit, hfits⟩

/-- Unit 0 has three lines of two pages and has written three pages. Four more fit once its full
line is erased. -/
theorem exact_admission_of_evicting_write :
    ∃ fresh, build ⟨4, 2, 6, 1, by decide⟩ { handles := 2 } (.steady 0 1) = .ok fresh ∧
      let d := fresh.run ([.install { policy := .newestFirst }, .enable, .write (.placed 0 11 0)] :
        List (Request Host.Window))
      let w : WriteCommand := .placed 0 15 0
      Orderly Host.Window d ∧ ∃ dist start, Period Host.Window dist start d ∧
        dist.perUnit[0]? = some 3 ∧ d.configuration.availablePages d.pool 0 < d.pagesOf w ∧
        d.Accepts w ∧ ∃ l, (d.write w).state.pool.lines[0]? = some l ∧ l.erases = 1 := by
  have hbuild : build ⟨4, 2, 6, 1, by decide⟩ { handles := 2 } (.steady 0 1) = .ok _ := rfl
  refine ⟨_, hbuild, ?_⟩
  intro d w
  have horderly : Orderly Host.Window d := by
    refine ⟨_, _, _, _, hbuild, _, fun r hr policy hpolicy => ?_, rfl⟩
    simp only [List.mem_cons, List.not_mem_nil, or_false, hpolicy, Request.install.injEq,
      reduceCtorEq] at hr
    rw [hr]
    exact VictimPolicy.reorders_newestFirst
  obtain ⟨hperiods, hperiod, -⟩ := exact_admission horderly
  obtain ⟨dist, start, hsince⟩ := hperiods (by decide +kernel)
  obtain ⟨hshares, hwrites⟩ := hperiod dist start hsince
  obtain ⟨haccepts, herases⟩ := hwrites w (by decide)
  have hcard : (d.pool.owned (some 0)).card = 3 := by decide +kernel
  have hshare : dist.perUnit[0]? = some 3 := by
    rw [← hcard]
    exact (hshares 0 (by decide +kernel)).2
  have hlong : d.configuration.availablePages d.pool 0 < d.pagesOf w := by decide +kernel
  have hleads : d.configuration.resolve (d.placementOf w) = .ok 0 := by decide +kernel
  have hunit : d.configuration.unit? 0 =
      some ⟨0, 0, 0, 24, .active, ⟨some 1, 1⟩, 12, 12, 1, 1, some 0⟩ := by decide +kernel
  have hwhole : w.bytes d.geometry.blockSize % d.geometry.pageSize = 0 := by decide +kernel
  have hfits : d.pagesOf w ≤ d.geometry.pagesPerLine * 3 - 1 := by decide +kernel
  have haccepted : d.Accepts w := haccepts.2 ⟨hwhole, 0, _, 3, hleads, hunit, hshare, hfits⟩
  have hline : d.pool.lines[0]? = some ⟨some 0, .full, 0, 2, 1⟩ := by decide +kernel
  obtain ⟨l, hafter, hevicted, -⟩ := herases 0 _ hline
  exact ⟨horderly, dist, start, hsince, hshare, hlong, haccepted, l, hafter,
    hevicted ⟨haccepted, 0, hleads, hlong, rfl, rfl⟩⟩

end DataPlacement.Device
