import DataPlacement.Proofs.Allocation.Capacity
import DataPlacement.Proofs.Device.Writes

namespace DataPlacement.Device

open Allocation

variable {d : Device} {u : UnitId} {o : Option UnitId} {wanted : Candidate → Bool}

/-- The pages that erasing the full lines of an owner gives back to it. -/
def fullPages (d : Device) (o : Option UnitId) : Nat := (d.pool.full o).card * d.pool.pagesPerLine

theorem fullPages_unit (d : Device) (u : UnitId) :
    d.fullPages (some u) = Configuration.reclaimablePages d.pool u := by
  rw [fullPages, Pool.card_full]
  rfl

/-- A pass over the lines of an owner. -/
theorem pass_owner (hd : d.Sound) (hc : d.collector.policy.Reorders)
    (hwanted : ∀ candidate, wanted candidate ↔ candidate.line.owner = o) :
    let ids := d.collector.victims d.pool none wanted
    (d.pass none wanted).result = .ok (ids.map fun id => ⟨id, o⟩) ∧
      erasures (d.pass none wanted).notices = ids.map .erased ∧
      ∀ w, (d.pass none wanted).state.pool.streamPages o w =
        d.pool.streamPages o w + d.fullPages o := by
  intro ids
  obtain ⟨hresult, hpool, herasures⟩ := pass_of_reorders none wanted hd hc
  have howner : ∀ id ∈ ids, d.pool.ownerOf id = o := by
    intro id hid
    obtain ⟨l, hline, -, hl⟩ := Collector.exists_of_mem_victims hc.selects hid
    rw [Pool.ownerOf_eq hline]
    exact (hwanted _).1 hl
  refine ⟨hresult.trans (congrArg Except.ok (List.map_congr_left fun id hid => ?_)), herasures,
    fun w => ?_⟩
  · rw [howner id hid]
  · have hall : ids.filter (d.pool.ownerOf · = o) = ids :=
      List.filter_eq_self.2 fun id hid => by simp [howner id hid]
    have hcount : (d.pass none wanted).state.pool.freeCount o =
        d.pool.freeCount o + (d.pool.full o).card := by
      rw [Pool.freeCount_eq_length, Pool.freeCount_eq_length, hpool.freeLines, hall,
        List.length_append, Collector.card_victims hc hwanted]
    simp only [Pool.streamPages, hcount, hpool.pagesPerLine, fullPages, Nat.add_mul]
    omega

/-! ### The plain path -/

theorem result_writePlain_of_invalid (block : Nat) {bytes : Nat}
    (hpart : bytes % d.geometry.pageSize ≠ 0) :
    (d.writePlain block bytes).outcome.result = .error (.invalidLength bytes) := by
  have honce := plainOnce_of_invalid (d := d) block (.inr hpart)
  have hrefused : (d.plainOnce block bytes).result ≠ .error .sharedExhausted := by
    rw [honce]
    simp [Outcome.refused]
  rw [writePlain_once block hrefused, honce]
  rfl

theorem accepted_writePlain_of_fits (hd : d.Sound) (block : Nat) {bytes : Nat} (hzero : bytes ≠ 0)
    (hwhole : bytes % d.geometry.pageSize = 0)
    (hfits : bytes / d.geometry.pageSize ≤ d.path.availablePages d.pool) :
    ∃ r, (d.writePlain block bytes).outcome.result = .ok r := by
  have honce := plainOnce_of_fits block hd hzero hwhole hfits
  have haccepted : (d.plainOnce block bytes).result ≠ .error .sharedExhausted := by
    rw [honce]
    simp [Outcome.done]
  rw [writePlain_once block haccepted, honce]
  exact ⟨_, rfl⟩

/-- A plain write that is too long at first is tried on the room that a pass makes. -/
theorem accepted_writePlain_of_long (hd : d.Sound) (hc : d.collector.policy.Reorders)
    (block : Nat) {bytes : Nat} (hzero : bytes ≠ 0) (hwhole : bytes % d.geometry.pageSize = 0)
    (hlong : d.path.availablePages d.pool < bytes / d.geometry.pageSize) :
    (∃ r, (d.writePlain block bytes).outcome.result = .ok r) ↔
      bytes / d.geometry.pageSize ≤ d.path.availablePages d.pool + d.fullPages none := by
  have hready := hd.countForegroundPass
  obtain ⟨hresult, -, hstream⟩ := pass_owner hready hc unowned_iff
  have hemptied : (d.countForegroundPass.pass none unowned).state.Sound :=
    (advances_any_pass _ none unowned).sound hready
  have hroom : (d.countForegroundPass.pass none unowned).state.path.availablePages
      (d.countForegroundPass.pass none unowned).state.pool =
        d.path.availablePages d.pool + d.fullPages none := hstream d.path.pointer
  rw [writePlain_of_exhausted block hzero hwhole hlong, hresult]
  by_cases hfits : bytes / d.geometry.pageSize ≤ d.path.availablePages d.pool + d.fullPages none
  · have honce := plainOnce_of_fits block hemptied hzero hwhole (hroom ▸ hfits)
    simp only [honce]
    exact iff_of_true ⟨_, rfl⟩ hfits
  · have hshort := Nat.lt_of_not_le hfits
    rw [← hroom] at hshort
    have honce := plainOnce_of_exhausted (d := (d.countForegroundPass.pass none unowned).state)
      block hzero hwhole hshort
    simp only [honce]
    apply iff_of_false _ hfits
    rintro ⟨r, hr⟩
    cases hr

/-- A plain write is accepted if it fits once the full lines without an owner are erased. -/
theorem accepted_writePlain_iff (hd : d.Sound) (hc : d.collector.policy.Reorders) (block : Nat)
    {bytes : Nat} (hzero : bytes ≠ 0) :
    (∃ r, (d.writePlain block bytes).outcome.result = .ok r) ↔
      bytes % d.geometry.pageSize = 0 ∧
        bytes / d.geometry.pageSize ≤ d.path.availablePages d.pool + d.fullPages none := by
  by_cases hwhole : bytes % d.geometry.pageSize = 0
  · by_cases hfits : bytes / d.geometry.pageSize ≤ d.path.availablePages d.pool
    · exact iff_of_true (accepted_writePlain_of_fits hd block hzero hwhole hfits)
        ⟨hwhole, Nat.le_add_right_of_le hfits⟩
    · rw [accepted_writePlain_of_long hd hc block hzero hwhole (Nat.lt_of_not_le hfits)]
      exact ⟨fun hlong => ⟨hwhole, hlong⟩, fun h => h.2⟩
  · rw [result_writePlain_of_invalid block hwhole]
    apply iff_of_false
    · rintro ⟨r, hr⟩
      cases hr
    · intro h
      exact hwhole h.1

/-! ### Units -/

/-- Opening a full unit again takes nothing from what it can write. -/
theorem availablePages_rearm (hd : d.Sound) (u : UnitId) (now : Nat) :
    let o := d.onUnits fun c p => c.rearm p u now
    o.state.configuration.availablePages o.state.pool u =
      d.configuration.availablePages d.pool u := by
  simp only [onUnits_eq_mapState]
  obtain hsame | ⟨unit, id, rest, hunit, hfull, hfree, hrearm⟩ :=
    d.configuration.rearm_cases d.pool now u
  · rw [hsame]
    rfl
  · have hclosed := hd.pointer_of_full hunit hfull
    obtain ⟨hafter, hbefore⟩ := Pool.freeCount_taken hfree
    have hopened : (d.configuration.updateUnit u (·.openOn id now)).unit? u =
        some (unit.openOn id now) := by
      rw [Configuration.unit?_updateUnit, if_pos rfl, hunit]
      rfl
    simp only [hrearm, Outcome.mapState, Outcome.done, setUnits, Configuration.availablePages,
      hopened, hunit, hclosed]
    simp only [ReclaimUnit.openOn, WritePointer.start]
    rw [Pool.streamPages_start, Pool.streamPages_closed _ _ rfl, hafter, hbefore,
      Pool.pagesPerLine_taken, Nat.succ_mul]
    omega

theorem availablePages_rearmOwners (hd : d.Sound) (now : Nat) {erased : List Reclaimed}
    (howner : ∀ r ∈ erased, r.owner = some u) :
    (rearmOwners now erased d).1.configuration.availablePages (rearmOwners now erased d).1.pool u =
      d.configuration.availablePages d.pool u := by
  induction erased generalizing d with
  | nil => rfl
  | cons r rest ih =>
    have hr := howner r (by simp)
    have hrest : ∀ r ∈ rest, r.owner = some u := fun r hr => howner r (by simp [hr])
    have hsound := (advances_rearm (W := fun _ => True) hd (u := u) trivial now).1.sound hd
    simp only [rearmOwners, hr]
    rw [ih hsound hrest]
    exact availablePages_rearm hd u now

/-- Only units that there are own lines. -/
theorem fullPages_of_no_unit (hd : d.Sound) (hnone : d.configuration.unit? u = none) :
    d.fullPages (some u) = 0 := by
  have hempty : d.pool.full (some u) = ∅ := by
    refine Finset.eq_empty_of_forall_notMem fun id hid => ?_
    obtain ⟨l, hline, howner, -⟩ := Pool.mem_full.1 hid
    obtain ⟨-, hlt⟩ := hd.unit_of_owner hline howner
    have hout : d.configuration.units.size ≤ u := by
      simpa [Configuration.unit?] using hnone
    exact Nat.not_lt.2 hout hlt
  rw [fullPages, hempty, Finset.card_empty, Nat.zero_mul]

/-- Emptying a unit is never refused, and gives it the pages of its full lines. -/
theorem reclaimUnit_of_reorders (hd : d.Sound) (hc : d.collector.policy.Reorders) (u : UnitId) :
    let ids := d.collector.victims d.pool none fun candidate => candidate.line.isOwnedBy u
    (d.reclaimUnit u).result = .ok ids.length ∧
      erasures (d.reclaimUnit u).notices = ids.map .erased ∧
      (d.reclaimUnit u).state.configuration.availablePages (d.reclaimUnit u).state.pool u =
        d.configuration.availablePages d.pool u + d.fullPages (some u) := by
  intro ids
  obtain ⟨hresult, herasures, hstream⟩ := pass_owner hd hc fun candidate =>
    Line.isOwnedBy_iff candidate.line u
  have hpassed := (advances_any_pass d none fun candidate => candidate.line.isOwnedBy u).sound hd
  have howner : ∀ r ∈ ids.map fun id => (⟨id, some u⟩ : Reclaimed), r.owner = some u :=
    fun _ => Pool.owner_of_mem_map
  have hrearmed := availablePages_rearmOwners hpassed.tick
    (d.pass none fun candidate => candidate.line.isOwnedBy u).state.clock.now howner
  have hquiet : ∀ now, erasures (rearmOwners now (ids.map fun id => ⟨id, some u⟩)
      (d.pass none fun candidate => candidate.line.isOwnedBy u).state.tick).2 = [] :=
    fun now => (advances_rearmOwners (W := fun _ => True) hpassed.tick now fun _ _ => trivial).2
  simp only [reclaimUnit, collect_of_ok none hresult, Outcome.done]
  refine ⟨?_, ?_, ?_⟩
  · simp [Except.map, ids]
  · rw [erasures_append, herasures, hquiet, List.append_nil]
  · refine hrearmed.trans ?_
    change d.configuration.availablePages (d.pass none _).state.pool u = _
    unfold Configuration.availablePages
    cases hunit : d.configuration.unit? u with
    | none => rw [fullPages_of_no_unit hd hunit]
    | some unit => exact hstream unit.pointer

/-- Emptying the unit helps a write that is too long if the pages of its full lines are enough. -/
theorem reclaimWouldFit_iff (hd : d.Sound) {bytes : Nat}
    (hlong : d.configuration.availablePages d.pool u < bytes / d.configuration.pageSize) :
    d.reclaimWouldFit u bytes ↔ bytes / d.configuration.pageSize ≤
      d.configuration.availablePages d.pool u + d.fullPages (some u) := by
  rw [fullPages_unit, hd.pageSize] at *
  simp only [reclaimWouldFit, Bool.and_eq_true, decide_eq_true_eq]
  omega

/-- How a placed write ends. -/
inductive PlacedEnd (d : Device) (placement : Placement) (bytes : Nat)
    (o : Outcome Device WriteReport) : Prop where
  /-- It is refused and erases nothing. -/
  | refused (cause : Error) (hresult : o.result = .error cause) (hevents : o.lineEvents = [])
      (hlong : ∀ u, d.configuration.Targets placement bytes u →
        d.configuration.availablePages d.pool u + d.fullPages (some u) <
          bytes / d.configuration.pageSize)
  /-- Its unit has room for it. -/
  | fits (u : UnitId) (r : WriteReport) (hu : d.configuration.Targets placement bytes u)
      (hfits : bytes / d.configuration.pageSize ≤ d.configuration.availablePages d.pool u)
      (hresult : o.result = .ok r) (hevents : o.lineEvents = r.events)
  /-- Its unit has room for it once the full lines of the unit are erased. -/
  | emptied (u : UnitId) (r : WriteReport) (hu : d.configuration.Targets placement bytes u)
      (hlong : d.configuration.availablePages d.pool u < bytes / d.configuration.pageSize)
      (hfits : bytes / d.configuration.pageSize ≤
        d.configuration.availablePages d.pool u + d.fullPages (some u))
      (hresult : o.result = .ok r)
      (hevents : o.lineEvents = (d.collector.victims d.pool none fun candidate =>
        candidate.line.isOwnedBy u).map .erased ++ r.events)

theorem placedEnd_of_not_targets (hd : d.Sound) {placement : Placement} {bytes : Nat} (block : Nat)
    (hnone : ∀ u, ¬ d.configuration.Targets placement bytes u) :
    PlacedEnd d placement bytes (d.writePlaced placement block bytes).outcome := by
  obtain ⟨cause, hroute, hcause⟩ := routeOnce_of_not_targets (d := d.tick) block d.clock.now hnone
  have honce : d.writePlaced placement block bytes =
      ⟨d.tick.routeOnce placement block bytes d.clock.now, true⟩ := by
    apply writePlaced_once block hd
    intro u hexhausted
    rw [hroute] at hexhausted
    exact absurd (Except.error.inj hexhausted) (hcause u)
  rw [honce, hroute]
  exact .refused cause rfl rfl fun u hu => absurd hu (hnone u)

theorem placedEnd_of_fits (hd : d.Sound) {placement : Placement} {bytes : Nat} (block : Nat)
    (hu : d.configuration.Targets placement bytes u)
    (hfits : bytes / d.configuration.pageSize ≤ d.configuration.availablePages d.pool u) :
    PlacedEnd d placement bytes (d.writePlaced placement block bytes).outcome := by
  obtain ⟨unit, -, hroute⟩ := routeOnce_of_fits (d := d.tick) block d.clock.now hd.tick hu hfits
  have honce : d.writePlaced placement block bytes =
      ⟨d.tick.routeOnce placement block bytes d.clock.now, true⟩ := by
    apply writePlaced_once block hd
    intro v hexhausted
    rw [hroute] at hexhausted
    cases hexhausted
  rw [honce, hroute]
  exact .fits u _ hu hfits rfl (Outcome.lineEvents_done (erasures_ite rfl _) _ _)

theorem placedEnd_of_long (hd : d.Sound) (hc : d.collector.policy.Reorders)
    {placement : Placement} {bytes : Nat} (block : Nat)
    (hu : d.configuration.Targets placement bytes u)
    (hlong : d.configuration.availablePages d.pool u < bytes / d.configuration.pageSize) :
    PlacedEnd d placement bytes (d.writePlaced placement block bytes).outcome := by
  by_cases hfits : bytes / d.configuration.pageSize ≤
      d.configuration.availablePages d.pool u + d.fullPages (some u)
  · have hready := hd.tick.countForegroundPass
    obtain ⟨hresult, herasures, hroom⟩ := reclaimUnit_of_reorders hready hc u
    have hpass := advances_any_reclaimUnit hready u
    have hu' := (Configuration.targets_of_blank hpass.blank hpass.enabled placement bytes u).2 hu
    have hpageSize : (d.tick.countForegroundPass.reclaimUnit u).state.configuration.pageSize =
        d.configuration.pageSize := Configuration.pageSize_eq_of_blank hpass.blank
    obtain ⟨unit, -, hroute⟩ := routeOnce_of_fits block d.clock.now (hpass.sound hready) hu'
      (by rw [hpageSize, hroom]; exact hfits)
    rw [writePlaced_of_hopeful block hu hlong ((reclaimWouldFit_iff hd hlong).2 hfits), hresult,
      hroute]
    refine .emptied u _ hu hlong hfits rfl ?_
    rw [Outcome.lineEvents_after, erasures_cons rfl, herasures,
      Outcome.lineEvents_done (erasures_ite rfl _)]
    rfl
  · have hroute := routeOnce_of_exhausted (d := d.tick) block d.clock.now hu hlong
    have honce : d.writePlaced placement block bytes =
        ⟨d.tick.routeOnce placement block bytes d.clock.now, true⟩ := by
      apply writePlaced_once block hd
      intro v hexhausted
      rw [hroute] at hexhausted
      obtain rfl : u = v := by simpa [Outcome.refused] using hexhausted
      rw [Bool.eq_false_iff]
      intro hfit
      exact hfits ((reclaimWouldFit_iff hd hlong).1 hfit)
    rw [honce, hroute]
    apply PlacedEnd.refused _ rfl rfl
    intro v hv
    obtain rfl : u = v := Except.ok.inj (hu.2.2.2.symm.trans hv.2.2.2)
    exact Nat.lt_of_not_le hfits

theorem placedEnd (hd : d.Sound) (hc : d.collector.policy.Reorders) (placement : Placement)
    (block bytes : Nat) :
    PlacedEnd d placement bytes (d.writePlaced placement block bytes).outcome := by
  by_cases htargets : ∃ u, d.configuration.Targets placement bytes u
  · obtain ⟨u, hu⟩ := htargets
    by_cases hfits : bytes / d.configuration.pageSize ≤ d.configuration.availablePages d.pool u
    · exact placedEnd_of_fits hd block hu hfits
    · exact placedEnd_of_long hd hc block hu (Nat.lt_of_not_le hfits)
  · exact placedEnd_of_not_targets hd block (not_exists.1 htargets)

end DataPlacement.Device
