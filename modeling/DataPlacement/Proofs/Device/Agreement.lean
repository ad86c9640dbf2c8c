import DataPlacement.Proofs.Allocation.Bystanders
import DataPlacement.Proofs.Device.Writes
import DataPlacement.Proofs.Pool.Lockstep
import DataPlacement.Proofs.Pool.Queue

namespace DataPlacement

/-- The unit without the time at which it was opened. -/
def ReclaimUnit.unstamped (unit : ReclaimUnit) : ReclaimUnit := { unit with openedAt := none }

theorem ReclaimUnit.pointer_eq_of_unstamped {unit unit' : ReclaimUnit}
    (h : unit'.unstamped = unit.unstamped) : unit'.pointer = unit.pointer := by
  have hpointer := congrArg ReclaimUnit.pointer h
  exact hpointer

theorem ReclaimUnit.state_eq_of_unstamped {unit unit' : ReclaimUnit}
    (h : unit'.unstamped = unit.unstamped) : unit'.state = unit.state := by
  have hstate := congrArg ReclaimUnit.state h
  exact hstate

theorem ReclaimUnit.unstamped_afterFill {u : UnitId} {unit unit' : ReclaimUnit} {f g : Fill}
    (h : unit'.unstamped = unit.unstamped) (hfill : f.Agree u g) (now now' : Nat) :
    (unit'.afterFill g now').unstamped = (unit.afterFill f now).unstamped := by
  simp only [unstamped, mk.injEq] at h
  simp [unstamped, afterFill, Fill.ranDry, h, hfill.pointer, hfill.lines, hfill.retired]

namespace Device

variable {u : UnitId} {W : Option UnitId → Prop} {d d' e e' : Device} {es : List LineEvent}

/-- The devices agree on the unit: on its part of the pool, and on its record but for the time at
which it was opened. What placement and collection are set to is the same. -/
structure Agree (u : UnitId) (d e : Device) : Prop where
  pool : d.pool.Agree u e.pool
  unit : (e.configuration.unit? u).map (·.unstamped) = (d.configuration.unit? u).map (·.unstamped)
  blank : e.configuration.blank = d.configuration.blank
  enabled : e.enabled = d.enabled
  geometry : e.geometry = d.geometry
  policy : e.collector.policy = d.collector.policy

namespace Agree

theorem symm (h : Agree u d e) : Agree u e d :=
  ⟨h.pool.symm, h.unit.symm, h.blank.symm, h.enabled.symm, h.geometry.symm, h.policy.symm⟩

theorem trans (h : Agree u d e) (h' : Agree u e e') : Agree u d e' :=
  ⟨h.pool.trans h'.pool, h'.unit.trans h.unit, h'.blank.trans h.blank, h'.enabled.trans h.enabled,
    h'.geometry.trans h.geometry, h'.policy.trans h.policy⟩

theorem exists_unit (h : Agree u d e) {unit : ReclaimUnit}
    (hunit : d.configuration.unit? u = some unit) :
    ∃ unit', e.configuration.unit? u = some unit' ∧ unit'.unstamped = unit.unstamped := by
  have hsame := h.unit
  rw [hunit, Option.map_some] at hsame
  exact Option.map_eq_some_iff.1 hsame

theorem availablePages (h : Agree u d e) :
    e.configuration.availablePages e.pool u = d.configuration.availablePages d.pool u := by
  unfold Configuration.availablePages
  cases hunit : d.configuration.unit? u with
  | none =>
    have hsame := h.unit
    rw [hunit, Option.map_none, Option.map_eq_none_iff] at hsame
    rw [hsame]
  | some unit =>
    obtain ⟨unit', hunit', hsame⟩ := h.exists_unit hunit
    have hpointer := ReclaimUnit.pointer_eq_of_unstamped hsame
    simp only [hunit', hpointer, h.pool.streamPages]

theorem targets (h : Agree u d e) (placement : Placement) (bytes : Nat) (v : UnitId) :
    e.configuration.Targets placement bytes v ↔ d.configuration.Targets placement bytes v :=
  Configuration.targets_of_blank h.blank h.enabled placement bytes v

end Agree

/-- What is done on behalf of others changes nothing that the unit sees. -/
theorem Advances.agree (h : Advances W d es d') (hu : ¬ W (some u)) (hd : d.Sound) :
    Agree u d d' where
  pool := Allocation.agree_of_traffic h.steps hu hd.allocation
  unit := by rw [h.units u hu]
  blank := h.blank
  enabled := h.enabled
  geometry := h.geometry
  policy := h.policy

theorem Agree.refl (hd : d.Sound) : Agree u d d :=
  (Advances.refl (W := fun _ => False) d).agree not_false hd

/-! ### One try at the unit -/

variable {placement : Placement} (block bytes : Nat)

theorem unit?_filled {unit : ReclaimUnit} (hunit : d.configuration.unit? u = some unit)
    (bytes now : Nat) :
    (d.filled u unit bytes now).configuration.unit? u =
      some ((unit.afterFill (d.configuration.writeFill d.pool bytes unit u) now).countWrite
        bytes) := by
  simp only [Configuration.unit?] at hunit
  simp only [filled, setUnits, Configuration.countWrite, Configuration.updateUnit,
    Configuration.unit?, Array.getElem?_modify, if_true, hunit, Option.map_some]

theorem Agree.filled (h : Agree u d e) {unit unit' : ReclaimUnit}
    (hunit : d.configuration.unit? u = some unit) (hunit' : e.configuration.unit? u = some unit')
    (hsame : unit'.unstamped = unit.unstamped) (bytes now now' : Nat) :
    Fill.Agree u (d.configuration.writeFill d.pool bytes unit u)
        (e.configuration.writeFill e.pool bytes unit' u) ∧
      Agree u (d.filled u unit bytes now) (e.filled u unit' bytes now') := by
  have hpointer := ReclaimUnit.pointer_eq_of_unstamped hsame
  have hfill : Fill.Agree u (d.configuration.writeFill d.pool bytes unit u)
      (e.configuration.writeFill e.pool bytes unit' u) := by
    unfold Configuration.writeFill
    rw [hpointer, Configuration.pageSize_eq_of_blank h.blank]
    exact h.pool.fill _ _ _
  refine ⟨hfill, hfill.pool, ?_, ?_, h.enabled, h.geometry, h.policy⟩
  · rw [unit?_filled hunit, unit?_filled hunit']
    have hafter := ReclaimUnit.unstamped_afterFill hsame hfill now now'
    simp only [ReclaimUnit.unstamped, ReclaimUnit.mk.injEq] at hafter
    simp [ReclaimUnit.unstamped, ReclaimUnit.countWrite, hafter]
  · have hblank : ∀ (d : Device) (unit : ReclaimUnit) (now : Nat),
        (d.filled u unit bytes now).configuration.blank = d.configuration.blank := by
      intro d unit now
      rw [Device.filled, setUnits, Configuration.blank_countWrite]
      exact d.configuration.blank_updateUnit u fun _ => rfl
    rw [hblank, hblank, h.blank]

/-- A placed write to the unit ends in the same way on both sides. -/
theorem Agree.routeOnce (h : Agree u d e) (hd : d.Sound) (he : e.Sound) (henabled : d.enabled)
    (hresolve : d.configuration.resolve placement = .ok u) (now now' : Nat) :
    (e.routeOnce placement block bytes now').result =
        (d.routeOnce placement block bytes now).result ∧
      Agree u (d.routeOnce placement block bytes now).state
        (e.routeOnce placement block bytes now').state := by
  have hpageSize := Configuration.pageSize_eq_of_blank h.blank
  by_cases hlength : bytes = 0 ∨ bytes % d.configuration.pageSize ≠ 0
  · rw [routeOnce_of_invalid block now henabled hlength,
      routeOnce_of_invalid block now' (h.enabled.trans henabled) (by rwa [hpageSize])]
    exact ⟨rfl, h⟩
  · rw [not_or, not_not] at hlength
    have htargets : d.configuration.Targets placement bytes u :=
      ⟨henabled, hlength.1, hlength.2, hresolve⟩
    have htargets' := (h.targets placement bytes u).2 htargets
    by_cases hfits : bytes / d.configuration.pageSize ≤ d.configuration.availablePages d.pool u
    · obtain ⟨unit, hunit, hroute⟩ := routeOnce_of_fits block now hd htargets hfits
      obtain ⟨unit', hunit', hroute'⟩ := routeOnce_of_fits block now' he htargets'
        (by rwa [hpageSize, h.availablePages])
      obtain ⟨first, hfirst, hsame⟩ := h.exists_unit hunit
      obtain rfl : first = unit' := Option.some.inj (hfirst.symm.trans hunit')
      obtain ⟨hfill, hafter⟩ := h.filled hunit hunit' hsame bytes now now'
      rw [hroute, hroute']
      simp only [Outcome.done, hfill.lines, hfill.retired, hpageSize]
      exact ⟨trivial, hafter⟩
    · have hlong := Nat.lt_of_not_le hfits
      rw [routeOnce_of_exhausted block now htargets hlong,
        routeOnce_of_exhausted block now' htargets' (by rwa [hpageSize, h.availablePages])]
      exact ⟨rfl, h⟩

/-! ### Emptying the unit -/

/-- A full unit that got a line back opens the same line on both sides. -/
theorem Agree.rearm (h : Agree u d e) (now now' : Nat) :
    Agree u (d.onUnits fun c p => c.rearm p u now).state
      (e.onUnits fun c p => c.rearm p u now').state := by
  simp only [onUnits_eq_mapState, Outcome.mapState, Configuration.rearm]
  cases hunit : d.configuration.unit? u with
  | none =>
    have hsame := h.unit
    rw [hunit, Option.map_none, Option.map_eq_none_iff] at hsame
    rw [hsame]
    exact h
  | some unit =>
    obtain ⟨unit', hunit', hsame⟩ := h.exists_unit hunit
    have hstate := ReclaimUnit.state_eq_of_unstamped hsame
    simp only [hunit', hstate]
    by_cases hfull : unit.state = .full
    · obtain ⟨line, p, q, hp, hq, hpool⟩ := h.pool.take
      simp only [hfull, ne_eq, not_true, if_false, hp, hq]
      cases line with
      | none => exact ⟨hpool, h.unit, h.blank, h.enabled, h.geometry, h.policy⟩
      | some id =>
        refine ⟨hpool, ?_, ?_, h.enabled, h.geometry, h.policy⟩
        · simp only [Outcome.done, setUnits, Configuration.unit?_updateUnit, if_true, hunit, hunit',
            Option.map_some]
          simp only [ReclaimUnit.unstamped, ReclaimUnit.mk.injEq] at hsame
          simp [ReclaimUnit.unstamped, ReclaimUnit.openOn, hsame]
        · have hblank : ∀ (c : Configuration) (now : Nat),
              (c.updateUnit u (·.openOn id now)).blank = c.blank :=
            fun c now => c.blank_updateUnit u fun _ => rfl
          simp only [Outcome.done, setUnits, hblank, h.blank]
    · simp only [ne_eq, hfull, not_false_eq_true, if_true]
      exact h

theorem Agree.rearmOwners (h : Agree u d e) (now now' : Nat) {erased : List Reclaimed}
    (howner : ∀ r ∈ erased, r.owner = some u) :
    Agree u (rearmOwners now erased d).1 (rearmOwners now' erased e).1 := by
  induction erased generalizing d e with
  | nil => exact h
  | cons r rest ih =>
    have hr := howner r (by simp)
    simp only [Device.rearmOwners, hr]
    exact ih (h.rearm now now') fun r hr => howner r (by simp [hr])

theorem victims_of_oldestFirst {c : Collector} (hc : c.policy = .oldestFirst) (p : Pool)
    (u : UnitId) : c.victims p none (fun candidate => candidate.line.isOwnedBy u) = p.queue u := by
  simp only [Collector.victims, hc]
  rfl

theorem reorders_of_oldestFirst {v : VictimPolicy} (hv : v = .oldestFirst) : v.Reorders :=
  hv ▸ VictimPolicy.reorders_oldestFirst

/-- What a pass over the unit's lines erases, oldest first. -/
theorem pass_queue (hd : d.Sound) (hpolicy : d.collector.policy = .oldestFirst) (u : UnitId) :
    let pass := d.pass none fun candidate => candidate.line.isOwnedBy u
    pass.result = .ok ((d.pool.queue u).map fun id => ⟨id, some u⟩) ∧
      d.pool.Erased (d.pool.queue u) pass.state.pool ∧ d.pool.Keeps pass.state.pool := by
  intro pass
  obtain ⟨hresult, hpool, -⟩ := pass_of_reorders none (fun c => c.line.isOwnedBy u) hd
    (reorders_of_oldestFirst hpolicy)
  rw [victims_of_oldestFirst hpolicy] at hresult hpool
  refine ⟨hresult.trans (congrArg Except.ok (List.map_congr_left fun id hid => ?_)), hpool, ?_⟩
  · obtain ⟨l, hline, -⟩ := Pool.mem_queue.1 hid
    obtain ⟨hline, howner⟩ := Pool.lineOf_eq_some_iff.1 hline
    rw [Pool.ownerOf_eq hline, howner]
  · exact (advances_any_pass d none _).keeps

/-- Emptying the unit erases the same lines in the same order on both sides. -/
theorem Agree.reclaimUnit (h : Agree u d e) (hd : d.Sound) (he : e.Sound)
    (hpolicy : d.collector.policy = .oldestFirst) :
    (e.reclaimUnit u).result = (d.reclaimUnit u).result ∧
      Agree u (d.reclaimUnit u).state (e.reclaimUnit u).state := by
  obtain ⟨hresult, hpool, hkeeps⟩ := pass_queue hd hpolicy u
  obtain ⟨hresult', hpool', hkeeps'⟩ := pass_queue he (h.policy.trans hpolicy) u
  rw [h.pool.queue] at hresult' hpool'
  have hqueued : ∀ id ∈ d.pool.queue u, (d.pool.lineOf u id).isSome := by
    intro id hid
    obtain ⟨l, hline, -⟩ := Pool.mem_queue.1 hid
    exact Option.isSome_iff_exists.2 ⟨l, hline⟩
  have herased := h.pool.erased hpool hpool' hkeeps hkeeps' hqueued
  have hpolicies : ∀ d : Device, (d.pass none fun c => c.line.isOwnedBy u).state.collector.policy =
      d.collector.policy := fun d => (advances_any_pass d none _).policy
  have hafter : Agree u (d.pass none fun c => c.line.isOwnedBy u).state.tick
      (e.pass none fun c => c.line.isOwnedBy u).state.tick :=
    ⟨herased, h.unit, h.blank, h.enabled, h.geometry,
      (hpolicies e).trans (h.policy.trans (hpolicies d).symm)⟩
  simp only [Device.reclaimUnit, collect_of_ok none hresult, collect_of_ok none hresult',
    Outcome.done]
  refine ⟨trivial, ?_⟩
  exact hafter.rearmOwners _ _ fun _ => Pool.owner_of_mem_map

/-! ### Commands to the unit -/

theorem Agree.reclaimWouldFit (h : Agree u d e) (bytes : Nat) :
    e.reclaimWouldFit u bytes = d.reclaimWouldFit u bytes := by
  have hfull : e.pool.fullCount u = d.pool.fullCount u := by
    rw [← Pool.length_queue, ← Pool.length_queue, h.pool.queue]
  unfold Device.reclaimWouldFit Configuration.reclaimablePages
  rw [hfull, h.pool.pagesPerLine, h.availablePages, h.geometry]

theorem Agree.tick (h : Agree u d e) : Agree u d.tick e.tick :=
  ⟨h.pool, h.unit, h.blank, h.enabled, h.geometry, h.policy⟩

theorem Agree.countForegroundPass (h : Agree u d e) :
    Agree u d.countForegroundPass e.countForegroundPass :=
  ⟨h.pool, h.unit, h.blank, h.enabled, h.geometry, h.policy⟩

theorem Agree.writePlaced (h : Agree u d e) (hd : d.Sound) (he : e.Sound) (henabled : d.enabled)
    (hpolicy : d.collector.policy = .oldestFirst)
    (hresolve : d.configuration.resolve placement = .ok u) :
    (e.writePlaced placement block bytes).outcome.result =
        (d.writePlaced placement block bytes).outcome.result ∧
      Agree u (d.writePlaced placement block bytes).outcome.state
        (e.writePlaced placement block bytes).outcome.state := by
  obtain ⟨hfirst, htried⟩ := h.tick.routeOnce block bytes hd.tick he.tick henabled hresolve
    d.clock.now e.clock.now
  by_cases hhopeful : ∃ v, (d.tick.routeOnce placement block bytes d.clock.now).result =
      .error (.unitExhausted v) ∧ d.tick.reclaimWouldFit v bytes
  · obtain ⟨v, hexhausted, hfit⟩ := hhopeful
    obtain ⟨htargets, hlong⟩ := targets_of_exhausted block d.clock.now hd.tick hexhausted
    obtain rfl : u = v := Except.ok.inj (hresolve.symm.trans htargets.2.2.2)
    have htargets' := (h.targets placement bytes u).2 htargets
    have hlong' : e.configuration.availablePages e.pool u < bytes / e.configuration.pageSize := by
      rw [h.availablePages, Configuration.pageSize_eq_of_blank h.blank]
      exact hlong
    have hfit' : e.tick.reclaimWouldFit u bytes := by
      rw [h.tick.reclaimWouldFit]
      exact hfit
    have hcounted := h.tick.countForegroundPass
    have hready := hd.tick.countForegroundPass
    have hready' := he.tick.countForegroundPass
    obtain ⟨hpass, hemptied⟩ := hcounted.reclaimUnit hready hready' hpolicy
    have hd' := advances_any_reclaimUnit hready u
    have he' := advances_any_reclaimUnit hready' u
    rw [writePlaced_of_hopeful (d := d) block htargets hlong hfit,
      writePlaced_of_hopeful (d := e) block htargets' hlong' hfit', hpass]
    cases (d.tick.countForegroundPass.reclaimUnit u).result with
    | error cause => exact ⟨rfl, hemptied⟩
    | ok count =>
      have hresolve' := Configuration.resolve_eq_of_blank hd'.blank placement
      exact hemptied.routeOnce block bytes (hd'.sound hready) (he'.sound hready')
        (hd'.enabled.trans henabled) (hresolve'.trans hresolve) d.clock.now e.clock.now
  · have hvain : ∀ v, (d.tick.routeOnce placement block bytes d.clock.now).result =
        .error (.unitExhausted v) → d.tick.reclaimWouldFit v bytes = false := by
      intro v hexhausted
      simpa using fun hfit => hhopeful ⟨v, hexhausted, hfit⟩
    have hvain' : ∀ v, (e.tick.routeOnce placement block bytes e.clock.now).result =
        .error (.unitExhausted v) → e.tick.reclaimWouldFit v bytes = false := by
      intro v hexhausted
      rw [hfirst] at hexhausted
      obtain ⟨htargets, -⟩ := targets_of_exhausted block d.clock.now hd.tick hexhausted
      obtain rfl : u = v := Except.ok.inj (hresolve.symm.trans htargets.2.2.2)
      rw [h.tick.reclaimWouldFit]
      exact hvain u hexhausted
    rw [writePlaced_once block hd hvain, writePlaced_once block he hvain']
    exact ⟨hfirst, htried⟩

/-- A write to the unit has the same result on both sides. -/
theorem Agree.write (h : Agree u d e) (hd : d.Sound) (he : e.Sound)
    (hpolicy : d.collector.policy = .oldestFirst) {w : WriteCommand} (hplaced : d.places w)
    (hresolve : d.configuration.resolve (d.placementOf w) = .ok u) :
    (e.write w).result = (d.write w).result ∧ Agree u (d.write w).state (e.write w).state := by
  have henabled : d.enabled := (Bool.and_eq_true_iff.1 hplaced).1
  have hplaced' : e.places w := by
    unfold places at *
    rwa [h.enabled]
  have hplacement : e.placementOf w = d.placementOf w :=
    Configuration.placementOf_eq_of_blank h.blank _
  have hattempt := attempt_of_places hplaced
  have hattempt' := attempt_of_places hplaced'
  rw [hplacement, h.geometry] at hattempt'
  obtain ⟨hresult, hagree⟩ := h.writePlaced w.block (w.bytes d.geometry.blockSize) hd he henabled
    hpolicy hresolve
  rw [← hattempt, ← hattempt'] at hresult hagree
  rw [result_write, result_write]
  refine ⟨hresult, ?_⟩
  have hcounted : ∀ {d : Device}, d.Sound →
      Agree u (d.attempt w).outcome.state (d.write w).state := by
    intro d hd
    have hsound := (advances_any_attempt hd w).sound hd
    exact (advances_write_of_attempt (W := fun _ => False) d w).agree not_false hsound
  exact (hcounted hd).symm.trans (hagree.trans (hcounted he))

end Device

end DataPlacement
