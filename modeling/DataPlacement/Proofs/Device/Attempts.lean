import DataPlacement.Proofs.Allocation.Collecting
import DataPlacement.Proofs.Allocation.Evolution
import DataPlacement.Proofs.Configuration.Routing
import DataPlacement.Proofs.Device.Soundness
import DataPlacement.Proofs.PlainPath

namespace DataPlacement

/-- The writes that a report tells of, line by line. -/
def WriteReport.events (r : WriteReport) : List LineEvent := r.lines.map (.wrote r.unit)

theorem WriteReport.erasuresOf_events (r : WriteReport) (id : LineId) :
    Allocation.erasuresOf id r.events = 0 :=
  List.count_eq_zero.2 (by simp [events])

/-- What a write command does to lines: the erasures that it makes room by, then its writes. -/
def Outcome.lineEvents {σ : Type} (o : Outcome σ WriteReport) : List LineEvent :=
  erasures o.notices ++
    match o.result with
    | .ok r => r.events
    | .error _ => []

theorem Outcome.lineEvents_done {σ : Type} {notices : List Notice} (hquiet : erasures notices = [])
    (r : WriteReport) (s : σ) : (Outcome.done r s notices).lineEvents = r.events := by
  simp only [lineEvents, done, hquiet, List.nil_append]

theorem Outcome.lineEvents_refused {σ : Type} (cause : Error) (s : σ) (notices : List Notice) :
    (Outcome.refused cause s notices : Outcome σ WriteReport).lineEvents = erasures notices :=
  List.append_nil _

theorem Outcome.lineEvents_after {σ : Type} (earlier : List Notice) (o : Outcome σ WriteReport) :
    (o.after earlier).lineEvents = erasures earlier ++ o.lineEvents := by
  simp only [lineEvents, after, erasures_append, List.append_assoc]

namespace Device

open Allocation

variable {W : Option UnitId → Prop} {d : Device} {placement : Placement} {bytes : Nat}
  (block now : Nat)

/-! ### At a unit -/

/-- The device after a write to a unit that had room for it. -/
def filled (d : Device) (u : UnitId) (unit : ReclaimUnit) (bytes now : Nat) : Device :=
  let f := d.configuration.writeFill d.pool bytes unit u
  d.setUnits ((d.configuration.updateUnit u (·.afterFill f now)).countWrite u bytes, f.pool)

theorem routeOnce_of_not_targets (h : ∀ u, ¬ d.configuration.Targets placement bytes u) :
    ∃ cause, d.routeOnce placement block bytes now = .refused cause d ∧
      ∀ u, cause ≠ .unitExhausted u := by
  obtain ⟨cause, hwrite, hcause⟩ :=
    d.configuration.write_of_not_targets d.pool placement block bytes now h
  exact ⟨cause, by rw [routeOnce, onUnits_eq_mapState, hwrite]; rfl, hcause⟩

theorem routeOnce_of_invalid (henabled : d.enabled)
    (h : bytes = 0 ∨ bytes % d.configuration.pageSize ≠ 0) :
    d.routeOnce placement block bytes now = .refused (.invalidLength bytes) d := by
  have hinvalid := Configuration.write_of_invalid d.pool placement block bytes now henabled h
  rw [routeOnce, onUnits_eq_mapState, hinvalid]
  rfl

theorem routeOnce_of_unresolved {cause : Error} (henabled : d.enabled) (hzero : bytes ≠ 0)
    (hwhole : bytes % d.configuration.pageSize = 0)
    (h : d.configuration.resolve placement = .error cause) :
    d.routeOnce placement block bytes now = .refused cause d := by
  rw [routeOnce, onUnits_eq_mapState,
    Configuration.write_of_unresolved d.pool block now henabled hzero hwhole h]
  rfl

theorem routeOnce_of_exhausted {u : UnitId} (h : d.configuration.Targets placement bytes u)
    (hlong : d.configuration.availablePages d.pool u < bytes / d.configuration.pageSize) :
    d.routeOnce placement block bytes now = .refused (.unitExhausted u) d
      [.exhausted u (bytes / d.configuration.pageSize)] := by
  rw [routeOnce, onUnits_eq_mapState,
    d.configuration.write_of_exhausted d.pool placement block bytes now h hlong]
  rfl

theorem routeOnce_of_fits (hd : d.Sound) {u : UnitId}
    (h : d.configuration.Targets placement bytes u)
    (hfits : bytes / d.configuration.pageSize ≤ d.configuration.availablePages d.pool u) :
    ∃ unit, d.configuration.unit? u = some unit ∧
      let f := d.configuration.writeFill d.pool bytes unit u
      d.routeOnce placement block bytes now =
        .done ⟨some u, block, pageCounter (bytes / d.configuration.pageSize), f.lines, f.retired⟩
          (d.filled u unit bytes now) (if f.ranDry then [.filled u] else []) := by
  obtain ⟨unit, hunit, hwrite⟩ := d.configuration.write_of_fits d.pool placement block bytes now h
    hfits fun unit hunit => hd.page_le hunit
  exact ⟨unit, hunit, by rw [routeOnce, onUnits_eq_mapState, hwrite]; rfl⟩

/-- Only a write that is too long for its unit finds the unit exhausted. -/
theorem targets_of_exhausted (hd : d.Sound) {u : UnitId}
    (h : (d.routeOnce placement block bytes now).result = .error (.unitExhausted u)) :
    d.configuration.Targets placement bytes u ∧
      d.configuration.availablePages d.pool u < bytes / d.configuration.pageSize := by
  by_cases htargets : ∃ v, d.configuration.Targets placement bytes v
  · obtain ⟨v, hv⟩ := htargets
    by_cases hfits : bytes / d.configuration.pageSize ≤ d.configuration.availablePages d.pool v
    · obtain ⟨unit, -, hroute⟩ := routeOnce_of_fits block now hd hv hfits
      rw [hroute] at h
      cases h
    · rw [routeOnce_of_exhausted block now hv (by omega)] at h
      obtain rfl : v = u := by simpa [Outcome.refused] using h
      exact ⟨hv, by omega⟩
  · obtain ⟨cause, hroute, hcause⟩ := routeOnce_of_not_targets block now (not_exists.1 htargets)
    rw [hroute] at h
    exact absurd (Except.error.inj h) (hcause u)

theorem allocation_filled {now : Nat} {u : UnitId} {unit : ReclaimUnit}
    (hunit : d.configuration.unit? u = some unit) :
    (d.filled u unit bytes now).allocation =
      let f := d.configuration.writeFill d.pool bytes unit u
      point ⟨f.pool, d.allocation.pointer⟩ (some u) f.pointer := by
  simp only [allocation, filled, setUnits, Configuration.pointers_countWrite,
    Configuration.pointers_updateUnit d.path hunit]
  rfl

theorem advances_filled (hd : d.Sound) (henabled : d.enabled) {u : UnitId} {unit : ReclaimUnit}
    (hu : W (some u)) (hunit : d.configuration.unit? u = some unit) :
    Advances W d ((d.configuration.writeFill d.pool bytes unit u).lines.map (.wrote (some u)))
      (d.filled u unit bytes now) := by
  have hpointer : d.allocation.pointer (some u) = unit.pointer :=
    Configuration.pointers_of_unit? d.path hunit
  have hsteps := steps_fill hu .atOnce (pageCounter (bytes / d.configuration.pageSize))
    hd.allocation
  rw [hpointer] at hsteps
  refine ⟨?_, rfl, rfl, ?_, rfl, fun hc => ?_, fun v hv => ?_⟩
  · rw [allocation_filled hunit]
    exact hsteps
  · rw [filled, setUnits, Configuration.blank_countWrite]
    exact d.configuration.blank_updateUnit u fun _ => rfl
  · exact Configuration.settled_countWrite
      (Configuration.settled_afterFill hc henabled hunit d.pool bytes now) u bytes
  · have huv : u ≠ v := fun heq => hv (heq ▸ hu)
    simp [filled, setUnits, Configuration.countWrite, Configuration.updateUnit,
      Configuration.unit?, Array.getElem?_modify, huv]

theorem advances_routeOnce (hd : d.Sound)
    (hW : ∀ u, d.configuration.Targets placement bytes u → W (some u)) :
    Advances W d (d.routeOnce placement block bytes now).lineEvents
      (d.routeOnce placement block bytes now).state := by
  by_cases htargets : ∃ u, d.configuration.Targets placement bytes u
  · obtain ⟨u, hu⟩ := htargets
    by_cases hfits : bytes / d.configuration.pageSize ≤ d.configuration.availablePages d.pool u
    · obtain ⟨unit, hunit, hroute⟩ := routeOnce_of_fits block now hd hu hfits
      rw [hroute, Outcome.lineEvents_done (erasures_ite rfl _)]
      exact advances_filled now hd hu.1 (hW u hu) hunit
    · rw [routeOnce_of_exhausted block now hu (by omega)]
      exact .refl d
  · rw [not_exists] at htargets
    obtain ⟨cause, hroute, -⟩ := routeOnce_of_not_targets block now htargets
    rw [hroute]
    exact .refl d

/-! ### At the plain path -/

/-- The device after a write to the plain path that had room for it. -/
def plainFilled (d : Device) (bytes : Nat) : Device :=
  let f := d.path.writeFill d.pool d.geometry.pageSize bytes
  d.setPath (⟨f.pointer, advance 64 d.path.hostBytes bytes, advance 64 d.path.writes 1⟩, f.pool)

theorem plainOnce_of_invalid (h : bytes = 0 ∨ bytes % d.geometry.pageSize ≠ 0) :
    d.plainOnce block bytes = .refused (.invalidLength bytes) d := by
  rw [plainOnce, onPath_eq_mapState, d.path.write_of_invalid d.pool _ block h]
  rfl

theorem plainOnce_of_exhausted (hzero : bytes ≠ 0) (hwhole : bytes % d.geometry.pageSize = 0)
    (hlong : d.path.availablePages d.pool < bytes / d.geometry.pageSize) :
    d.plainOnce block bytes = .refused .sharedExhausted d := by
  rw [plainOnce, onPath_eq_mapState, d.path.write_of_exhausted d.pool block hzero hwhole hlong]
  rfl

theorem plainOnce_of_fits (hd : d.Sound) (hzero : bytes ≠ 0)
    (hwhole : bytes % d.geometry.pageSize = 0)
    (hfits : bytes / d.geometry.pageSize ≤ d.path.availablePages d.pool) :
    let f := d.path.writeFill d.pool d.geometry.pageSize bytes
    d.plainOnce block bytes =
      .done ⟨none, block, pageCounter (bytes / d.geometry.pageSize), f.lines, f.retired⟩
        (d.plainFilled bytes) := by
  have hwrite := d.path.write_of_fits d.pool block hzero hwhole hfits (hd.allocation.page_le none)
  rw [plainOnce, onPath_eq_mapState, hwrite]
  rfl

/-- Only a write that is too long for the path finds the path exhausted. -/
theorem too_long_of_exhausted (hd : d.Sound)
    (h : (d.plainOnce block bytes).result = .error .sharedExhausted) :
    (bytes ≠ 0 ∧ bytes % d.geometry.pageSize = 0) ∧
      d.path.availablePages d.pool < bytes / d.geometry.pageSize := by
  by_cases hlength : bytes = 0 ∨ bytes % d.geometry.pageSize ≠ 0
  · rw [plainOnce_of_invalid block hlength] at h
    cases h
  · rw [not_or, not_not] at hlength
    refine ⟨hlength, Nat.lt_of_not_le fun hfits => ?_⟩
    rw [plainOnce_of_fits block hd hlength.1 hlength.2 hfits] at h
    cases h

theorem allocation_plainFilled :
    (d.plainFilled bytes).allocation =
      let f := d.path.writeFill d.pool d.geometry.pageSize bytes
      point ⟨f.pool, d.allocation.pointer⟩ none f.pointer := by
  rw [allocation, plainFilled, setPath, d.configuration.pointers_setPath d.path]
  rfl

theorem advances_plainFilled (hd : d.Sound) (hW : W none) :
    Advances W d ((d.path.writeFill d.pool d.geometry.pageSize bytes).lines.map (.wrote none))
      (d.plainFilled bytes) := by
  have hsteps := steps_fill hW .onDemand (pageCounter (bytes / d.geometry.pageSize)) hd.allocation
  refine ⟨?_, rfl, rfl, rfl, rfl, id, fun _ _ => rfl⟩
  rw [allocation_plainFilled]
  exact hsteps

theorem advances_plainOnce (hd : d.Sound) (hW : W none) :
    Advances W d (d.plainOnce block bytes).lineEvents (d.plainOnce block bytes).state := by
  by_cases hlength : bytes = 0 ∨ bytes % d.geometry.pageSize ≠ 0
  · rw [plainOnce_of_invalid block hlength]
    exact .refl d
  · rw [not_or, not_not] at hlength
    obtain ⟨hzero, hwhole⟩ := hlength
    by_cases hfits : bytes / d.geometry.pageSize ≤ d.path.availablePages d.pool
    · rw [plainOnce_of_fits block hd hzero hwhole hfits]
      exact advances_plainFilled hd hW
    · rw [plainOnce_of_exhausted block hzero hwhole (by omega)]
      exact .refl d

end Device

end DataPlacement
