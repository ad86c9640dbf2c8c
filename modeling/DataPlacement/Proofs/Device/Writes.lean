import DataPlacement.Proofs.Device.Collection

namespace DataPlacement

namespace Device

variable {W : Option UnitId → Prop} {d d' : Device} {es : List LineEvent}
  {placement : Placement} {bytes : Nat} (block : Nat)

/-! ### Placed writes -/

/-- A placed write is tried once unless its unit is exhausted and emptying it would help. -/
theorem writePlaced_once (hd : d.Sound)
    (h : ∀ u, (d.tick.routeOnce placement block bytes d.clock.now).result =
      .error (.unitExhausted u) → d.tick.reclaimWouldFit u bytes = false) :
    d.writePlaced placement block bytes =
      ⟨d.tick.routeOnce placement block bytes d.clock.now, true⟩ := by
  unfold writePlaced
  dsimp only
  split
  · next u hresult =>
    obtain ⟨hu, hlong⟩ := targets_of_exhausted block d.clock.now hd.tick hresult
    have hroute := routeOnce_of_exhausted block d.clock.now hu hlong
    rw [hroute, Outcome.refused, if_neg (by simp [h u hresult])]
  · rfl

/-- A placed write that would fit into an emptied unit empties it and tries again. -/
theorem writePlaced_of_hopeful {u : UnitId} (h : d.configuration.Targets placement bytes u)
    (hlong : d.configuration.availablePages d.pool u < bytes / d.configuration.pageSize)
    (hfit : d.tick.reclaimWouldFit u bytes) :
    let pass := d.tick.countForegroundPass.reclaimUnit u
    let earlier := .exhausted u (bytes / d.configuration.pageSize) :: pass.notices
    d.writePlaced placement block bytes =
      match pass.result with
      | .error cause => ⟨.refused cause pass.state earlier, false⟩
      | .ok _ =>
        ⟨(pass.state.routeOnce placement block bytes d.clock.now).after earlier, true⟩ := by
  have hroute := routeOnce_of_exhausted (d := d.tick) block d.clock.now h hlong
  unfold writePlaced
  simp [hroute, Outcome.refused, hfit]
  rfl

/-- A placed write is tried once, or its unit is exhausted and emptying it helps. -/
theorem writePlaced_cases (hd : d.Sound) (placement : Placement) (bytes : Nat) :
    d.writePlaced placement block bytes =
        ⟨d.tick.routeOnce placement block bytes d.clock.now, true⟩ ∨
      ∃ u, d.configuration.Targets placement bytes u ∧
        d.configuration.availablePages d.pool u < bytes / d.configuration.pageSize ∧
        d.tick.reclaimWouldFit u bytes := by
  by_cases hhopeful : ∃ u, (d.tick.routeOnce placement block bytes d.clock.now).result =
      .error (.unitExhausted u) ∧ d.tick.reclaimWouldFit u bytes
  · obtain ⟨u, hresult, hfit⟩ := hhopeful
    obtain ⟨hu, hlong⟩ := targets_of_exhausted block d.clock.now hd.tick hresult
    exact .inr ⟨u, hu, hlong, hfit⟩
  · refine .inl (writePlaced_once block hd fun u hresult => ?_)
    rw [Bool.eq_false_iff]
    intro hfit
    exact hhopeful ⟨u, hresult, hfit⟩

theorem advances_reclaimUnit (hd : d.Sound) {u : UnitId}
    (hW : d.collector.Confined (fun c => c.line.isOwnedBy u) W) :
    Advances W d (erasures (d.reclaimUnit u).notices) (d.reclaimUnit u).state :=
  advances_collect none hd hW

theorem advances_any_reclaimUnit (hd : d.Sound) (u : UnitId) :
    Advances (fun _ => True) d (erasures (d.reclaimUnit u).notices) (d.reclaimUnit u).state :=
  advances_reclaimUnit hd fun _ _ _ _ => trivial

theorem Advances.countForegroundPass (d : Device) : Advances W d [] d.countForegroundPass :=
  .recount d _ d.tracing d.clock

theorem Sound.countForegroundPass (hd : d.Sound) : d.countForegroundPass.Sound :=
  (Advances.countForegroundPass (W := fun _ => True) d).sound hd

theorem advances_writePlaced (hd : d.Sound)
    (hW : ∀ u, d.configuration.Targets placement bytes u →
      W (some u) ∧ d.collector.Confined (fun c => c.line.isOwnedBy u) W) :
    Advances W d (d.writePlaced placement block bytes).outcome.lineEvents
      (d.writePlaced placement block bytes).outcome.state := by
  have hticked := Advances.tick (W := W) d
  obtain honce | ⟨u, hu, hlong, hfit⟩ := writePlaced_cases block hd placement bytes
  · have hroute := advances_routeOnce block d.clock.now hd.tick fun u hu => (hW u hu).1
    rw [honce]
    simpa using hticked.trans hroute
  · obtain ⟨hwriter, hconfined⟩ := hW u hu
    have hcounted := hticked.trans (.countForegroundPass d.tick)
    have hpass := advances_reclaimUnit (hcounted.sound hd) hconfined
    have hemptied := hcounted.trans hpass
    have hroute := advances_routeOnce block d.clock.now (hemptied.sound hd) fun v hv =>
      (hW v ((Configuration.targets_of_blank hemptied.blank hemptied.enabled _ _ v).1 hv)).1
    rw [writePlaced_of_hopeful (d := d) block hu hlong hfit]
    split
    · rw [Outcome.lineEvents_refused, erasures_cons rfl]
      exact hemptied
    · rw [Outcome.lineEvents_after, erasures_cons rfl]
      exact hemptied.trans hroute

/-! ### Plain writes -/

/-- The lines that the plain path erases for room: those without an owner. -/
def unowned (candidate : Candidate) : Bool := candidate.line.owner.isNone

theorem unowned_iff (candidate : Candidate) : unowned candidate ↔ candidate.line.owner = none :=
  Option.isNone_iff_eq_none

/-- A plain write is tried once unless the plain path is exhausted. -/
theorem writePlain_once (h : (d.plainOnce block bytes).result ≠ .error .sharedExhausted) :
    d.writePlain block bytes = ⟨d.plainOnce block bytes, true⟩ := by
  unfold writePlain
  dsimp only
  split
  · next hresult => exact absurd hresult h
  · rfl

/-- A plain write that finds no room erases the full lines without an owner and tries again. -/
theorem writePlain_of_exhausted (hzero : bytes ≠ 0) (hwhole : bytes % d.geometry.pageSize = 0)
    (hlong : d.path.availablePages d.pool < bytes / d.geometry.pageSize) :
    let pass := d.countForegroundPass.pass none unowned
    d.writePlain block bytes =
      match pass.result with
      | .error cause => ⟨.refused cause pass.state pass.notices, false⟩
      | .ok _ => ⟨(pass.state.plainOnce block bytes).after pass.notices, true⟩ := by
  have honce := plainOnce_of_exhausted block hzero hwhole hlong
  unfold writePlain
  simp only [honce, Outcome.refused, List.nil_append]
  rfl

/-- A plain write is tried once, or it is too long for the plain path. -/
theorem writePlain_cases (hd : d.Sound) (bytes : Nat) :
    d.writePlain block bytes = ⟨d.plainOnce block bytes, true⟩ ∨
      (bytes ≠ 0 ∧ bytes % d.geometry.pageSize = 0) ∧
        d.path.availablePages d.pool < bytes / d.geometry.pageSize := by
  by_cases hexhausted : (d.plainOnce block bytes).result = .error .sharedExhausted
  · exact .inr (too_long_of_exhausted block hd hexhausted)
  · exact .inl (writePlain_once block hexhausted)

theorem advances_writePlain (hd : d.Sound) (hW : W none)
    (hconfined : d.collector.Confined unowned W) :
    Advances W d (d.writePlain block bytes).outcome.lineEvents
      (d.writePlain block bytes).outcome.state := by
  obtain honce | ⟨⟨hzero, hwhole⟩, hlong⟩ := writePlain_cases block hd bytes
  · rw [honce]
    exact advances_plainOnce block hd hW
  · have hcounted := Advances.countForegroundPass (W := W) d
    have hemptied := hcounted.trans (advances_pass none hconfined)
    rw [writePlain_of_exhausted block hzero hwhole hlong]
    split
    · rw [Outcome.lineEvents_refused]
      exact hemptied
    · rw [Outcome.lineEvents_after]
      exact hemptied.trans (advances_plainOnce block (hemptied.sound hd) hW)

/-! ### The command -/

variable {o : Outcome Device WriteReport}

theorem result_account : (account o block bytes).result = o.result := by
  unfold account
  dsimp only
  split <;> simp_all

/-- Accounting changes nothing but counts. -/
theorem advances_account : Advances W o.state [] (account o block bytes).state := by
  unfold account
  dsimp only
  split <;> exact .recount _ _ _ _

theorem lineEvents_account : (account o block bytes).lineEvents = o.lineEvents := by
  have hquiet : ∀ n : Notice, n.erasedLine? = none →
      erasures (if o.state.tracing then [n] else []) = [] :=
    fun n hn => erasures_ite hn o.state.tracing
  unfold account Outcome.lineEvents
  dsimp only
  split
  · next report hresult =>
    simp only [erasures_append, hquiet (.written block bytes report.unit report.lines) rfl,
      List.append_nil, hresult]
  · next cause hresult =>
    simp only [erasures_append, hquiet (.writeRefused block cause) rfl, List.append_nil, hresult]

/-- Whether the device sends a write to a unit, which is for writes with a placement while
placement is on. -/
def places (d : Device) (w : WriteCommand) : Bool := d.enabled && w.hasPlacement

/-- The placement of a write, as the device reads it. -/
def placementOf (d : Device) (w : WriteCommand) : Placement :=
  d.configuration.placementOf w.identifier

/-- The attempt that a write command makes. -/
def attempt (d : Device) (w : WriteCommand) : Attempt :=
  if d.places w then d.writePlaced (d.placementOf w) w.block (w.bytes d.geometry.blockSize)
  else d.writePlain w.block (w.bytes d.geometry.blockSize)

theorem attempt_of_places {w : WriteCommand} (h : d.places w) :
    d.attempt w = d.writePlaced (d.placementOf w) w.block (w.bytes d.geometry.blockSize) :=
  if_pos h

theorem attempt_of_not_places {w : WriteCommand} (h : d.places w = false) :
    d.attempt w = d.writePlain w.block (w.bytes d.geometry.blockSize) :=
  if_neg (ne_true_of_eq_false h)

theorem write_eq (d : Device) (w : WriteCommand) :
    d.write w =
      if (d.attempt w).settled then
        account (d.attempt w).outcome w.block (w.bytes d.geometry.blockSize)
      else (d.attempt w).outcome := rfl

theorem result_write (d : Device) (w : WriteCommand) :
    (d.write w).result = (d.attempt w).outcome.result := by
  rw [write_eq]
  split
  · exact result_account _
  · rfl

theorem lineEvents_write (d : Device) (w : WriteCommand) :
    (d.write w).lineEvents = (d.attempt w).outcome.lineEvents := by
  rw [write_eq]
  split
  · exact lineEvents_account _
  · rfl

/-- Nothing but counts tells the device after a write from that after its attempt. -/
theorem advances_write_of_attempt (d : Device) (w : WriteCommand) :
    Advances W (d.attempt w).outcome.state [] (d.write w).state := by
  rw [write_eq]
  split
  · exact advances_account _
  · exact .refl _

theorem advances_attempt (hd : d.Sound) {w : WriteCommand}
    (hplaced : d.places w → ∀ u,
      d.configuration.Targets (d.placementOf w) (w.bytes d.geometry.blockSize) u →
        W (some u) ∧ d.collector.Confined (fun c => c.line.isOwnedBy u) W)
    (hplain : d.places w = false → W none ∧ d.collector.Confined unowned W) :
    Advances W d (d.attempt w).outcome.lineEvents (d.attempt w).outcome.state := by
  unfold attempt
  split
  · next hcase => exact advances_writePlaced w.block hd (hplaced hcase)
  · next hcase =>
    obtain ⟨hnone, hconfined⟩ := hplain (by simpa using hcase)
    exact advances_writePlain w.block hd hnone hconfined

theorem advances_any_attempt (hd : d.Sound) (w : WriteCommand) :
    Advances (fun _ => True) d (d.attempt w).outcome.lineEvents (d.attempt w).outcome.state :=
  advances_attempt hd (fun _ _ _ => ⟨trivial, fun _ _ _ _ => trivial⟩)
    fun _ => ⟨trivial, fun _ _ _ _ => trivial⟩

theorem advances_write (hd : d.Sound) {w : WriteCommand}
    (hplaced : d.places w → ∀ u,
      d.configuration.Targets (d.placementOf w) (w.bytes d.geometry.blockSize) u →
        W (some u) ∧ d.collector.Confined (fun c => c.line.isOwnedBy u) W)
    (hplain : d.places w = false → W none ∧ d.collector.Confined unowned W) :
    Advances W d (d.write w).lineEvents (d.write w).state := by
  rw [lineEvents_write]
  simpa using (advances_attempt hd hplaced hplain).trans (advances_write_of_attempt d w)

theorem advances_any_write (hd : d.Sound) (w : WriteCommand) :
    Advances (fun _ => True) d (d.write w).lineEvents (d.write w).state := by
  rw [lineEvents_write]
  simpa using (advances_any_attempt hd w).trans (advances_write_of_attempt d w)

end Device

end DataPlacement
