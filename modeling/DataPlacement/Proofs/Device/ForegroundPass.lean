import DataPlacement.Proofs.Device.Budgets
import DataPlacement.Proofs.Device.Courses

namespace DataPlacement

namespace Configuration

variable {c c' : Configuration} {p : Pool} {s t : Configuration × Pool} {u : UnitId}

/-! ### Without the stamp of a unit -/

/-- The configuration without the time at which the unit was opened. -/
def withoutStamp (c : Configuration) (u : UnitId) : Configuration := c.updateUnit u (·.unstamped)

theorem withoutStamp_updateUnit (c : Configuration) (u : UnitId)
    {f g : ReclaimUnit → ReclaimUnit} (hfg : ∀ unit, (f unit).unstamped = g unit.unstamped) :
    (c.updateUnit u f).withoutStamp u = (c.withoutStamp u).updateUnit u g := by
  simp only [withoutStamp, updateUnit_updateUnit, hfg]

/-- The same units over the same pool, but for the time at which one unit was opened. -/
structure AlikeBut (u : UnitId) (s t : Configuration × Pool) : Prop where
  units : t.1.withoutStamp u = s.1.withoutStamp u
  pool : t.2 = s.2

theorem AlikeBut.refl (u : UnitId) (s : Configuration × Pool) : AlikeBut u s s := ⟨rfl, rfl⟩

namespace AlikeBut

theorem unit (h : AlikeBut u s t) :
    (t.1.unit? u).map (·.unstamped) = (s.1.unit? u).map (·.unstamped) := by
  have hunit := congrArg (·.unit? u) h.units
  simpa only [withoutStamp, unit?_updateUnit, if_true] using hunit

theorem exists_unit (h : AlikeBut u s t) {unit : ReclaimUnit} (hunit : s.1.unit? u = some unit) :
    ∃ unit', t.1.unit? u = some unit' ∧ unit'.unstamped = unit.unstamped := by
  have hsame := h.unit
  rw [hunit, Option.map_some] at hsame
  exact Option.map_eq_some_iff.1 hsame

theorem unit_eq_none (h : AlikeBut u s t) (hunit : s.1.unit? u = none) : t.1.unit? u = none := by
  have hsame := h.unit
  rwa [hunit, Option.map_none, Option.map_eq_none_iff] at hsame

/-- The same change of the unit, whatever the times on both sides. -/
theorem updateUnit (h : AlikeBut u s t) {q : Pool} {f f' g : ReclaimUnit → ReclaimUnit}
    (hf : ∀ unit, (f unit).unstamped = g unit.unstamped)
    (hf' : ∀ unit, (f' unit).unstamped = g unit.unstamped) :
    AlikeBut u (s.1.updateUnit u f, q) (t.1.updateUnit u f', q) := by
  refine ⟨?_, rfl⟩
  rw [withoutStamp_updateUnit t.1 u hf', withoutStamp_updateUnit s.1 u hf, h.units]

/-- The unit opens on the same line, whenever it does. -/
theorem reopen (h : AlikeBut u s t) (now now' : Nat) :
    AlikeBut u (reopen now s (some u)) (reopen now' t (some u)) := by
  obtain ⟨c, p⟩ := s
  obtain ⟨c', p'⟩ := t
  obtain rfl : p' = p := h.pool
  simp only [Configuration.reopen, rearm]
  cases hunit : c.unit? u with
  | none =>
    simp only [h.unit_eq_none hunit]
    exact h
  | some unit =>
    obtain ⟨unit', hunit', hsame⟩ := h.exists_unit hunit
    simp only [hunit', ReclaimUnit.state_eq_of_unstamped hsame]
    by_cases hfull : unit.state = .full
    · rw [if_neg (not_not.2 hfull), if_neg (not_not.2 hfull)]
      cases p'.take (some u) with
      | mk found q =>
        cases found with
        | none => exact ⟨h.units, rfl⟩
        | some line =>
          exact h.updateUnit (g := fun unit => (unit.openOn line 0).unstamped) (fun _ => rfl)
            fun _ => rfl
    · rw [if_pos hfull, if_pos hfull]
      exact h

theorem foldl_reopen (h : AlikeBut u s t) (now now' : Nat) {rs : List Reclaimed}
    (howner : ∀ r ∈ rs, r.owner = some u) :
    AlikeBut u (rs.foldl (fun s r => Configuration.reopen now s r.owner) s)
      (rs.foldl (fun s r => Configuration.reopen now' s r.owner) t) := by
  induction rs generalizing s t with
  | nil => exact h
  | cons r rs ih =>
    obtain ⟨hr, hrest⟩ := List.forall_mem_cons.1 howner
    simp only [List.foldl_cons, hr]
    exact ih (h.reopen now now') hrest

end AlikeBut

/-! ### Writes to the unit -/

theorem withoutStamp_countWrite (c : Configuration) (u : UnitId) (bytes : Nat) :
    (c.countWrite u bytes).withoutStamp u = (c.withoutStamp u).countWrite u bytes := by
  have hcounted : (c.updateUnit u (·.countWrite bytes)).withoutStamp u =
      (c.withoutStamp u).updateUnit u (·.countWrite bytes) :=
    c.withoutStamp_updateUnit u fun _ => rfl
  have hunits := congrArg Configuration.units hcounted
  simp only [withoutStamp, updateUnit, countWrite] at hunits ⊢
  rw [hunits]
  rfl

theorem AlikeBut.availablePages (h : AlikeBut u s t) :
    t.1.availablePages t.2 u = s.1.availablePages s.2 u := by
  unfold Configuration.availablePages
  cases hunit : s.1.unit? u with
  | none => rw [h.unit_eq_none hunit]
  | some unit =>
    obtain ⟨unit', hunit', hsame⟩ := h.exists_unit hunit
    rw [hunit', h.pool]
    simp only [ReclaimUnit.pointer_eq_of_unstamped hsame]

theorem AlikeBut.writeUnit (h : AlikeBut u s t) (w : WritePointer) (block bytes now now' : Nat) :
    (t.1.writeUnit t.2 u w block bytes now').result =
        (s.1.writeUnit s.2 u w block bytes now).result ∧
      AlikeBut u (s.1.writeUnit s.2 u w block bytes now).state
        (t.1.writeUnit t.2 u w block bytes now').state := by
  have hpageSize : t.1.pageSize = s.1.pageSize := by
    have hsize := congrArg Configuration.pageSize h.units
    exact hsize
  unfold Configuration.writeUnit
  rw [h.pool, hpageSize]
  dsimp only
  generalize s.2.fill (some u) .atOnce w (pageCounter (bytes / s.1.pageSize)) = f
  have hfilled : AlikeBut u (s.1.updateUnit u (·.afterFill f now), f.pool)
      (t.1.updateUnit u (·.afterFill f now'), f.pool) :=
    h.updateUnit (g := fun unit => (unit.afterFill f 0).unstamped) (fun _ => rfl) fun _ => rfl
  split
  · exact ⟨rfl, hfilled⟩
  · refine ⟨rfl, ?_, rfl⟩
    simp only [Outcome.done, withoutStamp_countWrite]
    rw [hfilled.units]

/-- A write to the unit ends in the same way on both sides. -/
theorem AlikeBut.write (h : AlikeBut u s t) {placement : Placement}
    (hresolve : s.1.resolve placement = .ok u) (block bytes now now' : Nat) :
    (t.1.write t.2 placement block bytes now').result =
        (s.1.write s.2 placement block bytes now).result ∧
      AlikeBut u (s.1.write s.2 placement block bytes now).state
        (t.1.write t.2 placement block bytes now').state := by
  have henabled : t.1.enabled = s.1.enabled := by
    have hon := congrArg Configuration.enabled h.units
    exact hon
  have hpageSize : t.1.pageSize = s.1.pageSize := by
    have hsize := congrArg Configuration.pageSize h.units
    exact hsize
  have hresolve' : t.1.resolve placement = .ok u := by
    have hsame := congrArg (fun c => c.resolve placement) h.units
    exact Eq.trans hsame hresolve
  unfold Configuration.write
  rw [henabled, hpageSize, hresolve, hresolve']
  dsimp only
  rw [h.availablePages]
  split
  · exact ⟨rfl, h⟩
  · split
    · exact ⟨rfl, h⟩
    · split
      · exact ⟨rfl, h⟩
      · cases hunit : s.1.unit? u with
        | none =>
          rw [h.unit_eq_none hunit]
          exact ⟨rfl, h⟩
        | some unit =>
          obtain ⟨unit', hunit', hsame⟩ := h.exists_unit hunit
          rw [hunit']
          dsimp only
          rw [ReclaimUnit.pointer_eq_of_unstamped hsame]
          exact h.writeUnit unit.pointer block bytes now now'

end Configuration

namespace Device

open DataPlacement.Configuration (AlikeBut)

variable {d e : Device} {u : UnitId} {w : WriteCommand} {s t : Configuration × Pool}
  {μ : Type} [Host.Memory μ]

/-- The device without the time at which the unit was opened. -/
def withoutStamp (d : Device) (u : UnitId) : Device :=
  { d with configuration := d.configuration.withoutStamp u }

theorem alikeBut_of_eq (h : e.withoutStamp u = d.withoutStamp u) :
    AlikeBut u (d.configuration, d.pool) (e.configuration, e.pool) := by
  have hunits := congrArg Device.configuration h
  have hpool := congrArg Device.pool h
  exact ⟨hunits, hpool⟩

theorem withoutStamp_setUnits (h : e.withoutStamp u = d.withoutStamp u) (hst : AlikeBut u s t) :
    (e.setUnits t).withoutStamp u = (d.setUnits s).withoutStamp u := by
  have hset := congrArg (·.setUnits (s.1.withoutStamp u, s.2)) h
  simp only [withoutStamp, setUnits, hst.units, hst.pool] at hset ⊢
  exact hset

theorem routeOnce_of_eq (h : e.withoutStamp u = d.withoutStamp u) {placement : Placement}
    (hresolve : d.configuration.resolve placement = .ok u) (block bytes now now' : Nat) :
    (e.routeOnce placement block bytes now').result =
        (d.routeOnce placement block bytes now).result ∧
      (e.routeOnce placement block bytes now').state.withoutStamp u =
        (d.routeOnce placement block bytes now).state.withoutStamp u := by
  obtain ⟨hresult, halike⟩ := (alikeBut_of_eq h).write hresolve block bytes now now'
  exact ⟨hresult, withoutStamp_setUnits h halike⟩

/-- The pass that a write starts is the one that can be asked for, one reading of the clock later.
-/
theorem emptying_eq (hd : d.Sound) (hc : d.collector.policy.Reorders) (u : UnitId) :
    (d.emptying u).state.withoutStamp u =
      (d.reclaimUnit u).state.tick.countForegroundPass.withoutStamp u := by
  obtain ⟨hresult, -, -⟩ := pass_owner hd hc fun candidate => Line.isOwnedBy_iff candidate.line u
  have hresult' : (d.tick.countForegroundPass.pass none fun c => c.line.isOwnedBy u).result = _ :=
    hresult
  have howner : ∀ r ∈ (d.collector.victims d.pool none fun c => c.line.isOwnedBy u).map
      fun id => (⟨id, some u⟩ : Reclaimed), r.owner = some u := fun _ => Pool.owner_of_mem_map
  simp only [emptying, reclaimUnit, collect_of_ok none hresult, collect_of_ok none hresult',
    Outcome.done, rearmOwners_eq]
  have halike := (AlikeBut.refl u (d.configuration,
    (d.pass none fun c => c.line.isOwnedBy u).state.pool)).foldl_reopen d.clock.now d.clock.next.now
      howner
  exact withoutStamp_setUnits
    (d := (d.pass none fun c => c.line.isOwnedBy u).state.tick.tick.countForegroundPass) rfl halike

/-! ### Which writes are accepted -/

/-- To open a full unit does not move its pointer into a line. -/
theorem page_rearm (hd : d.Sound) (u : UnitId) (now : Nat) :
    ((d.onUnits fun c p => c.rearm p u now).state.configuration.unit? u).map (·.pointer.page) =
      (d.configuration.unit? u).map (·.pointer.page) := by
  rw [onUnits_eq_mapState]
  obtain hsame | ⟨unit, id, rest, hunit, hfull, hfree, hrearm⟩ :=
    d.configuration.rearm_cases d.pool now u
  · rw [hsame]
    rfl
  · have hclosed := hd.pointer_of_full hunit hfull
    simp only [hrearm, Outcome.mapState, Outcome.done, setUnits, Configuration.unit?_updateUnit,
      if_true, hunit, Option.map_some, hclosed]
    rfl

theorem page_rearmOwners (hd : d.Sound) (now : Nat) {erased : List Reclaimed}
    (howner : ∀ r ∈ erased, r.owner = some u) :
    ((rearmOwners now erased d).1.configuration.unit? u).map (·.pointer.page) =
      (d.configuration.unit? u).map (·.pointer.page) := by
  induction erased generalizing d with
  | nil => rfl
  | cons r rest ih =>
    obtain ⟨hr, hrest⟩ := List.forall_mem_cons.1 howner
    have hsound := (advances_rearm (W := fun _ => True) hd (u := u) trivial now).1.sound hd
    simp only [rearmOwners, hr]
    rw [ih hsound hrest]
    exact page_rearm hd u now

theorem page_reclaimUnit (hd : d.Sound) (hc : d.collector.policy.Reorders) (u : UnitId) :
    ((d.reclaimUnit u).state.configuration.unit? u).map (·.pointer.page) =
      (d.configuration.unit? u).map (·.pointer.page) := by
  obtain ⟨hresult, -, -⟩ := pass_owner hd hc fun candidate => Line.isOwnedBy_iff candidate.line u
  have hpassed := (advances_any_pass d none fun c => c.line.isOwnedBy u).sound hd
  have howner : ∀ r ∈ (d.collector.victims d.pool none fun c => c.line.isOwnedBy u).map
      fun id => (⟨id, some u⟩ : Reclaimed), r.owner = some u := fun _ => Pool.owner_of_mem_map
  simp only [reclaimUnit, collect_of_ok none hresult, Outcome.done]
  exact page_rearmOwners hpassed.tick _ howner

/-- A write to the unit is accepted if it fits into the lines of the unit behind its pointer. -/
theorem accepts_iff_of_leads (hd : d.Sound) (hc : d.collector.policy.Reorders)
    (hplaced : d.places w) (hleads : d.LeadsTo w u) :
    d.Accepts w ↔ d.IsWhole w ∧
      ∃ page, (d.configuration.unit? u).map (·.pointer.page) = some page ∧
        d.pagesOf w ≤ d.geometry.pagesPerLine * (d.pool.owned (some u)).card - page := by
  rw [accepts_placed_iff hd hc hplaced]
  refine and_congr_right fun _ => ⟨?_, ?_⟩
  · rintro ⟨v, unit, hv, hunit, hfits⟩
    obtain rfl : u = v := Except.ok.inj (hleads.symm.trans hv)
    exact ⟨unit.pointer.page, by rw [hunit]; rfl, hfits⟩
  · rintro ⟨page, hpage, hfits⟩
    obtain ⟨unit, hunit, rfl⟩ := Option.map_eq_some_iff.1 hpage
    exact ⟨u, unit, hleads, hunit, hfits⟩

/-- After its unit was emptied by request, a write still leads to it. -/
theorem leads_reclaimUnit (hd : d.Sound) (hplaced : d.places w) (hleads : d.LeadsTo w u) :
    (d.reclaimUnit u).state.places w ∧ (d.reclaimUnit u).state.LeadsTo w u := by
  have hadvances := advances_any_reclaimUnit hd u
  unfold LeadsTo placementOf places at *
  rw [hadvances.enabled, Configuration.placementOf_eq_of_blank hadvances.blank,
    Configuration.resolve_eq_of_blank hadvances.blank]
  exact ⟨hplaced, hleads⟩

/-- To empty the unit before a write to it does not change whether the write is accepted. -/
theorem accepts_reclaimUnit_iff (hd : d.Sound) (hc : d.collector.policy.Reorders)
    (hplaced : d.places w) (hleads : d.LeadsTo w u) :
    (d.reclaimUnit u).state.Accepts w ↔ d.Accepts w := by
  have hadvances := advances_any_reclaimUnit hd u
  obtain ⟨hplaced', hleads'⟩ := leads_reclaimUnit hd hplaced hleads
  rw [accepts_iff_of_leads hd hc hplaced hleads,
    accepts_iff_of_leads (hadvances.sound hd) (hadvances.policy ▸ hc) hplaced' hleads',
    page_reclaimUnit hd hc u, hadvances.keeps.owned]
  simp only [IsWhole, pagesOf, hadvances.geometry]

/-! ### The write and its pass -/

/-- A placed write that counts a pass empties the unit that it leads to. -/
theorem empties_of_counted (hd : d.Sound) (hplaced : d.places w) (hleads : d.LeadsTo w u)
    (hcounted :
      (d.write w).state.accounting.foregroundPasses ≠ d.accounting.foregroundPasses) :
    d.Empties w u := by
  have hattempt : (d.attempt w).outcome.state.accounting.foregroundPasses ≠
      d.accounting.foregroundPasses := by
    rwa [(write_views d w).1] at hcounted
  have hcourse := course_attempt hd w
  generalize d.attempt w = a at hattempt hcourse
  cases hcourse with
  | placed => exact absurd rfl hattempt
  | @emptied v count h | @stuck v cause h =>
    obtain rfl : u = v := Except.ok.inj (hleads.symm.trans h.leads)
    exact h
  | plain hplain => simp [hplaced] at hplain
  | swept h | unswept h =>
    have hplain := h.plain
    simp [hplaced] at hplain

/-- A write for which its unit has room is tried once. -/
theorem attempt_of_room (hd : d.Sound) (hplaced : d.places w) (hleads : d.LeadsTo w u)
    (hroom : d.pagesOf w ≤ d.configuration.availablePages d.pool u) :
    d.attempt w = ⟨d.routed d.tick w, true⟩ := by
  have hidle : ∀ v, ¬ d.Empties w v := by
    intro v h
    obtain rfl : u = v := Except.ok.inj (hleads.symm.trans h.leads)
    exact absurd hroom (Nat.not_le.2 h.long)
  have hcourse := course_attempt hd w
  generalize d.attempt w = a at hcourse
  cases hcourse with
  | placed => rfl
  | emptied h | stuck h => exact absurd h (hidle _)
  | plain hplain => simp [hplaced] at hplain
  | swept h | unswept h =>
    have hplain := h.plain
    simp [hplaced] at hplain

/-- Accepted writes are entered in the same way on both sides. -/
theorem account_of_eq {o o' : Outcome Device WriteReport} {r : WriteReport}
    (hresult : o.result = .ok r) (hresult' : o'.result = .ok r)
    (hstate : o.state.withoutStamp u = o'.state.countForegroundPass.withoutStamp u)
    (block bytes : Nat) :
    (account o block bytes).state.withoutStamp u =
      (account o' block bytes).state.countForegroundPass.withoutStamp u := by
  have haccounting : o.state.accounting = o'.state.countForegroundPass.accounting := by
    have haccounting := congrArg Device.accounting hstate
    exact haccounting
  have hentered := congrArg (fun d : Device => { d with accounting :=
    { o.state.accounting with
      writes := o.state.accounting.writes + 1
      bytes := advance 64 o.state.accounting.bytes bytes } }) hstate
  simp only [account, hresult, hresult']
  rw [haccounting] at hentered ⊢
  exact hentered

/-- A write that empties its unit is tried again on the emptied unit. -/
theorem attempt_of_empties (hd : d.Sound) (hc : d.collector.policy.Reorders) (h : d.Empties w u) :
    ∃ earlier, d.attempt w = ⟨(d.routed (d.emptying u).state w).after earlier, true⟩ := by
  have hpass : (d.emptying u).result = _ :=
    (reclaimUnit_of_reorders hd.tick.countForegroundPass hc u).1
  have hcourse := course_attempt hd w
  generalize d.attempt w = a at hcourse
  cases hcourse with
  | placed hplaces hidle => exact absurd h (hidle u)
  | emptied h' hdone earlier =>
    obtain rfl := h.unique h'
    exact ⟨earlier, rfl⟩
  | stuck h' hstuck =>
    obtain rfl := h.unique h'
    rw [hpass] at hstuck
    cases hstuck
  | plain hplain => simp [h.places] at hplain
  | swept hsweeps | unswept hsweeps => exact absurd hsweeps h.not_sweeps

theorem write_of_empties (hd : d.Sound) (hc : d.collector.policy.Reorders) (h : d.Empties w u) :
    let requested := (d.reclaimUnit u).state
    (∃ r, (d.write w).result = .ok r ∧ (requested.write w).result = .ok r) ∧
      (d.write w).state.withoutStamp u =
        (requested.write w).state.countForegroundPass.withoutStamp u := by
  intro requested
  have hadvances : Advances (fun _ => True) d _ requested := advances_any_reclaimUnit hd u
  have hrequested : requested.Sound := hadvances.sound hd
  obtain ⟨hplaced, hleads⟩ : requested.places w ∧ requested.LeadsTo w u :=
    leads_reclaimUnit hd h.places h.leads
  have hplacement : requested.placementOf w = d.placementOf w :=
    Configuration.placementOf_eq_of_blank hadvances.blank w.identifier
  have hroom : requested.pagesOf w ≤ requested.configuration.availablePages requested.pool u := by
    have hgained : requested.configuration.availablePages requested.pool u = _ :=
      (reclaimUnit_of_reorders hd hc u).2.2
    rw [hgained, pagesOf, hadvances.geometry]
    exact h.fits
  -- The second try of the write, and the only one of the write that comes after the request.
  obtain ⟨earlier, hattempt⟩ := attempt_of_empties hd hc h
  have hlate := attempt_of_room hrequested hplaced hleads hroom
  have htargets : requested.configuration.Targets (requested.placementOf w)
      (w.bytes requested.geometry.blockSize) u := by
    refine (targets_iff hrequested (Bool.and_eq_true_iff.1 hplaced).1 w u).2 ⟨?_, hleads⟩
    rw [IsWhole, hadvances.geometry]
    exact h.whole
  obtain ⟨unit, -, hroute⟩ := routeOnce_of_fits (d := requested.tick) w.block requested.clock.now
    hrequested.tick htargets (by rw [hrequested.tick.pageSize]; exact hroom)
  obtain ⟨hresult, hstate⟩ := routeOnce_of_eq (emptying_eq hd hc u) hleads w.block
    (w.bytes requested.geometry.blockSize) requested.clock.now d.clock.now
  have hearly : d.routed (d.emptying u).state w = (d.emptying u).state.routeOnce
      (requested.placementOf w) w.block (w.bytes requested.geometry.blockSize) d.clock.now := by
    rw [routed, hplacement, hadvances.geometry]
  rw [← hearly] at hresult hstate
  obtain ⟨r, hdone⟩ : ∃ r, (requested.routed requested.tick w).result = .ok r :=
    ⟨_, congrArg Outcome.result hroute⟩
  have hdone' : (d.routed (d.emptying u).state w).result = .ok r := hresult.trans hdone
  refine ⟨⟨r, ?_, ?_⟩, ?_⟩
  · rw [result_write, hattempt]
    exact hdone'
  · rw [result_write, hlate]
    exact hdone
  · rw [write_eq, write_eq, hattempt, hlate, if_pos rfl, if_pos rfl, hadvances.geometry]
    exact account_of_eq (o := (d.routed (d.emptying u).state w).after earlier) hdone' hdone hstate
      w.block (w.bytes d.geometry.blockSize)

/-- Under a policy that only reorders, such as oldest first, a placed write is accepted if and only
if it is accepted after its unit was emptied by request. A write that counts a pass of its own is
accepted in both cases, with the same report, and what it leaves differs in two things only: it
counts the pass, and the unit may have been opened at another time. -/
theorem pass_of_write_as_requested (h : Reachable μ d) (hc : d.collector.policy.Reorders)
    (hplaced : d.places w) (hleads : d.LeadsTo w u) :
    let requested := d.reclaimUnit u
    (∃ count, requested.result = .ok count) ∧
      (d.Accepts w ↔ requested.state.Accepts w) ∧
      ((d.write w).state.accounting.foregroundPasses ≠ d.accounting.foregroundPasses →
        (∃ r, (d.write w).result = .ok r ∧ (requested.state.write w).result = .ok r) ∧
        (d.write w).state.withoutStamp u =
          (requested.state.write w).state.countForegroundPass.withoutStamp u) := by
  intro requested
  have hd := h.sound
  exact ⟨⟨_, (reclaimUnit_of_reorders hd hc u).1⟩,
    (accepts_reclaimUnit_iff hd hc hplaced hleads).symm,
    fun hcounted => write_of_empties hd hc (empties_of_counted hd hplaced hleads hcounted)⟩

/-- Unit 0 is full. A write of three pages erases its three lines and writes on two of them, and the
unit is opened one reading of the clock later than it is by the request. -/
theorem pass_of_write_as_requested_of_full_unit :
    ∃ fresh, build ⟨4, 2, 6, 1, by decide⟩ { handles := 2 } (.steady 0 1) = .ok fresh ∧
      let rs : List (Request Host.Window) := [.enable, .write (.placed 0 23 0)]
      let d := fresh.run rs
      let w : WriteCommand := .placed 0 11 0
      let requested := d.reclaimUnit 0
      Reachable Host.Window d ∧ d.collector.policy.Reorders ∧ d.places w ∧ d.LeadsTo w 0 ∧
        (d.write w).result = .ok ⟨some 0, 0, 3, [0, 1], [0]⟩ ∧
        (d.write w).state.accounting.foregroundPasses = 1 ∧
        ((d.write w).state.configuration.unit? 0).map (·.openedAt) = some (some 3) ∧
        ((requested.state.write w).state.configuration.unit? 0).map (·.openedAt) =
          some (some 2) ∧
        (d.write w).state.withoutStamp 0 =
          (requested.state.write w).state.countForegroundPass.withoutStamp 0 := by
  have hbuild : build ⟨4, 2, 6, 1, by decide⟩ { handles := 2 } (.steady 0 1) = .ok _ := rfl
  refine ⟨_, hbuild, ?_⟩
  intro rs d w requested
  have hreach : Reachable Host.Window d := ⟨_, _, _, _, hbuild, rs, rfl⟩
  have hrs : ∀ r ∈ rs, r.Orderly := by simp [rs, Request.Orderly]
  have hc : d.collector.policy.Reorders :=
    reorders_run (sound_build hbuild) (reorders_build hbuild) hrs
  obtain ⟨hplaced, hleads, hreport, hpasses, hstamp, hstamp'⟩ : d.places w ∧
      d.configuration.resolve (d.placementOf w) = .ok 0 ∧
      (d.write w).result = .ok ⟨some 0, 0, 3, [0, 1], [0]⟩ ∧
      (d.write w).state.accounting.foregroundPasses = 1 ∧
      ((d.write w).state.configuration.unit? 0).map (·.openedAt) = some (some 3) ∧
      ((requested.state.write w).state.configuration.unit? 0).map (·.openedAt) =
        some (some 2) := by decide +kernel
  have hcounted : (d.write w).state.accounting.foregroundPasses ≠
      d.accounting.foregroundPasses := by
    rw [hpasses]
    decide +kernel
  obtain ⟨-, -, hsame⟩ := pass_of_write_as_requested hreach hc hplaced hleads
  exact ⟨hreach, hc, hplaced, hleads, hreport, hpasses, hstamp, hstamp', (hsame hcounted).2⟩

end Device

end DataPlacement
