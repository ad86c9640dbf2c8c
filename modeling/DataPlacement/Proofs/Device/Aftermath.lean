import DataPlacement.Proofs.Device.Admission

namespace DataPlacement.Device

open Allocation

variable {d : Device} {w : WriteCommand} {cause : Error} {u : UnitId}
  {μ : Type} [Host.Memory μ]

/-- The device with one more refused write in its accounting. -/
def countRefused (d : Device) : Device :=
  { d with accounting := { d.accounting with refused := d.accounting.refused + 1 } }

theorem account_refused (cause : Error) (d : Device) (notices : List Notice) (block bytes : Nat) :
    account (.refused cause d notices) block bytes =
      .refused cause d.countRefused
        (notices ++ if d.tracing then [.writeRefused block cause] else []) := rfl

/-- A write whose attempt was refused on the device `e`. -/
theorem write_of_refused_attempt {e : Device} {notices : List Notice}
    (h : d.attempt w = ⟨.refused cause e notices, true⟩) :
    (d.write w).result = .error cause ∧ (d.write w).state = e.countRefused ∧
      erasures (d.write w).notices = erasures notices := by
  rw [write_eq, h, if_pos rfl, account_refused]
  refine ⟨rfl, rfl, ?_⟩
  simp only [Outcome.refused]
  rw [erasures_append, erasures_ite rfl, List.append_nil]

/-! ### Placed writes -/

/-- Why a placed write is refused. -/
inductive Refusal (d : Device) (w : WriteCommand) : Error → Prop where
  /-- It ends inside a page. -/
  | length (hpart : ¬ d.IsWhole w) : Refusal d w (.invalidLength (w.bytes d.geometry.blockSize))
  /-- Its placement leads to no unit. -/
  | placement {cause : Error} (hwhole : d.IsWhole w)
      (hunresolved : d.configuration.resolve (d.placementOf w) = .error cause) : Refusal d w cause
  /-- It is too long for its unit, also once the full lines of the unit are erased. -/
  | room {u : UnitId} (hwhole : d.IsWhole w) (hleads : d.LeadsTo w u)
      (hlong : d.configuration.availablePages d.pool u + d.fullPages (some u) < d.pagesOf w) :
      Refusal d w (.unitExhausted u)

/-- A refusal of the first try stands unless emptying the unit would help. -/
theorem attempt_of_refused_route (hd : d.Sound) (hplaced : d.places w) {notices : List Notice}
    (hroute : d.tick.routeOnce (d.placementOf w) w.block (w.bytes d.geometry.blockSize)
      d.clock.now = .refused cause d.tick notices)
    (hhopeless : ∀ u, cause = .unitExhausted u →
      d.tick.reclaimWouldFit u (w.bytes d.geometry.blockSize) = false) :
    d.attempt w = ⟨.refused cause d.tick notices, true⟩ := by
  rw [attempt_of_places hplaced, writePlaced_once w.block hd, hroute]
  intro u hexhausted
  rw [hroute] at hexhausted
  exact hhopeless u (Except.error.inj hexhausted)

theorem attempt_of_refusal (hd : d.Sound) (hplaced : d.places w) (h : d.Refusal w cause) :
    ∃ notices, erasures notices = [] ∧ d.attempt w = ⟨.refused cause d.tick notices, true⟩ := by
  have hon : d.enabled := (Bool.and_eq_true_iff.1 hplaced).1
  have hzero := bytes_ne_zero hd w
  cases h with
  | length hpart =>
    have hlength : w.bytes d.geometry.blockSize % d.tick.configuration.pageSize ≠ 0 := by
      rw [hd.tick.pageSize]
      exact hpart
    exact ⟨[], rfl, attempt_of_refused_route hd hplaced
      (routeOnce_of_invalid w.block d.clock.now hon (.inr hlength)) (by simp)⟩
  | placement hwhole hunresolved =>
    have hlength : w.bytes d.geometry.blockSize % d.tick.configuration.pageSize = 0 := by
      rw [hd.tick.pageSize]
      exact hwhole
    have hroute := routeOnce_of_unresolved (d := d.tick) w.block d.clock.now hon hzero hlength
      hunresolved
    exact ⟨[], rfl, attempt_of_refused_route hd hplaced hroute fun u hcause =>
      absurd hcause (Configuration.resolve_ne_unitExhausted hunresolved u)⟩
  | @room u hwhole hleads hlong =>
    have htargets := (targets_iff hd hon w u).2 ⟨hwhole, hleads⟩
    rw [pagesOf, ← hd.pageSize] at hlong
    have hshort := Nat.lt_of_le_of_lt (Nat.le_add_right _ _) hlong
    have hroute := routeOnce_of_exhausted (d := d.tick) w.block d.clock.now htargets hshort
    refine ⟨_, erasures_cons rfl [], attempt_of_refused_route hd hplaced hroute fun v hv => ?_⟩
    obtain rfl : u = v := Error.unitExhausted.inj hv
    rw [Bool.eq_false_iff]
    intro hfit
    exact Nat.not_le.2 hlong ((reclaimWouldFit_iff hd hshort).1 hfit)

/-- A placed write that is refused is refused for one of the reasons. -/
theorem exists_refusal (hd : d.Sound) (hc : d.collector.policy.Reorders) (hplaced : d.places w)
    (hrefused : (d.write w).result = .error cause) : ∃ reason, d.Refusal w reason := by
  have hon : d.enabled := (Bool.and_eq_true_iff.1 hplaced).1
  rw [result_write] at hrefused
  cases placedEnd_write hd hc hplaced with
  | refused _ _ _ hlong =>
    by_cases hwhole : d.IsWhole w
    · cases hresolve : d.configuration.resolve (d.placementOf w) with
      | error reason => exact ⟨reason, .placement hwhole hresolve⟩
      | ok u =>
        have hroom := hlong u ((targets_iff hd hon w u).2 ⟨hwhole, hresolve⟩)
        rw [hd.pageSize] at hroom
        exact ⟨_, .room hwhole hresolve hroom⟩
    · exact ⟨_, .length hwhole⟩
  | fits u r _ _ hresult =>
    rw [hresult] at hrefused
    cases hrefused
  | emptied u r _ _ _ hresult =>
    rw [hresult] at hrefused
    cases hrefused

/-- While placement is on, a write with a placement is refused for exactly these reasons. What it
leaves is the device as it was: one more refused write is counted and the clock was read once, and
no line is erased in vain. -/
theorem refused_placed_write (hd : Orderly μ d) (hon : d.enabled) (hw : w.hasPlacement) :
    ((d.write w).result = .error cause ↔ d.Refusal w cause) ∧
      ((d.write w).result = .error cause →
        (d.write w).state = d.tick.countRefused ∧ erasures (d.write w).notices = []) := by
  have hplaced : d.places w := Bool.and_eq_true_iff.2 ⟨hon, hw⟩
  have hintact : ∀ {reason}, d.Refusal w reason → (d.write w).result = .error reason ∧
      (d.write w).state = d.tick.countRefused ∧ erasures (d.write w).notices = [] := by
    intro reason h
    obtain ⟨notices, hquiet, hattempt⟩ := attempt_of_refusal hd.sound hplaced h
    obtain ⟨hresult, hstate, hnotices⟩ := write_of_refused_attempt hattempt
    exact ⟨hresult, hstate, hnotices.trans hquiet⟩
  have hreason : (d.write w).result = .error cause → d.Refusal w cause := by
    intro hrefused
    obtain ⟨reason, h⟩ := exists_refusal hd.sound hd.reorders hplaced hrefused
    obtain rfl : reason = cause := Except.error.inj ((hintact h).1.symm.trans hrefused)
    exact h
  exact ⟨⟨hreason, fun h => (hintact h).1⟩, fun hrefused => (hintact (hreason hrefused)).2⟩

/-- Unit 0 has one line of two pages, and that is full. Three pages would not fit into the erased
line either, so it stays full. -/
theorem refused_placed_write_of_oversized :
    ∃ fresh, build ⟨4, 2, 2, 1, by decide⟩ { handles := 2 } (.steady 0 1) = .ok fresh ∧
      let d := fresh.run ([.enable, .write (.placed 0 7 0)] : List (Request Host.Window))
      let w : WriteCommand := .placed 0 11 0
      Orderly Host.Window d ∧ d.enabled ∧ w.hasPlacement ∧
        (d.write w).result = .error (.unitExhausted 0) ∧
        (d.write w).state = d.tick.countRefused ∧
        (d.write w).state.pool.lines[0]? = some ⟨some 0, .full, 0, 2, 1⟩ := by
  have hbuild : build ⟨4, 2, 2, 1, by decide⟩ { handles := 2 } (.steady 0 1) = .ok _ := rfl
  refine ⟨_, hbuild, ?_⟩
  intro d w
  have horderly : Orderly Host.Window d :=
    ⟨_, _, _, _, hbuild, _, fun r hr policy hpolicy => by simp [hpolicy] at hr, rfl⟩
  have hplacement : w.hasPlacement := rfl
  obtain ⟨hon, hwhole, hleads, hlong, hline⟩ :
      d.enabled ∧ w.bytes d.geometry.blockSize % d.geometry.pageSize = 0 ∧
        d.configuration.resolve (d.placementOf w) = .ok 0 ∧
        d.configuration.availablePages d.pool 0 + d.fullPages (some 0) < d.pagesOf w ∧
        d.pool.lines[0]? = some ⟨some 0, .full, 0, 2, 1⟩ := by
    decide +kernel
  have hrefused := (refused_placed_write horderly hon hplacement).1.2 (.room hwhole hleads hlong)
  obtain ⟨hstate, -⟩ := (refused_placed_write horderly hon hplacement).2 hrefused
  exact ⟨horderly, hon, hplacement, hrefused, hstate, hstate ▸ hline⟩

/-! ### Plain writes -/

/-- A plain write that ends inside a page is refused at once. -/
theorem attempt_of_plain_part (hplain : d.places w = false) (hpart : ¬ d.IsWhole w) :
    d.attempt w = ⟨.refused (.invalidLength (w.bytes d.geometry.blockSize)) d, true⟩ := by
  have honce := plainOnce_of_invalid (d := d) w.block (.inr hpart)
  have hrefused : (d.plainOnce w.block (w.bytes d.geometry.blockSize)).result ≠
      .error .sharedExhausted := by
    rw [honce]
    simp [Outcome.refused]
  rw [attempt_of_not_places hplain, writePlain_once w.block hrefused, honce]

/-- A plain write that never fits is refused after the pass that was to make room for it. -/
theorem attempt_of_plain_long (hd : d.Sound) (hc : d.collector.policy.Reorders)
    (hplain : d.places w = false) (hwhole : d.IsWhole w)
    (hlong : d.path.availablePages d.pool + d.fullPages none < d.pagesOf w) :
    let pass := d.countForegroundPass.pass none unowned
    d.attempt w = ⟨.refused .sharedExhausted pass.state pass.notices, true⟩ := by
  intro pass
  have hzero := bytes_ne_zero hd w
  have hready := hd.countForegroundPass
  obtain ⟨hresult, -, hstream⟩ := pass_owner hready hc unowned_iff
  have hroom : pass.state.path.availablePages pass.state.pool =
      d.path.availablePages d.pool + d.fullPages none := hstream d.path.pointer
  have hretry : pass.state.plainOnce w.block (w.bytes d.geometry.blockSize) =
      .refused .sharedExhausted pass.state :=
    plainOnce_of_exhausted w.block hzero hwhole (hroom ▸ hlong)
  have hshort := Nat.lt_of_le_of_lt (Nat.le_add_right _ _) hlong
  rw [attempt_of_not_places hplain, writePlain_of_exhausted w.block hzero hwhole hshort, hresult]
  simp only [pass, hretry]
  simp [Outcome.after, Outcome.refused]

/-- A pass over the lines of an owner leaves the pool as it is if and only if none of them is
full. -/
theorem pool_pass_owner_eq_iff (hd : d.Sound) (hc : d.collector.policy.Reorders)
    {wanted : Candidate → Bool} {o : Option UnitId}
    (hwanted : ∀ candidate, wanted candidate ↔ candidate.line.owner = o) :
    (d.pass none wanted).state.pool = d.pool ↔ d.pool.full o = ∅ := by
  rw [← Collector.toFinset_victims hc hwanted, List.toFinset_eq_empty_iff]
  obtain ⟨-, hpool, -⟩ := pass_of_reorders none wanted hd hc
  constructor
  · intro hintact
    rw [hintact] at hpool
    refine hpool.eq_nil fun id hid => ?_
    obtain ⟨l, hline, hfull, -⟩ := Collector.exists_of_mem_victims hc.selects hid
    exact ⟨l, hline, hfull⟩
  · intro hnone
    change (d.collector.collect d.pool none wanted).state.2 = d.pool
    rw [Collector.state_collect, hnone]
    rfl

/-- A plain write of whole pages is refused only if it does not fit into all lines without an
owner. -/
theorem long_of_refused_plain (hd : d.Sound) (hc : d.collector.policy.Reorders)
    (hplain : d.places w = false) (hwhole : d.IsWhole w)
    (hrefused : (d.write w).result = .error cause) :
    d.path.availablePages d.pool + d.fullPages none < d.pagesOf w := by
  rw [result_write, attempt_of_not_places hplain] at hrefused
  refine Nat.lt_of_not_le fun hfits => ?_
  obtain ⟨r, haccepted⟩ :=
    (accepted_writePlain_iff hd hc w.block (bytes_ne_zero hd w)).2 ⟨hwhole, hfits⟩
  rw [haccepted] at hrefused
  cases hrefused

/-- A refused plain write leaves its path and the units as they were. Of the lines it erases every
full one without an owner, unless it ends inside a page; these erasures are for nothing. The lines
and lists are untouched if and only if there was no such line, or the write ended inside a page. -/
theorem refused_plain_write (hd : Orderly μ d) (hplain : d.places w = false)
    (hrefused : (d.write w).result = .error cause) :
    let after := (d.write w).state
    after.path = d.path ∧ after.configuration = d.configuration ∧
      (∃ ids : List LineId, ids.Nodup ∧ (∀ id, id ∈ ids ↔ d.IsWhole w ∧ id ∈ d.pool.full none) ∧
        d.pool.Erased ids after.pool ∧ erasures (d.write w).notices = ids.map .erased) ∧
      (after.pool = d.pool ↔ ¬ d.IsWhole w ∨ d.pool.full none = ∅) := by
  intro after
  by_cases hwhole : d.IsWhole w
  · have hready := hd.sound.countForegroundPass
    have hlong := long_of_refused_plain hd.sound hd.reorders hplain hwhole hrefused
    obtain ⟨-, hafter, hnotices⟩ := write_of_refused_attempt
      (attempt_of_plain_long hd.sound hd.reorders hplain hwhole hlong)
    obtain ⟨-, hpool, herasures⟩ := pass_of_reorders none unowned hready hd.reorders
    have hmem : ∀ id, id ∈ d.collector.victims d.pool none unowned ↔
        d.IsWhole w ∧ id ∈ d.pool.full none := by
      intro id
      rw [and_iff_right hwhole, ← Collector.toFinset_victims hd.reorders unowned_iff,
        List.mem_toFinset]
    have hintact : (d.countForegroundPass.pass none unowned).state.pool = d.pool ↔
        ¬ d.IsWhole w ∨ d.pool.full none = ∅ := by
      rw [or_iff_right (not_not.2 hwhole)]
      exact pool_pass_owner_eq_iff hready hd.reorders unowned_iff
    have hsame : after = (d.countForegroundPass.pass none unowned).state.countRefused := hafter
    rw [hsame]
    exact ⟨rfl, rfl, ⟨_, Collector.nodup_victims hd.reorders, hmem, hpool,
      hnotices.trans herasures⟩, hintact⟩
  · obtain ⟨-, hafter, hnotices⟩ := write_of_refused_attempt (attempt_of_plain_part hplain hwhole)
    have hsame : after = d.countRefused := hafter
    rw [hsame]
    exact ⟨rfl, rfl, ⟨[], .nil, by simp [hwhole], .nil _, hnotices⟩,
      iff_of_true rfl (.inl hwhole)⟩

/-- Three lines of two pages, of which two are full. Seven pages are too many, and for them the full
lines are erased. -/
theorem refused_plain_write_of_oversized :
    ∃ fresh, build ⟨4, 2, 3, 1, by decide⟩ {} (.steady 0 1) = .ok fresh ∧
      let d := fresh.run ([.write (.plain 0 15)] : List (Request Host.Window))
      let w : WriteCommand := .plain 16 27
      Orderly Host.Window d ∧ d.places w = false ∧
        (d.write w).result = .error .sharedExhausted ∧
        (d.write w).state.path = d.path ∧ d.pool.full none = {0, 1} ∧
        (d.write w).state.pool ≠ d.pool := by
  have hbuild : build ⟨4, 2, 3, 1, by decide⟩ {} (.steady 0 1) = .ok _ := rfl
  refine ⟨_, hbuild, ?_⟩
  intro d w
  have horderly : Orderly Host.Window d :=
    ⟨_, _, _, _, hbuild, _, fun r hr policy hpolicy => by simp [hpolicy] at hr, rfl⟩
  have hplain : d.places w = false := rfl
  have hrefused : (d.write w).result = .error .sharedExhausted := by decide +kernel
  have hwhole : w.bytes d.geometry.blockSize % d.geometry.pageSize = 0 := by decide +kernel
  have hfull : d.pool.full none = {0, 1} := by decide +kernel
  obtain ⟨hpath, -, -, hpool⟩ := refused_plain_write horderly hplain hrefused
  refine ⟨horderly, hplain, hrefused, hpath, hfull, fun hsame => ?_⟩
  rcases hpool.1 hsame with hpart | hnone
  · exact hpart hwhole
  · rw [hfull] at hnone
    exact absurd hnone (by decide)

/-- Two lines of two pages, of which the first is full. Five pages can never fit, but the write of
them erases the full line before it is refused. -/
theorem erasure_of_refused_plain_write :
    ∃ fresh, build ⟨4096, 2, 2, 4096, by decide⟩ { handles := 1 } (.steady 0 1) = .ok fresh ∧
      let d := fresh.run ([.write (.plain 0 1)] : List (Request Host.Window))
      let w : WriteCommand := .plain 2 4
      Orderly Host.Window d ∧ d.places w = false ∧
        (d.write w).result = .error .sharedExhausted ∧
        d.pool.lines[0]? = some ⟨none, .full, 0, 2, 1⟩ ∧
        (d.write w).state.pool.lines[0]? = some ⟨none, .free, 1, 0, 1⟩ ∧
        (d.write w).state.pool.freeLines none ≠ d.pool.freeLines none := by
  have hbuild : build ⟨4096, 2, 2, 4096, by decide⟩ { handles := 1 } (.steady 0 1) = .ok _ := rfl
  refine ⟨_, hbuild, ?_⟩
  intro d w
  have horderly : Orderly Host.Window d :=
    ⟨_, _, _, _, hbuild, _, fun r hr policy hpolicy => by simp [hpolicy] at hr, rfl⟩
  exact ⟨horderly, rfl, by decide +kernel⟩

end DataPlacement.Device
