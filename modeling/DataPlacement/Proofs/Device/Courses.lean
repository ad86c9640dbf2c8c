import DataPlacement.Proofs.Device.Admission

namespace DataPlacement.Device

variable {d : Device} {w : WriteCommand} {u v : UnitId}

/-- The write is too long for what its unit can take, but not once the full lines of the unit are
erased. -/
structure Empties (d : Device) (w : WriteCommand) (u : UnitId) : Prop where
  places : d.places w
  whole : d.IsWhole w
  leads : d.LeadsTo w u
  long : d.configuration.availablePages d.pool u < d.pagesOf w
  fits : d.pagesOf w ≤ d.configuration.availablePages d.pool u + d.fullPages (some u)

/-- The write goes to the plain path and is too long for it. -/
structure Sweeps (d : Device) (w : WriteCommand) : Prop where
  plain : d.places w = false
  whole : d.IsWhole w
  long : d.path.availablePages d.pool < d.pagesOf w

/-- The pass of a write that empties the unit. -/
def emptying (d : Device) (u : UnitId) : Outcome Device Nat :=
  d.tick.countForegroundPass.reclaimUnit u

/-- The pass of a write that sweeps. -/
def sweeping (d : Device) : Outcome Device (List Reclaimed) :=
  d.countForegroundPass.pass none unowned

theorem Sound.emptying (hd : d.Sound) (u : UnitId) : (d.emptying u).state.Sound :=
  (advances_any_reclaimUnit hd.tick.countForegroundPass u).sound hd.tick.countForegroundPass

theorem Sound.sweeping (hd : d.Sound) : d.sweeping.state.Sound :=
  (d.countForegroundPass.advances_any_pass none unowned).sound hd.countForegroundPass

/-- The write starts a pass, and the pass is refused. -/
def PassRefused (d : Device) (w : WriteCommand) : Prop :=
  ∃ cause, (∃ u, d.Empties w u ∧ (d.emptying u).result = .error cause) ∨
    d.Sweeps w ∧ d.sweeping.result = .error cause

/-- A try of the write at the unit that it leads to. -/
def routed (d e : Device) (w : WriteCommand) : Outcome Device WriteReport :=
  e.routeOnce (d.placementOf w) w.block (w.bytes d.geometry.blockSize) d.clock.now

/-- A try of the write at the plain path. -/
def plainRouted (d e : Device) (w : WriteCommand) : Outcome Device WriteReport :=
  e.plainOnce w.block (w.bytes d.geometry.blockSize)

/-- Entering the result of a write changes the accounting and nothing else. -/
theorem exists_accounting_write (d : Device) (w : WriteCommand) :
    ∃ a, (d.write w).state = { (d.attempt w).outcome.state with accounting := a } := by
  rw [write_eq]
  split
  · unfold account
    dsimp only
    split <;> exact ⟨_, rfl⟩
  · exact ⟨_, rfl⟩

/-- The courses that a write can take. -/
inductive Course (d : Device) (w : WriteCommand) : Attempt → Prop where
  | placed (hplaces : d.places w) (hidle : ∀ u, ¬ d.Empties w u) :
      Course d w ⟨d.routed d.tick w, true⟩
  | emptied {u : UnitId} {count : Nat} (h : d.Empties w u)
      (hpass : (d.emptying u).result = .ok count) (earlier : List Notice) :
      Course d w ⟨(d.routed (d.emptying u).state w).after earlier, true⟩
  | stuck {u : UnitId} {cause : Error} (h : d.Empties w u)
      (hpass : (d.emptying u).result = .error cause) (earlier : List Notice) :
      Course d w ⟨.refused cause (d.emptying u).state earlier, false⟩
  | plain (hplain : d.places w = false) (hidle : ¬ d.Sweeps w) :
      Course d w ⟨d.plainRouted d w, true⟩
  | swept {erased : List Reclaimed} (h : d.Sweeps w) (hpass : d.sweeping.result = .ok erased) :
      Course d w ⟨(d.plainRouted d.sweeping.state w).after d.sweeping.notices, true⟩
  | unswept {cause : Error} (h : d.Sweeps w) (hpass : d.sweeping.result = .error cause) :
      Course d w ⟨.refused cause d.sweeping.state d.sweeping.notices, false⟩

theorem Empties.unique (h : d.Empties w u) (h' : d.Empties w v) : u = v :=
  Except.ok.inj (h.leads.symm.trans h'.leads)

theorem Empties.not_sweeps (h : d.Empties w u) : ¬ d.Sweeps w := by
  intro hsweeps
  have hplain := hsweeps.plain
  rw [h.places] at hplain
  cases hplain

theorem Empties.targets (h : d.Empties w u) (hd : d.Sound) :
    d.configuration.Targets (d.placementOf w) (w.bytes d.geometry.blockSize) u :=
  (targets_iff hd (Bool.and_eq_true_iff.1 h.places).1 w u).2 ⟨h.whole, h.leads⟩

theorem course_of_places (hd : d.Sound) (hplaces : d.places w) : Course d w (d.attempt w) := by
  have hon : d.enabled := (Bool.and_eq_true_iff.1 hplaces).1
  by_cases hempties : ∃ u, d.Empties w u
  · obtain ⟨u, h⟩ := hempties
    have hlong := h.long
    have hfits := h.fits
    rw [pagesOf, ← hd.pageSize] at hlong hfits
    have hattempt := (attempt_of_places hplaces).trans (writePlaced_of_hopeful w.block
      (h.targets hd) hlong ((reclaimWouldFit_iff hd.tick hlong).2 hfits))
    rw [hattempt]
    cases hpass : (d.emptying u).result with
    | error cause =>
      rw [emptying] at hpass
      simp only [hpass]
      exact .stuck h hpass _
    | ok count =>
      rw [emptying] at hpass
      simp only [hpass]
      exact .emptied h hpass _
  · have honce : d.attempt w = ⟨d.routed d.tick w, true⟩ := by
      obtain honce | ⟨u, htargets, hlong, hfit⟩ := writePlaced_cases w.block hd (d.placementOf w)
        (w.bytes d.geometry.blockSize)
      · exact (attempt_of_places hplaces).trans honce
      · obtain ⟨hwhole, hleads⟩ := (targets_iff hd hon w u).1 htargets
        have hfits := (reclaimWouldFit_iff hd.tick hlong).1 hfit
        rw [hd.pageSize] at hlong
        rw [hd.tick.pageSize] at hfits
        exact absurd ⟨u, hplaces, hwhole, hleads, hlong, hfits⟩ hempties
    rw [honce]
    exact .placed hplaces (not_exists.1 hempties)

theorem course_of_plain (hd : d.Sound) (hplain : d.places w = false) :
    Course d w (d.attempt w) := by
  by_cases hsweeps : d.Sweeps w
  · have hattempt := (attempt_of_not_places hplain).trans
      (writePlain_of_exhausted w.block (bytes_ne_zero hd w) hsweeps.whole hsweeps.long)
    rw [hattempt]
    cases hpass : d.sweeping.result with
    | error cause =>
      rw [sweeping] at hpass
      simp only [hpass]
      exact .unswept hsweeps hpass
    | ok erased =>
      rw [sweeping] at hpass
      simp only [hpass]
      exact .swept hsweeps hpass
  · have honce : d.attempt w = ⟨d.plainRouted d w, true⟩ := by
      obtain honce | ⟨⟨-, hwhole⟩, hlong⟩ := writePlain_cases w.block hd
        (w.bytes d.geometry.blockSize)
      · exact (attempt_of_not_places hplain).trans honce
      · exact absurd ⟨hplain, hwhole, hlong⟩ hsweeps
    rw [honce]
    exact .plain hplain hsweeps

theorem course_attempt (hd : d.Sound) (w : WriteCommand) : Course d w (d.attempt w) := by
  cases hplaces : d.places w with
  | true => exact course_of_places hd hplaces
  | false => exact course_of_plain hd hplaces

/-- A write takes its course to the end unless its pass is refused. -/
theorem Course.settled_iff {a : Attempt} (h : Course d w a) :
    a.settled = true ↔ ¬ d.PassRefused w := by
  cases h with
  | placed hplaces hidle =>
    refine iff_of_true rfl ?_
    rintro ⟨cause, ⟨u, hempties, -⟩ | ⟨hsweeps, -⟩⟩
    · exact hidle u hempties
    · exact absurd (hplaces.symm.trans hsweeps.plain) (by simp)
  | emptied h hpass =>
    refine iff_of_true rfl ?_
    rintro ⟨cause, ⟨v, hempties, hrefused⟩ | ⟨hsweeps, -⟩⟩
    · rw [h.unique hempties, hrefused] at hpass
      cases hpass
    · exact h.not_sweeps hsweeps
  | stuck h hpass => exact iff_of_false Bool.false_ne_true (not_not.2 ⟨_, .inl ⟨_, h, hpass⟩⟩)
  | plain hplain hidle =>
    refine iff_of_true rfl ?_
    rintro ⟨cause, ⟨u, hempties, -⟩ | ⟨hsweeps, -⟩⟩
    · exact absurd (hempties.places.symm.trans hplain) (by simp)
    · exact hidle hsweeps
  | swept h hpass =>
    refine iff_of_true rfl ?_
    rintro ⟨cause, ⟨u, hempties, -⟩ | ⟨-, hrefused⟩⟩
    · exact hempties.not_sweeps h
    · rw [hrefused] at hpass
      cases hpass
  | unswept h hpass => exact iff_of_false Bool.false_ne_true (not_not.2 ⟨_, .inr ⟨h, hpass⟩⟩)

/-- A write whose pass is refused is refused for the same cause. -/
theorem Course.exists_error {a : Attempt} (h : Course d w a) (hrefused : d.PassRefused w) :
    ∃ cause, a.outcome.result = .error cause := by
  have hsettled : ¬ a.settled = true := fun hs => h.settled_iff.1 hs hrefused
  cases h with
  | placed | emptied | plain | swept => exact absurd rfl hsettled
  | stuck => exact ⟨_, rfl⟩
  | unswept => exact ⟨_, rfl⟩

end DataPlacement.Device
