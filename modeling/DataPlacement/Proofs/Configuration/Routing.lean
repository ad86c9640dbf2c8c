import DataPlacement.Proofs.Allocation.Filling
import DataPlacement.Proofs.Configuration.Units

namespace DataPlacement.Configuration

variable (c : Configuration) (p : Pool) (placement : Placement) (block bytes now : Nat)

/-- The unit that a placed write goes to. -/
def Targets (u : UnitId) : Prop :=
  c.enabled ∧ bytes ≠ 0 ∧ bytes % c.pageSize = 0 ∧ c.resolve placement = .ok u

theorem targets_of_blank {c c' : Configuration} (hblank : c'.blank = c.blank)
    (henabled : c'.enabled = c.enabled) (placement : Placement) (bytes : Nat) (u : UnitId) :
    c'.Targets placement bytes u ↔ c.Targets placement bytes u := by
  simp only [Targets, henabled, pageSize_eq_of_blank hblank, resolve_eq_of_blank hblank]

/-- A placement that leads nowhere is not refused for want of room. -/
theorem resolve_ne_unitExhausted {c : Configuration} {placement : Placement} {cause : Error}
    (h : c.resolve placement = .error cause) (u : UnitId) : cause ≠ .unitExhausted u := by
  unfold resolve at h
  split at h
  · cases h
    simp
  · split at h <;> cases h
    simp

/-- A placed write that has no unit to go to is refused, and not for want of room. -/
theorem write_of_not_targets (h : ∀ u, ¬ c.Targets placement bytes u) :
    ∃ cause, c.write p placement block bytes now = .refused cause (c, p) ∧
      ∀ u, cause ≠ .unitExhausted u := by
  unfold write
  by_cases henabled : c.enabled
  · by_cases hlength : bytes = 0 ∨ bytes % c.pageSize ≠ 0
    · exact ⟨.invalidLength bytes, by simp [henabled, hlength], by simp⟩
    · cases hresolve : c.resolve placement with
      | error cause =>
        exact ⟨cause, by simp only [henabled, hlength]; rfl, resolve_ne_unitExhausted hresolve⟩
      | ok u =>
        rw [not_or, not_not] at hlength
        exact absurd ⟨henabled, hlength.1, hlength.2, hresolve⟩ (h u)
  · exact ⟨.disabled, by simp [henabled], by simp⟩

/-- A placed write of no bytes or of a part of a page is refused. -/
theorem write_of_invalid {c : Configuration} (henabled : c.enabled)
    (h : bytes = 0 ∨ bytes % c.pageSize ≠ 0) :
    c.write p placement block bytes now = .refused (.invalidLength bytes) (c, p) := by
  simp [write, henabled, h]

/-- A placed write whose placement leads to no unit is refused for that. -/
theorem write_of_unresolved {c : Configuration} {placement : Placement} {bytes : Nat}
    {cause : Error} (henabled : c.enabled) (hzero : bytes ≠ 0) (hwhole : bytes % c.pageSize = 0)
    (h : c.resolve placement = .error cause) :
    c.write p placement block bytes now = .refused cause (c, p) := by
  simp [write, henabled, hzero, hwhole, h]

/-- A placed write that is too long for its unit is refused and changes nothing. -/
theorem write_of_exhausted {u : UnitId} (h : c.Targets placement bytes u)
    (hlong : c.availablePages p u < bytes / c.pageSize) :
    c.write p placement block bytes now =
      .refused (.unitExhausted u) (c, p) [.exhausted u (bytes / c.pageSize)] := by
  obtain ⟨henabled, hzero, hwhole, hresolve⟩ := h
  simp [write, henabled, hzero, hwhole, hresolve, hlong]

/-- The fill of a placed write. -/
def writeFill (unit : ReclaimUnit) (u : UnitId) : Fill :=
  p.fill (some u) .atOnce unit.pointer (pageCounter (bytes / c.pageSize))

theorem pos_pages {c : Configuration} {placement : Placement} {bytes : Nat} {u : UnitId}
    (h : c.Targets placement bytes u) : 0 < bytes / c.pageSize := by
  obtain ⟨-, hzero, hwhole, -⟩ := h
  refine Nat.div_pos_iff.2 ?_
  by_cases hsize : c.pageSize = 0
  · simp [hsize] at hwhole
    exact absurd hwhole hzero
  · have hdvd := Nat.dvd_of_mod_eq_zero hwhole
    exact ⟨Nat.pos_of_ne_zero hsize, Nat.le_of_dvd (Nat.pos_of_ne_zero hzero) hdvd⟩

/-- The loop counts no more pages than the unit has room for. -/
theorem pageCounter_le_streamPages {c : Configuration} {p : Pool} {bytes : Nat} {u : UnitId}
    {unit : ReclaimUnit} (hunit : c.unit? u = some unit)
    (hfits : bytes / c.pageSize ≤ c.availablePages p u) :
    pageCounter (bytes / c.pageSize) ≤ p.streamPages (some u) unit.pointer := by
  rw [availablePages, hunit] at hfits
  exact Nat.le_trans (Nat.mod_le _ _) hfits

/-- A placed write that its unit has room for is carried out in full. -/
theorem write_of_fits {u : UnitId} (h : c.Targets placement bytes u)
    (hfits : bytes / c.pageSize ≤ c.availablePages p u)
    (hpage : ∀ unit, c.unit? u = some unit → unit.pointer.page ≤ p.pagesPerLine) :
    ∃ unit, c.unit? u = some unit ∧
      let f := c.writeFill p bytes unit u
      c.write p placement block bytes now =
        .done ⟨some u, block, pageCounter (bytes / c.pageSize), f.lines, f.retired⟩
          ((c.updateUnit u (·.afterFill f now)).countWrite u bytes, f.pool)
          (if f.ranDry then [.filled u] else []) := by
  have hpages := pos_pages h
  obtain ⟨henabled, hzero, hwhole, hresolve⟩ := h
  cases hunit : c.unit? u with
  | none =>
    simp only [availablePages, hunit] at hfits
    omega
  | some unit =>
    refine ⟨unit, rfl, ?_⟩
    have hstarved : (p.fill (some u) .atOnce unit.pointer _).starved = false :=
      Pool.starved_fill_eq_false (hpage unit hunit) (pageCounter_le_streamPages hunit hfits)
    simp [write, henabled, hzero, hwhole, hresolve, Nat.not_lt.2 hfits, hunit, writeUnit,
      writeFill, hstarved]
    rfl

/-- The unit of a carried out write is in the state that follows from its new pointer. -/
theorem settled_afterFill {c : Configuration} (hc : c.Settled) (henabled : c.enabled) {u : UnitId}
    {unit : ReclaimUnit} (hunit : c.unit? u = some unit) (p : Pool) (bytes now : Nat) :
    (c.updateUnit u (·.afterFill (c.writeFill p bytes unit u) now)).Settled := by
  refine settled_updateUnit hc fun before hbefore => ?_
  obtain rfl : unit = before := Option.some.inj (hunit.symm.trans hbefore)
  have hstate := hc u unit hunit
  rw [henabled] at hstate ⊢
  exact unit.state_afterFill now hstate Pool.pointer_fill_of_lines_eq_nil

/-- A full unit with a free line is opened again; any other request to do so changes nothing. -/
theorem rearm_cases (u : UnitId) :
    c.rearm p u now = .done false (c, p) ∨
      ∃ unit id rest, c.unit? u = some unit ∧ unit.state = .full ∧
        p.freeLines (some u) = id :: rest ∧
        c.rearm p u now = .done true
          (c.updateUnit u (·.openOn id now), p.taken (some u) id rest) [.reopened u id] := by
  unfold rearm
  cases hunit : c.unit? u with
  | none => exact .inl rfl
  | some unit =>
    by_cases hstate : unit.state = .full
    · cases hfree : p.freeLines (some u) with
      | nil => exact .inl (by simp [hstate, Pool.take_of_freeLines_eq_nil hfree])
      | cons id rest =>
        refine .inr ⟨unit, id, rest, rfl, hstate, rfl, ?_⟩
        simp [hstate, Pool.take_of_freeLines_eq_cons hfree]
    · exact .inl (by simp [hstate])

end DataPlacement.Configuration
