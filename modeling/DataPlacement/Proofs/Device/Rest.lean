import DataPlacement.Proofs.Device.Actions
import DataPlacement.Proofs.Device.Agreement
import DataPlacement.Proofs.Device.Endings
import DataPlacement.Proofs.Device.Periods
import DataPlacement.Proofs.Pool.Progress

namespace DataPlacement.Device

variable {d e fresh : Device} {u v : UnitId} {μ : Type} [Host.Memory μ]

/-- The unit is not full while it has a free line. -/
def RestedAt (d : Device) (u : UnitId) : Prop :=
  ∀ unit, d.configuration.unit? u = some unit → unit.state = .full →
    d.pool.freeLines (some u) = []

def Rested (d : Device) : Prop := ∀ u, d.RestedAt u

theorem restedAt_congr (hconfiguration : e.configuration = d.configuration)
    (hpool : e.pool = d.pool) : e.RestedAt u ↔ d.RestedAt u := by
  simp only [RestedAt, hconfiguration, hpool]

theorem rested_congr (hconfiguration : e.configuration = d.configuration)
    (hpool : e.pool = d.pool) (hd : d.Rested) : e.Rested :=
  fun u => (restedAt_congr hconfiguration hpool).2 (hd u)

/-- While placement is off no unit is full. -/
theorem rested_of_off (hd : d.Sound) (hoff : d.enabled = false) : d.Rested := by
  intro u unit hunit hfull
  have hstate := hd.settled u unit hunit
  have hunused : d.configuration.enabled = false := hoff
  rw [hfull, hunused] at hstate
  cases hstate

/-- What is done on behalf of others leaves a unit rested, or full with a free line, as it was. -/
theorem restedAt_iff_of_agree {W : Option UnitId → Prop} {es : List LineEvent}
    (h : Advances W d es e) (hu : ¬ W (some u)) (hd : d.Sound) : e.RestedAt u ↔ d.RestedAt u := by
  have hfree := (h.agree hu hd).pool.free
  simp only [RestedAt, h.units u hu, hfree]

/-! ### Opening again -/

/-- A unit that was asked to open again is rested, and the others stay as they were. -/
theorem restedAt_rearm (now : Nat) (h : v = u ∨ d.RestedAt v) :
    (d.onUnits fun c p => c.rearm p u now).state.RestedAt v := by
  simp only [onUnits_eq_mapState]
  obtain hsame | ⟨unit, id, rest, hunit, hfull, hfree, hrearm⟩ :=
    d.configuration.rearm_cases d.pool now u
  · rw [hsame]
    obtain rfl | hrested := h
    · -- A full unit with a free line would have been opened.
      intro unit hunit hfull
      have hunit : d.configuration.unit? v = some unit := hunit
      cases hfree : d.pool.freeLines (some v) with
      | nil => exact hfree
      | cons id rest =>
        simp [Configuration.rearm, hunit, hfull, Pool.take_of_freeLines_eq_cons hfree,
          Outcome.done] at hsame
    · exact hrested
  · rw [hrearm]
    intro after hafter hstate
    have hafter : (d.configuration.updateUnit u (·.openOn id now)).unit? v = some after := hafter
    rw [Configuration.unit?_updateUnit] at hafter
    by_cases huv : u = v
    · rw [if_pos huv] at hafter
      obtain ⟨before, -, rfl⟩ := Option.map_eq_some_iff.1 hafter
      cases hstate
    · rw [if_neg huv] at hafter
      have hrested : d.RestedAt v := h.resolve_left (Ne.symm huv)
      have hsame : (d.pool.taken (some u) id rest).freeLines (some v) =
          d.pool.freeLines (some v) := by
        rw [Pool.freeLines_taken _ hfree, if_neg (by simp [Ne.symm huv])]
      exact hsame.trans (hrested after hafter hstate)

theorem restedAt_rearmOwners (now : Nat) {erased : List Reclaimed}
    (h : d.RestedAt u ∨ ∃ r ∈ erased, r.owner = some u) :
    (rearmOwners now erased d).1.RestedAt u := by
  induction erased generalizing d with
  | nil =>
    obtain hrested | ⟨r, hr, -⟩ := h
    · exact hrested
    · cases hr
  | cons r rest ih =>
    rw [rearmOwners]
    cases howner : r.owner with
    | none =>
      refine ih (h.imp_right ?_)
      rintro ⟨r', hr', howner'⟩
      obtain rfl | hr' := List.mem_cons.1 hr'
      · rw [howner] at howner'
        cases howner'
      · exact ⟨r', hr', howner'⟩
    | some v =>
      apply ih
      by_cases hlater : ∃ r ∈ rest, r.owner = some u
      · exact .inr hlater
      · refine .inl (restedAt_rearm now ?_)
        obtain hrested | ⟨r', hr', howner'⟩ := h
        · exact .inr hrested
        · obtain rfl | hr' := List.mem_cons.1 hr'
          · exact .inl (Option.some.inj (howner'.symm.trans howner))
          · exact absurd ⟨r', hr', howner'⟩ hlater

/-! ### Writes -/

/-- A unit with room for a page is not full. -/
theorem state_ne_full_of_fits (hd : d.Sound) (hrested : d.RestedAt u) {unit : ReclaimUnit}
    (hunit : d.configuration.unit? u = some unit) {pages : Nat} (hpages : 0 < pages)
    (hfits : pages ≤ d.configuration.availablePages d.pool u) : unit.state ≠ .full := by
  intro hfull
  have hfree := hrested unit hunit hfull
  have hclosed := hd.pointer_of_full hunit hfull
  have hempty : d.configuration.availablePages d.pool u = 0 := by
    simp only [Configuration.availablePages, hunit, hclosed]
    rw [Pool.streamPages_closed _ _ rfl, Pool.freeCount_eq_length, hfree, List.length_nil,
      Nat.zero_mul]
  omega

/-- A write makes its unit full only when it takes the last line. -/
theorem restedAt_filled (hd : d.Sound) (hon : d.enabled) {unit : ReclaimUnit}
    (hunit : d.configuration.unit? v = some unit) (bytes now : Nat) (hrested : d.RestedAt u) :
    (d.filled v unit bytes now).RestedAt u := by
  by_cases huv : v = u
  · subst huv
    intro after hafter hfull
    have hsound : (d.filled v unit bytes now).Sound :=
      (advances_filled (W := fun _ => True) now hd hon trivial hunit).sound hd
    have hclosed := hsound.pointer_of_full hafter hfull
    rw [unit?_filled hunit, Option.some.injEq] at hafter
    subst hafter
    change (d.configuration.writeFill d.pool bytes unit v).pool.freeLines (some v) = []
    have hnone : (d.configuration.writeFill d.pool bytes unit v).pointer = .closed := hclosed
    cases hlines : (d.configuration.writeFill d.pool bytes unit v).lines with
    | nil =>
      obtain ⟨hpool, -⟩ := Pool.fillLines_of_lines_eq_nil hlines
      have hstate : (unit.afterFill (d.configuration.writeFill d.pool bytes unit v) now).state =
          .full := hfull
      have hbefore : unit.state = .full := by
        simpa [ReclaimUnit.afterFill, Fill.ranDry, hlines] using hstate
      have hfree := hrested unit hunit hbefore
      rw [← hpool] at hfree
      exact hfree
    | cons first rest =>
      apply Pool.freeLines_fillLines_of_ranDry (hd.page_le hunit)
      change (d.configuration.writeFill d.pool bytes unit v).ranDry
      rw [Fill.ranDry, hnone, hlines]
      rfl
  · have hadvances : Advances (fun o => o = some v) d _ (d.filled v unit bytes now) :=
      advances_filled now hd hon rfl hunit
    exact (restedAt_iff_of_agree hadvances (by simp [Ne.symm huv]) hd).2 hrested

/-! ### Placement -/

/-- Turning placement on opens every unit. -/
theorem rested_enable (hd : d.Sound) (hrested : d.Rested) : d.enable.state.Rested := by
  cases hoff : d.enabled with
  | true =>
    rw [enable_of_on hoff]
    exact hrested
  | false =>
    obtain ⟨p, hsound, -, ⟨u, notices, -, henable⟩ |
      ⟨dist, c, q, notices, -, -, hdistributed, henable⟩⟩ := enable_cases hd hoff
    · obtain ⟨hchanges, hstill, -⟩ := changes_disable hsound.tick
      rw [henable]
      exact rested_of_off hchanges.sound hstill
    · rw [henable]
      intro u unit hunit hfull
      have hunit : c.unit? u = some unit := hunit
      have hsize := Configuration.size_units_eq_of_blank hdistributed.opened.blank
      have hu : u ∈ List.range d.configuration.units.size := by
        rw [List.mem_range, ← hsize]
        exact (Array.getElem?_eq_some_iff.1 hunit).1
      obtain ⟨hactive, -⟩ := hdistributed.opened.opened u hu unit hunit
      rw [hactive] at hfull
      cases hfull

end DataPlacement.Device
