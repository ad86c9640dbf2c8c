import DataPlacement.Proofs.Allocation.Completion
import DataPlacement.Proofs.Device.LeftFull
import DataPlacement.Proofs.Device.Turns

namespace DataPlacement.Device

open Allocation

variable {d : Device} {u : UnitId} {before after : ReclaimUnit} {μ : Type} [Host.Memory μ]

/-! ### States -/

/-- What the state of a unit means. -/
structure InState (d : Device) (u : UnitId) (unit : ReclaimUnit) : Prop where
  unused_iff : unit.state = .unused ↔ d.enabled = false
  full_iff : unit.state = .full ↔
    d.enabled ∧ unit.pointer.line = none ∧ d.pool.freeLines (some u) = []
  written : unit.state = .full → ∀ (id : LineId) (l : Line), d.pool.lines[id]? = some l →
    l.owner = some u → l.state = .full ∧ l.pages = d.pool.pagesPerLine

theorem Orderly.rested (h : Orderly μ d) : d.Rested := by
  obtain ⟨g, params, clock, fresh, hbuild, rs, hrs, rfl⟩ := h
  have hfresh := sound_build hbuild
  exact rested_run hfresh (reorders_build hbuild) (rested_of_off hfresh (enabled_build hbuild)) hrs

theorem Reachable.completed (h : Reachable μ d) : d.allocation.Completed := by
  obtain ⟨g, params, clock, fresh, hbuild, rs, rfl⟩ := h
  have hfresh := sound_build hbuild
  refine completed_of_steps (changes_run hfresh rs).steps hfresh.allocation ?_
  intro id l hline howner
  have hunowned := hfresh.ownerOf_of_off (enabled_build hbuild) id
  exact absurd ((Pool.ownerOf_eq hline).symm.trans hunowned) howner

theorem Orderly.reachable (h : Orderly μ d) : Reachable μ d := by
  obtain ⟨g, params, clock, fresh, hbuild, rs, -, hrun⟩ := h
  exact ⟨g, params, clock, fresh, hbuild, rs, hrun⟩

/-- A line whose owner has neither a current line nor a free one is full. -/
theorem Sound.full_of_owner (hd : d.Sound) {id : LineId} {l : Line}
    (hline : d.pool.lines[id]? = some l) (howner : l.owner = some u)
    (hpointer : d.allocation.pointer (some u) = .closed) (hfree : d.pool.freeLines (some u) = []) :
    l.state = .full := by
  cases hstate : l.state with
  | full => rfl
  | free =>
    have hmem : id ∈ d.pool.freeLines (some u) :=
      (hd.allocation.mem_freeLines (some u) id).2 ⟨l, hline, hstate, howner⟩
    rw [hfree] at hmem
    cases hmem
  | active =>
    have hcurrent := (hd.allocation.current (some u) id).2 ⟨l, hline, hstate, howner⟩
    rw [hpointer] at hcurrent
    cases hcurrent

theorem inState (hd : d.Sound) (hrested : d.RestedAt u) (hcompleted : d.allocation.Completed)
    {unit : ReclaimUnit} (hunit : d.configuration.unit? u = some unit) : d.InState u unit := by
  have hstate := hd.settled u unit hunit
  have hpointer : d.allocation.pointer (some u) = unit.pointer :=
    Configuration.pointers_of_unit? d.path hunit
  refine ⟨?_, ⟨fun hfull => ?_, ?_⟩, fun hfull id l hline howner => ?_⟩
  · rw [hstate]
    change _ ↔ d.configuration.enabled = false
    unfold UnitState.ofPointer
    cases d.configuration.enabled <;> cases unit.pointer.line <;> simp
  · have hclosed := hd.pointer_of_full hunit hfull
    refine ⟨?_, by rw [hclosed]; rfl, hrested unit hunit hfull⟩
    by_contra hoff
    have hunused : d.configuration.enabled = false := Bool.eq_false_iff.2 hoff
    rw [hfull, hunused] at hstate
    cases hstate
  · rintro ⟨hon, hnone, -⟩
    have henabled : d.configuration.enabled = true := hon
    rw [hstate, henabled, UnitState.ofPointer, hnone]
    rfl
  · have hclosed := hd.pointer_of_full hunit hfull
    have hlast := hd.full_of_owner hline howner (hpointer.trans hclosed) (hrested unit hunit hfull)
    exact ⟨hlast, hcompleted id l hline (by simp [howner]) hlast⟩

/-! ### Steps -/

/-- How an action changes a unit. -/
structure LifeStep (d : Device) (a : Action) (u : UnitId) (before after : ReclaimUnit) : Prop where
  opened : before.state = .unused → after.state ≠ .unused → after.state = .active ∧ d.TurnsOn a
  filled : before.state = .active → after.state = .full → d.WritesTo a u
  reopened : before.state = .full → after.state = .active → d.Reclaims a u
  reclaimed : a.Collects → d.ErasedFor (d.act a) u → after.state ≠ .full
  cleared : before.state ≠ .unused → after.state = .unused → a = .disable
  stamped : after.openedAt ≠ before.openedAt →
    (before.state = .unused ∧ d.TurnsOn a) ∨
      (before.state = .full ∧ d.Reclaims a u ∧ (after.state = .active ∨ d.WritesTo a u)) ∨
      (a = .disable ∧ after.state = .unused ∧ after.openedAt = none)
  rolled : d.WritesTo a u → after.openedAt =
    if before.state = .full then some d.tick.clock.now else before.openedAt

theorem Turn.lifeStep {a : Action} (h : Turn d a u before after) :
    LifeStep d a u before after := by
  cases h with
  | keeps hstate hstamp hspared hunwritten =>
    exact {
      opened := fun hbefore hafter => absurd (hstate.trans hbefore) hafter
      filled := fun hbefore hafter => by simp [hstate, hbefore] at hafter
      reopened := fun hbefore hafter => by simp [hstate, hbefore] at hafter
      reclaimed := fun hcollects herased hafter =>
        hspared hcollects (hstate.symm.trans hafter) herased
      cleared := fun hbefore hafter => absurd (hstate.symm.trans hafter) hbefore
      stamped := fun hchanged => absurd hstamp hchanged
      rolled := fun hwritten => absurd hwritten hunwritten }
  | opens hbefore hon hafter =>
    exact {
      opened := fun _ _ => ⟨hafter, hon⟩
      filled := fun hactive => by simp [hbefore] at hactive
      reopened := fun hfull => by simp [hbefore] at hfull
      reclaimed := fun _ _ => by simp [hafter]
      cleared := fun hused => absurd hbefore hused
      stamped := fun _ => .inl ⟨hbefore, hon⟩
      rolled := fun hwritten => absurd hwritten hon.not_writesTo }
  | writes hbefore hwritten hafter hstamp =>
    exact {
      opened := fun hunused => by simp [hbefore] at hunused
      filled := fun _ _ => hwritten
      reopened := fun hfull => by simp [hbefore] at hfull
      reclaimed := fun hcollects => absurd hcollects hwritten.not_collects
      cleared := fun _ hunused => by simp [hunused] at hafter
      stamped := fun hchanged => absurd hstamp hchanged
      rolled := fun _ => by simp [hstamp, hbefore] }
  | reopens hbefore herased hafter hunwritten =>
    exact {
      opened := fun hunused => by simp [hbefore] at hunused
      filled := fun hactive => by simp [hbefore] at hactive
      reopened := fun _ _ => herased
      reclaimed := fun _ _ => by simp [hafter]
      cleared := fun _ hunused => by simp [hafter] at hunused
      stamped := fun _ => .inr (.inl ⟨hbefore, herased, .inl hafter⟩)
      rolled := fun hwritten => absurd hwritten hunwritten }
  | rewrites hbefore herased hwritten hafter hstamp =>
    exact {
      opened := fun hunused => by simp [hbefore] at hunused
      filled := fun _ _ => hwritten
      reopened := fun _ _ => herased
      reclaimed := fun hcollects => absurd hcollects hwritten.not_collects
      cleared := fun _ hunused => by simp [hunused] at hafter
      stamped := fun _ => .inr (.inl ⟨hbefore, herased, .inr hwritten⟩)
      rolled := fun _ => by simp [hstamp, hbefore] }
  | clears hoff hafter hstamp =>
    exact {
      opened := fun _ hused => absurd hafter hused
      filled := fun _ hfull => by simp [hafter] at hfull
      reopened := fun _ hactive => by simp [hafter] at hactive
      reclaimed := fun _ _ => by simp [hafter]
      cleared := fun _ _ => hoff
      stamped := fun _ => .inr (.inr ⟨hoff, hafter, hstamp⟩)
      rolled := fun hwritten => absurd hoff hwritten.ne_disable }

/-- While policies only reorder, the state of a unit means what it says: unused that placement is
off, full that it is on and the unit has no line to write, since it wrote all its lines. Whatever is
asked for next, the unit goes from one state to another just where it is turned on, written, emptied
or turned off, and is stamped only where it is opened or cleared. -/
theorem life_cycle (hd : Orderly μ d) :
    (∀ u unit, d.configuration.unit? u = some unit → d.InState u unit) ∧
      ∀ (r : Request μ) (u : UnitId) (before : ReclaimUnit),
        d.configuration.unit? u = some before →
          ∃ after, (d.after r).configuration.unit? u = some after ∧
            LifeStep d r.action u before after := by
  refine ⟨fun u unit hunit => inState hd.sound (hd.rested u) hd.reachable.completed hunit,
    fun r u before hunit => ?_⟩
  rw [after_eq_act]
  obtain ⟨after, hafter, hturn⟩ := turn_act hd.sound hd.reorders hd.rested hunit r.action
  exact ⟨after, hafter, hturn.lifeStep⟩

/-- A unit that was filled is filled again. The write empties it first, so that it is opened and
full once more in one go, and the stamp that it keeps is that of the opening. -/
theorem life_cycle_of_filled_again :
    ∃ fresh, build ⟨4, 2, 6, 1, by decide⟩ { handles := 2 } (.steady 0 1) = .ok fresh ∧
      let d := fresh.run ([.enable, .write (.placed 0 23 0)] : List (Request Host.Window))
      let again : Request Host.Window := .write (.placed 0 23 0)
      Orderly Host.Window d ∧ ∃ before after, d.configuration.unit? 0 = some before ∧
        (d.after again).configuration.unit? 0 = some after ∧ d.InState 0 before ∧
        before.state = .full ∧ after.state = .full ∧
        (before.openedAt, after.openedAt) = (some 0, some 3) ∧
        d.Reclaims again.action 0 ∧ d.WritesTo again.action 0 := by
  have hbuild : build ⟨4, 2, 6, 1, by decide⟩ { handles := 2 } (.steady 0 1) = .ok _ := rfl
  refine ⟨_, hbuild, ?_⟩
  intro d again
  have horderly : Orderly Host.Window d := by
    refine ⟨_, _, _, _, hbuild, _, ?_, rfl⟩
    simp [Request.Orderly]
  have hbefore : (d.configuration.unit? 0).map (fun unit => (unit.state, unit.openedAt)) =
      some (.full, some 0) := by decide +kernel
  have hafter : ((d.after again).configuration.unit? 0).map
      (fun unit => (unit.state, unit.openedAt)) = some (.full, some 3) := by decide +kernel
  obtain ⟨before, hunit, hbefore⟩ := Option.map_eq_some_iff.1 hbefore
  obtain ⟨unit, hunit', hafter⟩ := Option.map_eq_some_iff.1 hafter
  obtain ⟨hfull, hopened⟩ := Prod.mk.inj hbefore
  obtain ⟨hfull', hopened'⟩ := Prod.mk.inj hafter
  obtain ⟨hstates, hsteps⟩ := life_cycle horderly
  obtain ⟨after, hlater, hstep⟩ := hsteps again 0 before hunit
  obtain rfl : unit = after := Option.some.inj (hunit'.symm.trans hlater)
  refine ⟨horderly, before, unit, hunit, hunit', hstates 0 before hunit, hfull, hfull',
    by rw [hopened, hopened'], ?_⟩
  have hstamped := hstep.stamped (by simp [hopened, hopened'])
  simpa [hfull, hfull', again, Request.action] using hstamped

end DataPlacement.Device
