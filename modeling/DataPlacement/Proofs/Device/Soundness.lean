import DataPlacement.Device.Writes
import DataPlacement.Proofs.Allocation.Switching
import DataPlacement.Proofs.Configuration.Units

namespace DataPlacement.Device

open Allocation

/-- The pool of the device with the pointers of its writers. -/
def allocation (d : Device) : Allocation := ⟨d.pool, d.configuration.pointers d.path⟩

/-- The allocation is sound, units are in the states of their pointers, there is one list per
unit while placement is on and none else, no line is owned without a list, and the sizes are
those of the geometry. -/
structure Sound (d : Device) : Prop where
  allocation : d.allocation.Sound
  settled : d.configuration.Settled
  reserved : d.pool.reserved.size = if d.enabled then d.configuration.units.size else 0
  housed : ∀ id, d.pool.hasList (d.pool.ownerOf id)
  geometry : d.geometry.validate = .ok ()
  pageSize : d.configuration.pageSize = d.geometry.pageSize
  pagesPerLine : d.pool.pagesPerLine = d.geometry.pagesPerLine

/-- From one device to another by traffic on behalf of the owners in `W`. -/
structure Advances (W : Option UnitId → Prop) (d : Device) (es : List LineEvent) (d' : Device) :
    Prop where
  steps : Steps (Traffic W) d.allocation es d'.allocation
  geometry : d'.geometry = d.geometry
  policy : d'.collector.policy = d.collector.policy
  blank : d'.configuration.blank = d.configuration.blank
  enabled : d'.enabled = d.enabled
  settled : d.configuration.Settled → d'.configuration.Settled
  units : ∀ u, ¬ W (some u) → d'.configuration.unit? u = d.configuration.unit? u

variable {W : Option UnitId → Prop} {d d' d'' : Device} {es fs : List LineEvent}

namespace Advances

theorem refl (d : Device) : Advances W d [] d :=
  ⟨.refl _, rfl, rfl, rfl, rfl, id, fun _ _ => rfl⟩

/-- Counts, the trace and the clock have no part in traffic. -/
theorem recount (d : Device) (accounting : Accounting) (tracing : Bool) (clock : Clock) :
    Advances W d [] { d with accounting := accounting, tracing := tracing, clock := clock } :=
  ⟨.refl _, rfl, rfl, rfl, rfl, id, fun _ _ => rfl⟩

theorem tick (d : Device) : Advances W d [] d.tick :=
  .recount d d.accounting d.tracing d.clock.next

theorem trans (h : Advances W d es d') (h' : Advances W d' fs d'') :
    Advances W d (es ++ fs) d'' where
  steps := h.steps.trans h'.steps
  geometry := h'.geometry.trans h.geometry
  policy := h'.policy.trans h.policy
  blank := h'.blank.trans h.blank
  enabled := h'.enabled.trans h.enabled
  settled hs := h'.settled (h.settled hs)
  units u hu := (h'.units u hu).trans (h.units u hu)

theorem keeps (h : Advances W d es d') : d.pool.Keeps d'.pool := keeps_of_traffic h.steps

/-- What traffic makes of a sound device is sound. -/
theorem sound (h : Advances W d es d') (hd : d.Sound) : d'.Sound where
  allocation := sound_of_traffic h.steps hd.allocation
  settled := h.settled hd.settled
  reserved := by
    rw [h.keeps.reserved, h.enabled, Configuration.size_units_eq_of_blank h.blank]
    exact hd.reserved
  housed id := by
    rw [h.keeps.owners, h.keeps.hasList]
    exact hd.housed id
  geometry := h.geometry ▸ hd.geometry
  pageSize := by
    have hsize := congrArg Configuration.pageSize h.blank
    exact h.geometry ▸ hsize.trans hd.pageSize
  pagesPerLine := by
    rw [h.keeps.pagesPerLine, h.geometry]
    exact hd.pagesPerLine

end Advances

namespace Sound

theorem tick (hd : d.Sound) : d.tick.Sound :=
  (Advances.tick (W := fun _ => True) d).sound hd

/-- Only units own lines, and only while placement is on. -/
theorem unit_of_owner (hd : d.Sound) {id : LineId} {l : Line} {u : UnitId}
    (hline : d.pool.lines[id]? = some l) (howner : l.owner = some u) :
    d.enabled ∧ u < d.configuration.units.size := by
  have hlist := hd.housed id
  rw [Pool.ownerOf_eq hline, howner, Pool.hasList, hd.reserved, decide_eq_true_eq] at hlist
  split at hlist
  · next henabled => exact ⟨henabled, hlist⟩
  · exact absurd hlist (Nat.not_lt_zero u)

theorem page_lt (hd : d.Sound) {u : UnitId} {unit : ReclaimUnit}
    (hunit : d.configuration.unit? u = some unit) : unit.pointer.page < d.pool.pagesPerLine := by
  have hpointer : d.allocation.pointer (some u) = unit.pointer :=
    Configuration.pointers_of_unit? d.path hunit
  have hlines := hd.allocation.page_lt (some u)
  rwa [hpointer] at hlines

theorem page_le (hd : d.Sound) {u : UnitId} {unit : ReclaimUnit}
    (hunit : d.configuration.unit? u = some unit) : unit.pointer.page ≤ d.pool.pagesPerLine :=
  Nat.le_of_lt (hd.page_lt hunit)

/-- A unit is full if and only if it has no line, while placement is on. -/
theorem pointer_of_full (hd : d.Sound) {u : UnitId} {unit : ReclaimUnit}
    (hunit : d.configuration.unit? u = some unit) (hfull : unit.state = .full) :
    unit.pointer = .closed := by
  have hpointer : d.allocation.pointer (some u) = unit.pointer :=
    Configuration.pointers_of_unit? d.path hunit
  have hstate := hd.settled u unit hunit
  rw [hfull] at hstate
  have hnone : unit.pointer.line = none := by
    cases hline : unit.pointer.line with
    | none => rfl
    | some id => cases henabled : d.configuration.enabled <;>
        simp [UnitState.ofPointer, hline, henabled] at hstate
  rw [← hpointer] at hnone ⊢
  exact hd.allocation.eq_closed hnone

end Sound

end DataPlacement.Device
