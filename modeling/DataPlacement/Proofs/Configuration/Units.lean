import DataPlacement.PlainPath
import Mathlib.Logic.Function.Basic

namespace DataPlacement

/-- The state of a unit: it follows from whether placement is on and whether it has a line. -/
def UnitState.ofPointer (enabled : Bool) (w : WritePointer) : UnitState :=
  if enabled then if w.line.isSome then .active else .full else .unused

/-- A unit stays in the state that follows from its pointer when it is written. -/
theorem ReclaimUnit.state_afterFill (unit : ReclaimUnit) {f : Fill} (now : Nat)
    (hstate : unit.state = .ofPointer true unit.pointer)
    (hsame : f.lines = [] → f.pointer = unit.pointer) :
    (unit.afterFill f now).state = .ofPointer true f.pointer := by
  cases hlines : f.lines with
  | nil =>
    rw [hsame hlines, ← hstate]
    simp [ReclaimUnit.afterFill, Fill.ranDry, hlines]
  | cons first rest =>
    cases hline : f.pointer.line <;> cases hbefore : unit.pointer.line <;>
      simp [ReclaimUnit.afterFill, Fill.ranDry, UnitState.ofPointer, hlines, hline, hbefore, hstate]

namespace Configuration

variable (c : Configuration) (path : PlainPath) (u v : UnitId)

/-- What stays of a configuration: everything but counters, pointers and the switch. -/
def blank : Configuration :=
  { c with enabled := false, units := c.units.map (·.reset), totals := {}, lastUnit := none }

/-- Every unit is in the state that follows from its pointer. -/
def Settled : Prop :=
  ∀ u unit, c.unit? u = some unit → unit.state = .ofPointer c.enabled unit.pointer

/-- The pointers of the writers: of the plain path, and of every unit there is. -/
def pointers : Option UnitId → WritePointer
  | none => path.pointer
  | some u => ((c.unit? u).map (·.pointer)).getD .closed

theorem unit?_updateUnit (f : ReclaimUnit → ReclaimUnit) :
    (c.updateUnit u f).unit? v = if u = v then (c.unit? v).map f else c.unit? v := by
  simp only [unit?, updateUnit, Array.getElem?_modify]

theorem updateUnit_updateUnit (f g : ReclaimUnit → ReclaimUnit) :
    (c.updateUnit u f).updateUnit u g = c.updateUnit u fun unit => g (f unit) := by
  have hunits : (c.units.modify u f).modify u g = c.units.modify u fun unit => g (f unit) := by
    refine Array.ext_getElem? fun i => ?_
    simp only [Array.getElem?_modify]
    split
    · cases c.units[i]? <;> rfl
    · rfl
  simp only [updateUnit, hunits]

theorem updateUnit_congr {c : Configuration} {u : UnitId} {f g : ReclaimUnit → ReclaimUnit}
    (hfg : ∀ unit, c.unit? u = some unit → f unit = g unit) :
    c.updateUnit u f = c.updateUnit u g := by
  have hunits : c.units.modify u f = c.units.modify u g := by
    refine Array.ext_getElem? fun i => ?_
    simp only [Array.getElem?_modify]
    split
    · next hi =>
      subst hi
      cases hunit : c.units[u]? with
      | none => rfl
      | some unit => exact congrArg some (hfg unit hunit)
    · rfl
  simp only [updateUnit, hunits]

theorem pointers_of_unit? {c : Configuration} {u : UnitId} {unit : ReclaimUnit}
    (hunit : c.unit? u = some unit) : c.pointers path (some u) = unit.pointer := by
  simp [pointers, hunit]

theorem pointers_updateUnit {c : Configuration} {u : UnitId} {unit : ReclaimUnit}
    (hunit : c.unit? u = some unit) (f : ReclaimUnit → ReclaimUnit) :
    (c.updateUnit u f).pointers path =
      Function.update (c.pointers path) (some u) (f unit).pointer := by
  funext o
  cases o with
  | none => simp [pointers]
  | some v =>
    simp only [pointers, unit?_updateUnit, Function.update_apply, Option.some.injEq]
    by_cases huv : u = v
    · subst huv
      simp [hunit]
    · simp [huv, Ne.symm huv]

theorem pointers_setPath (w : WritePointer) (bytes writes : Nat) :
    c.pointers ⟨w, bytes, writes⟩ = Function.update (c.pointers path) none w := by
  funext o
  cases o <;> simp [pointers]

theorem pointers_countWrite (bytes : Nat) :
    (c.countWrite u bytes).pointers path = c.pointers path := by
  funext o
  cases o with
  | none => rfl
  | some v =>
    simp only [pointers, unit?, countWrite, Array.getElem?_modify]
    split
    · cases c.units[v]? <;> simp [ReclaimUnit.countWrite]
    · rfl

theorem blank_updateUnit {f : ReclaimUnit → ReclaimUnit}
    (hf : ∀ unit, (f unit).reset = unit.reset) :
    (c.updateUnit u f).blank = c.blank := by
  have hunits : (c.units.modify u f).map (·.reset) = c.units.map (·.reset) := by
    apply Array.ext_getElem?
    intro i
    simp only [Array.getElem?_map, Array.getElem?_modify]
    split
    · cases c.units[i]? <;> simp [hf]
    · rfl
  simp [blank, updateUnit, hunits]

theorem blank_countWrite (bytes : Nat) : (c.countWrite u bytes).blank = c.blank :=
  c.blank_updateUnit u (f := (·.countWrite bytes)) fun _ => rfl

theorem size_units_eq_of_blank {c c' : Configuration} (h : c'.blank = c.blank) :
    c'.units.size = c.units.size := by
  simpa [blank] using congrArg (fun c => c.units.size) h

theorem pageSize_eq_of_blank {c c' : Configuration} (h : c'.blank = c.blank) :
    c'.pageSize = c.pageSize := by
  simpa [blank] using congrArg (fun c => c.pageSize) h

theorem resolve_eq_of_blank {c c' : Configuration} (h : c'.blank = c.blank)
    (placement : Placement) : c'.resolve placement = c.resolve placement := by
  have hresolve := congrArg (fun c => c.resolve placement) h
  exact hresolve

theorem placementOf_eq_of_blank {c c' : Configuration} (h : c'.blank = c.blank)
    (identifier : Nat) : c'.placementOf identifier = c.placementOf identifier := by
  have hplacement := congrArg (fun c => c.placementOf identifier) h
  exact hplacement

theorem settled_updateUnit {c : Configuration} {u : UnitId} {f : ReclaimUnit → ReclaimUnit}
    (hc : c.Settled)
    (hf : ∀ unit, c.unit? u = some unit → (f unit).state = .ofPointer c.enabled (f unit).pointer) :
    (c.updateUnit u f).Settled := by
  intro v unit hunit
  rw [unit?_updateUnit] at hunit
  split at hunit
  · next huv =>
    subst huv
    obtain ⟨before, hbefore, rfl⟩ := Option.map_eq_some_iff.1 hunit
    exact hf before hbefore
  · exact hc v unit hunit

theorem settled_countWrite {c : Configuration} (hc : c.Settled) (u : UnitId) (bytes : Nat) :
    (c.countWrite u bytes).Settled :=
  settled_updateUnit (f := (·.countWrite bytes)) hc fun unit hunit => hc u unit hunit

/-- The configuration after placement was turned off. -/
def switchedOff : Configuration :=
  { c with enabled := false, units := c.units.map (·.reset), lastUnit := none }

theorem blank_switchedOff : c.switchedOff.blank = c.blank := by
  have hreset : ∀ unit : ReclaimUnit, unit.reset.reset = unit.reset := fun _ => rfl
  simp [switchedOff, blank, hreset]

theorem settled_switchedOff : c.switchedOff.Settled := by
  intro u unit hunit
  simp only [switchedOff, unit?, Array.getElem?_map] at hunit
  obtain ⟨before, -, rfl⟩ := Option.map_eq_some_iff.1 hunit
  rfl

theorem pointers_switchedOff :
    c.switchedOff.pointers path = fun o => if o = none then c.pointers path none else .closed := by
  funext o
  cases o with
  | none => rfl
  | some u =>
    simp only [pointers, switchedOff, unit?, Array.getElem?_map]
    cases c.units[u]? <;> rfl

end Configuration

end DataPlacement
