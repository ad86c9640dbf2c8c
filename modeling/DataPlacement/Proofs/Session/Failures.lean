import DataPlacement.Proofs.Session.Driving

namespace DataPlacement

namespace Session

open Scenario (Failure Step)

variable {g : Geometry} {s : Session} {step : Step} {cause f : Failure}

/-- How a step can fail on a device. -/
inductive Fault (d : Device) : Step → Failure → Prop where
  /-- Some unit would get no line. -/
  | enable (u : UnitId) (hrefused : d.enable.result = .error (.distributionFailed u)) :
      Fault d .enable (.device (.distributionFailed u))
  /-- The same, where placement is turned on by a toggle. -/
  | enablingToggle (u : UnitId) (hrefused : d.enable.result = .error (.distributionFailed u)) :
      Fault d (.toggle Toggle.enablePlacement.code)
        (.toggleRefused Toggle.enablePlacement.code (Error.distributionFailed u).status)
  | unknownToggle (code : Nat) (hunknown : Toggle.ofCode? code = none) :
      Fault d (.toggle code)
        (.toggleRefused code (Error.invalidParameters "unknown toggle code").status)
  /-- The counters have run over in the course of what was written. -/
  | check {g : Geometry} {j : List Entry} (hled : d.Led g j) (hover : d.Overrun j) :
      Fault d .check (.checkFailed d.checkAll)

/-! ### Steps -/

theorem runFrom_cons_of_error (index : Nat) (rest : List Step)
    (h : (s.perform step).result = .error cause) :
    (s.runFrom index (step :: rest)).result = .error (.inStep index step.name cause) := by
  rw [runFrom, h]
  rfl

theorem runFrom_cons_of_ok (index : Nat) (rest : List Step) (h : (s.perform step).result = .ok ()) :
    let later := (s.perform step).session.addStep.runFrom (index + 1) rest
    (s.runFrom index (step :: rest)).result = later.result ∧
      (s.runFrom index (step :: rest)).session = later.session := by
  intro later
  rw [runFrom, h]
  exact ⟨rfl, rfl⟩

end Session

end DataPlacement
