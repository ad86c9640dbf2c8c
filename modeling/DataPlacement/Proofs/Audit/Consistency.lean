import DataPlacement.Host.Transfer
import DataPlacement.Proofs.Audit.Places
import DataPlacement.Proofs.Device.Addressing
import DataPlacement.Proofs.Device.LeftFull
import DataPlacement.Proofs.Device.Metering
import DataPlacement.Proofs.Device.Repetition
import DataPlacement.Proofs.Pool.Wear
import Mathlib.Data.Nat.ModEq
import Mathlib.Tactic.Ring

namespace DataPlacement.Audit

variable {d : Device} {μ : Type} [Host.Memory μ]

/-! ### Counters -/

section Counters

open Journal

variable {j : List Entry}

end Counters

/-! ### The whole check -/

/-- The check of all phases gathers the findings of each. -/
theorem findings_checkAll (d : Device) :
    d.checkAll.findings = Phase.all.flatMap (findings d) := by
  have hselected : ∀ phase ∈ Phase.all, (bitRange 32 - 1).testBit phase.bit = true := by decide
  have hgather : ∀ (phases : List Phase) (r : Report),
      (∀ phase ∈ phases, (bitRange 32 - 1).testBit phase.bit = true) →
        (gather (findings d) {} phases r).findings = r.findings ++ phases.flatMap (findings d) := by
    intro phases
    induction phases with
    | nil => simp [gather]
    | cons phase phases ih =>
      intro r hbits
      have hrest := ih ⟨r.findings ++ findings d phase⟩ fun phase hphase =>
        hbits phase (by simp [hphase])
      rw [gather, if_pos (hbits phase (by simp))]
      simpa using hrest
  rw [Device.checkAll, Device.check, report, hgather Phase.all {} hselected]
  rfl

end DataPlacement.Audit
