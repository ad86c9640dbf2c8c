import DataPlacement.Proofs.Device.Admission

namespace DataPlacement

namespace Toggle

theorem code_of_ofCode? {t : Toggle} {code : Nat} (h : ofCode? code = some t) : t.code = code := by
  simpa using List.find?_some h

end Toggle

namespace Configuration

variable {c : Configuration} {p : Pool} {placement : Placement} {block bytes now : Nat}

end Configuration

namespace Device

variable {d : Device} {w : WriteCommand} {cause : Error} {u : UnitId}

/-! ### Switching -/

section Collecting

variable (hd : d.Sound) (hc : d.collector.policy.Reorders)
include hd hc

theorem accepted_collect (budget : Option Nat) (wanted : Candidate → Bool) :
    ∃ erased, (d.collect budget wanted).result = .ok erased := by
  obtain ⟨hresult, -, -⟩ := pass_of_reorders budget wanted hd hc
  rw [collect_of_ok budget hresult]
  exact ⟨_, rfl⟩

theorem accepted_gc (budget : Option Nat) : ∃ erased, (d.gc budget).result = .ok erased :=
  accepted_collect hd hc budget _

end Collecting

/-! ### Writing -/

section Writing

variable {placement : Placement} {block bytes now : Nat} (hzero : bytes ≠ 0)
  (hwhole : bytes % d.geometry.pageSize = 0) (b : Nat)
include hzero hwhole

end Writing

end Device

end DataPlacement
