import DataPlacement.Proofs.Pool.Ownership
import Mathlib.Algebra.BigOperators.Group.Finset.Basic
import Mathlib.Algebra.BigOperators.Option

namespace DataPlacement

namespace Pool

variable {p : Pool}

/-- How often a line was erased. -/
def erasesOf (p : Pool) (id : LineId) : Nat := (p.lines[id]?.map (·.erases)).getD 0

theorem erasesOf_eq {id : LineId} {l : Line} (hline : p.lines[id]? = some l) :
    p.erasesOf id = l.erases := by
  simp [erasesOf, hline]

end Pool

end DataPlacement
