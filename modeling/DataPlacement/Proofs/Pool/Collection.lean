import DataPlacement.Proofs.Pool.Candidates
import DataPlacement.Proofs.Pool.Erasure

namespace DataPlacement

namespace Pool

variable {p : Pool} {wanted : Candidate → Bool}

/-- Every full line has a list to go to: it has no owner, or its owner has a list. -/
def Housed (p : Pool) : Prop :=
  ∀ (id : LineId) (l : Line), p.lines[id]? = some l → l.state = .full → p.hasList l.owner

theorem housed_iff : p.Housed ↔ ∀ l ∈ p.lines, l.state = .full → p.hasList l.owner := by
  simp only [Housed, Array.mem_iff_getElem?, forall_exists_index]
  exact forall_comm

instance : Decidable p.Housed := decidable_of_iff _ housed_iff.symm

/-- The full lines that are wanted, in line order. -/
def wantedFull (p : Pool) (wanted : Candidate → Bool) : List Candidate :=
  (p.numberedLines.filter fun (id, l) => l.state = .full ∧ wanted ⟨id, l⟩).map
    fun (id, l) => ⟨id, l⟩

end Pool

namespace Collector

variable {c : Collector} {p : Pool} {budget : Option Nat} {wanted : Candidate → Bool}

/-- How many of `count` lines a budget allows to erase. No budget stands for no limit. -/
def allowance (budget : Option Nat) (count : Nat) : Nat :=
  match budget with
  | none => count
  | some n => min n count

/-- What a pass sets out to erase: the first lines of the policy's order, as many as the budget
allows. -/
def chosen (c : Collector) (p : Pool) (budget : Option Nat) (wanted : Candidate → Bool) :
    List Candidate :=
  (c.policy.order (p.wantedFull wanted)).take (allowance budget (p.wantedFull wanted).length)

/-- The lines of a pass with their owners. -/
def reclaims (c : Collector) (p : Pool) (budget : Option Nat) (wanted : Candidate → Bool) :
    List Reclaimed :=
  (c.chosen p budget wanted).map fun v => ⟨v.id, v.line.owner⟩

end Collector

end DataPlacement
