import DataPlacement.Proofs.Allocation.Traffic
import DataPlacement.Proofs.Pool.Erasure

namespace DataPlacement

/-- The line that a notice tells the erasure of. -/
def Notice.erasedLine? : Notice → Option LineId
  | .reclaimed line _ => some line
  | _ => none

/-- The erasures that notices tell of, oldest first. -/
def erasures (notices : List Notice) : List LineEvent :=
  (notices.filterMap Notice.erasedLine?).map .erased

theorem erasures_append (earlier later : List Notice) :
    erasures (earlier ++ later) = erasures earlier ++ erasures later := by
  simp [erasures]

theorem erasures_cons {n : Notice} (h : n.erasedLine? = none) (notices : List Notice) :
    erasures (n :: notices) = erasures notices := by
  simp [erasures, h]

theorem erasures_ite {n : Notice} (h : n.erasedLine? = none) (given : Bool) :
    erasures (if given then [n] else []) = [] := by
  cases given with
  | false => rfl
  | true => exact erasures_cons h []

/-- The notices of a pass tell of every line that it erased. -/
theorem Collector.erasures_collect (c : Collector) (p : Pool) (budget : Option Nat)
    (wanted : Candidate → Bool) :
    erasures (c.collect p budget wanted).notices =
      (p.eraseLines (c.victims p budget wanted)).erased.map fun r => .erased r.line := by
  have hreclaimed : ∀ erased : List Reclaimed,
      erasures (erased.map fun r => Notice.reclaimed r.line r.owner) =
        erased.map fun r => .erased r.line := by
    intro erased
    simp [erasures, List.filterMap_map, Function.comp_def, Notice.erasedLine?]
  unfold collect
  dsimp only
  split
  · exact hreclaimed _
  · simp only [Outcome.done, erasures_append, hreclaimed]
    exact List.append_nil _

/-- A pass leaves the pool of its run of erasures. -/
theorem Collector.state_collect (c : Collector) (p : Pool) (budget : Option Nat)
    (wanted : Candidate → Bool) :
    (c.collect p budget wanted).state.2 = (p.eraseLines (c.victims p budget wanted)).pool := by
  unfold collect
  dsimp only
  split <;> rfl

namespace Allocation

variable {W : Option UnitId → Prop}

theorem steps_eraseLines (frame : Option UnitId → WritePointer) (ids : List LineId) (p : Pool)
    (howner : ∀ id ∈ ids, W (p.ownerOf id)) :
    Steps (Traffic W) ⟨p, frame⟩ ((p.eraseLines ids).erased.map fun r => .erased r.line)
      ⟨(p.eraseLines ids).pool, frame⟩ := by
  induction ids generalizing p with
  | nil => exact .refl _
  | cons id ids ih =>
    rw [Pool.eraseLines]
    obtain ⟨cause, hrefused⟩ | ⟨l, hline, hstate, hlist⟩ := p.reclaim_cases id
    · rw [hrefused]
      exact .refl _
    · have ho := howner id (by simp)
      rw [Pool.ownerOf_eq hline] at ho
      rw [Pool.reclaim_of_full hline hstate hlist]
      refine (Steps.single (.reclaims ho (s := ⟨p, frame⟩) hline hstate hlist)).trans (ih _ ?_)
      intro i hi
      rw [(Pool.keeps_reclaimed p _ id).owners]
      exact howner i (by simp [hi])

end Allocation

end DataPlacement
