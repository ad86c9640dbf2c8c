import DataPlacement.Proofs.Allocation.Switching
import DataPlacement.Proofs.Pool.Ownership

namespace DataPlacement.Allocation

variable {frame : Option UnitId → WritePointer} {p : Pool}

theorem steps_moveShared {u : UnitId} {count : Nat} (hs : Sound ⟨p, frame⟩)
    (hlist : p.hasList (some u)) (hcount : count ≤ (p.freeLines none).length) :
    ∃ q, p.moveShared u count = .done () q ∧ Steps Move ⟨p, frame⟩ [] ⟨q, frame⟩ ∧
      p.Dealt (fun v => if v = u then count else 0) count q := by
  induction count generalizing p with
  | zero => exact ⟨p, rfl, .refl _, (Pool.Dealt.refl p).congr fun v => by simp⟩
  | succ count ih =>
    cases hfree : p.freeLines none with
    | nil => simp [hfree] at hcount
    | cons id rest =>
      have hmem : id ∈ p.freeLines none := by simp [hfree]
      obtain ⟨l, hline, -, howner, -⟩ := hs.free_of_mem hmem
      have hstep := Move.assigns (s := ⟨p, frame⟩) hlist hfree
      have hdealt := Pool.dealt_assigned hlist hfree hline howner
      have hroom : count ≤ ((p.assigned u id rest).freeLines none).length := by
        have hshared := hdealt.shared
        omega
      obtain ⟨q, hmove, hsteps, hrest⟩ := ih (hstep.sound hs) (hdealt.hasList _ ▸ hlist) hroom
      refine ⟨q, by rw [Pool.moveShared_succ hfree, hmove], (Steps.single hstep).trans hsteps, ?_⟩
      rw [Nat.add_comm count 1]
      refine (hdealt.trans hrest).congr fun v => ?_
      split <;> rfl

theorem steps_assign {u : UnitId} {count : Nat} (hs : Sound ⟨p, frame⟩)
    (hlist : p.hasList (some u)) (hcount : count ≤ (p.freeLines none).length) :
    ∃ q, p.assign u count = .done () q ∧ Steps Move ⟨p, frame⟩ [] ⟨q, frame⟩ ∧
      p.Dealt (fun v => if v = u then count else 0) count q := by
  obtain ⟨q, hmove, hrest⟩ := steps_moveShared hs hlist hcount
  refine ⟨q, ?_, hrest⟩
  have hroom : ¬ p.shared.size < count := by
    rw [Pool.size_shared_eq_length]
    omega
  rw [Pool.assign, if_neg (by simp [hlist]), if_neg hroom, hmove]

/-- The share of a unit when the units from `first` on are given these shares in order. -/
def shareOf (first : Nat) (counts : List Nat) (u : Nat) : Nat :=
  if first ≤ u then counts.getD (u - first) 0 else 0

theorem shareOf_cons (first count : Nat) (counts : List Nat) (u : Nat) :
    shareOf first (count :: counts) u =
      (if u = first then count else 0) + shareOf (first + 1) counts u := by
  unfold shareOf
  by_cases heq : u = first
  · simp [heq]
  · by_cases hlt : first < u
    · have hle : first ≤ u := by omega
      have hsub : u - first = (u - (first + 1)) + 1 := by omega
      rw [if_pos hle, if_neg heq, if_pos (Nat.succ_le_of_lt hlt), hsub, List.getD_cons_succ,
        Nat.zero_add]
    · rw [if_neg (by omega), if_neg heq, if_neg (by omega)]

theorem steps_assignShares {first : UnitId} {counts : List Nat} (hs : Sound ⟨p, frame⟩)
    (hlist : ∀ i < counts.length, p.hasList (some (first + i)))
    (hsum : counts.sum ≤ (p.freeLines none).length) :
    ∃ q, p.assignShares first counts = .done () q ∧ Steps Move ⟨p, frame⟩ [] ⟨q, frame⟩ ∧
      p.Dealt (shareOf first counts) counts.sum q := by
  induction counts generalizing first p with
  | nil =>
    refine ⟨p, rfl, .refl _, (Pool.Dealt.refl p).congr fun v => ?_⟩
    simp [shareOf]
  | cons count counts ih =>
    rw [List.sum_cons] at hsum
    have hfirst : p.hasList (some first) := hlist 0 (by simp)
    have hcount : count ≤ (p.freeLines none).length := by omega
    obtain ⟨q, hassign, hsteps, hdealt⟩ := steps_assign hs hfirst hcount
    have hshared := hdealt.shared
    have hlater : ∀ i < counts.length, q.hasList (some (first + 1 + i)) := by
      intro i hi
      rw [hdealt.hasList, Nat.add_assoc, Nat.add_comm 1 i]
      exact hlist (i + 1) (by simpa using hi)
    obtain ⟨r, hrest, hsteps', hdealt'⟩ := ih (sound_of_steps hsteps hs) hlater (by omega)
    refine ⟨r, ?_, hsteps.trans hsteps', ?_⟩
    · rw [Pool.assignShares, hassign]
      exact hrest
    · rw [List.sum_cons]
      exact (hdealt.trans hdealt').congr (shareOf_cons first count counts)

end DataPlacement.Allocation
