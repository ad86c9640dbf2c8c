import DataPlacement.Proofs.Pool.Candidates
import DataPlacement.Proofs.Pool.Erasure

namespace DataPlacement

namespace Pool

variable {p : Pool} {ids : List LineId}

/-- After the erasure of a line it is not erasable, and the others are erasable if they were. -/
theorem Erasable.of_reclaimed {o : Option UnitId} {id i : LineId}
    (h : (p.reclaimed o id).Erasable i) : id ≠ i ∧ p.Erasable i := by
  obtain ⟨l, hline, hstate, hlist⟩ := h
  rw [getElem?_reclaimed] at hline
  by_cases hi : id = i
  · rw [if_pos hi] at hline
    obtain ⟨before, -, rfl⟩ := Option.map_eq_some_iff.1 hline
    cases hstate
  · rw [if_neg hi] at hline
    rw [(keeps_reclaimed p o id).hasList] at hlist
    exact ⟨hi, l, hline, hstate, hlist⟩

/-- A run of erasures carries out the first ones, and all of them unless it is refused. -/
theorem exists_erased (p : Pool) (ids : List LineId) :
    ∃ done left, ids = done ++ left ∧ done.Nodup ∧ (∀ id ∈ done, p.Erasable id) ∧
      (p.eraseLines ids).erased = done.map (fun id => ⟨id, p.ownerOf id⟩) ∧
      Erased p done (p.eraseLines ids).pool ∧
      ((p.eraseLines ids).refusal = none ↔ left = []) := by
  induction ids generalizing p with
  | nil => exact ⟨[], [], rfl, .nil, by simp, rfl, .nil p, iff_of_true rfl rfl⟩
  | cons id ids ih =>
    rw [eraseLines]
    obtain ⟨cause, hrefused⟩ | ⟨l, hline, hstate, hlist⟩ := p.reclaim_cases id
    · rw [hrefused]
      exact ⟨[], id :: ids, rfl, .nil, by simp, rfl, .nil p, by simp [Outcome.refused]⟩
    · have hid : p.Erasable id := ⟨l, hline, hstate, hlist⟩
      obtain ⟨done, left, hids, hnodup, herasable, herased, hpool, hrefusal⟩ :=
        ih (p.reclaimed (p.ownerOf id) id)
      have hfresh : id ∉ done := fun hmem => (herasable id hmem).of_reclaimed.1 rfl
      rw [hid.reclaim_eq]
      refine ⟨id :: done, left, by rw [hids, List.cons_append],
        List.nodup_cons.2 ⟨hfresh, hnodup⟩, ?_, ?_, .cons hid hfresh hpool, hrefusal⟩
      · intro i hi
        obtain rfl | hi := List.mem_cons.1 hi
        · exact hid
        · exact (herasable i hi).of_reclaimed.2
      · simp [herased, (keeps_reclaimed p (p.ownerOf id) id).owners]

/-- A run of erasures is refused if and only if a line stands in it twice, or one that cannot be
erased. -/
theorem refusal_eraseLines_eq_none_iff :
    (p.eraseLines ids).refusal = none ↔ ids.Nodup ∧ ∀ id ∈ ids, p.Erasable id := by
  constructor
  · intro hnone
    obtain ⟨done, left, hids, hnodup, herasable, -, -, hrefusal⟩ := p.exists_erased ids
    obtain rfl := hrefusal.1 hnone
    rw [List.append_nil] at hids
    exact hids ▸ ⟨hnodup, herasable⟩
  · rintro ⟨hnodup, herasable⟩
    exact (eraseLines_of_erasable hnodup herasable).1

end Pool

/-! ### Policies that may repeat themselves -/

theorem VictimPolicy.selects_repeating : repeating.Selects := by
  intro candidates candidate hmem
  have hperm : (byAge candidates).Perm candidates := reorders_oldestFirst candidates
  apply hperm.subset
  simp only [repeating] at hmem
  split at hmem
  · next first second rest hages =>
    rw [hages]
    simp only [List.mem_cons] at hmem ⊢
    tauto
  · exact hmem

end DataPlacement
