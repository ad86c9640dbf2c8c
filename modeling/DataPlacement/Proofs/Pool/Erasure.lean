import DataPlacement.Collector
import DataPlacement.Proofs.Pool.Effects

namespace DataPlacement.Pool

variable {p : Pool} {ids : List LineId}

/-- The line is full and its owner has a list, so it can be erased. -/
def Erasable (p : Pool) (id : LineId) : Prop :=
  ∃ l, p.lines[id]? = some l ∧ l.state = .full ∧ p.hasList l.owner

theorem Erasable.reclaim_eq {id : LineId} (h : p.Erasable id) :
    p.reclaim id = ⟨.ok (p.ownerOf id), p.reclaimed (p.ownerOf id) id,
      [.reclaimed id (p.ownerOf id)]⟩ := by
  obtain ⟨l, hline, hstate, hlist⟩ := h
  simp [ownerOf, hline, reclaim_of_full hline hstate hlist]

/-- An erasure leaves the other lines as erasable as they were. -/
theorem Erasable.reclaimed {id i : LineId} {o : Option UnitId} (h : p.Erasable i) (hne : id ≠ i) :
    (p.reclaimed o id).Erasable i := by
  obtain ⟨l, hline, hstate, hlist⟩ := h
  refine ⟨l, ?_, hstate, ?_⟩
  · rw [getElem?_reclaimed, if_neg hne]
    exact hline
  · rw [(keeps_reclaimed p o id).hasList]
    exact hlist

/-- A run erases only lines that it was given, and names their owners. -/
theorem owner_of_mem_erased {r : Reclaimed} (h : r ∈ (p.eraseLines ids).erased) :
    r.line ∈ ids ∧ r.owner = p.ownerOf r.line := by
  induction ids generalizing p with
  | nil => simp [eraseLines] at h
  | cons id ids ih =>
    rw [eraseLines] at h
    obtain ⟨cause, hrefused⟩ | ⟨l, hline, hstate, hlist⟩ := p.reclaim_cases id
    · simp [hrefused, Outcome.refused] at h
    · simp only [reclaim_of_full hline hstate hlist] at h
      rcases List.mem_cons.1 h with rfl | h
      · exact ⟨by simp, (ownerOf_eq hline).symm⟩
      · obtain ⟨hmem, howner⟩ := ih h
        exact ⟨by simp [hmem], by rw [howner, (keeps_reclaimed p _ id).owners]⟩

/-- What is listed with one owner has that owner. -/
theorem owner_of_mem_map {o : Option UnitId} {r : Reclaimed}
    (hr : r ∈ ids.map fun id => (⟨id, o⟩ : Reclaimed)) : r.owner = o := by
  obtain ⟨id, -, rfl⟩ := List.mem_map.1 hr
  rfl

/-- What a run of erasures does to the views of a pool. -/
structure Erased (p : Pool) (ids : List LineId) (q : Pool) : Prop where
  lines : ∀ i : LineId, q.lines[i]? =
    if i ∈ ids then p.lines[i]?.map Line.erase else p.lines[i]?
  freeLines : ∀ o, q.freeLines o = p.freeLines o ++ ids.filter (p.ownerOf · = o)
  pagesPerLine : q.pagesPerLine = p.pagesPerLine
  retirements : q.retirements = p.retirements
  reserved : q.reserved.size = p.reserved.size

theorem Erased.nil (p : Pool) : Erased p [] p := by
  constructor <;> simp

theorem Erased.cons {id : LineId} {q : Pool} (hid : p.Erasable id) (hfresh : id ∉ ids)
    (h : Erased (p.reclaimed (p.ownerOf id) id) ids q) : Erased p (id :: ids) q := by
  have hlist : p.hasList (p.ownerOf id) := by
    obtain ⟨l, hline, -, hlist⟩ := hid
    simpa [ownerOf, hline] using hlist
  refine ⟨fun i => ?_, fun o => ?_, by simp [h.pagesPerLine], by simp [h.retirements],
    by simp [h.reserved]⟩
  · rw [h.lines, getElem?_reclaimed]
    by_cases hi : id = i
    · subst hi
      simp [hfresh]
    · simp [hi, Ne.symm hi]
  · have howner : ∀ i, (p.reclaimed (p.ownerOf id) id).ownerOf i = p.ownerOf i :=
      (keeps_reclaimed p _ id).owners
    rw [h.freeLines, freeLines_reclaimed p _ o id hlist]
    simp only [howner]
    by_cases ho : o = p.ownerOf id
    · subst ho
      simp
    · simp [ho, Ne.symm ho]

/-- To erase full lines is to change the pool. -/
theorem Erased.eq_nil (h : Erased p ids p)
    (hfull : ∀ id ∈ ids, ∃ l, p.lines[id]? = some l ∧ l.state = .full) : ids = [] := by
  refine List.eq_nil_iff_forall_not_mem.2 fun id hid => ?_
  obtain ⟨l, hline, hstate⟩ := hfull id hid
  have hsame : l = l.erase := by simpa [hid, hline] using h.lines id
  rw [hsame] at hstate
  cases hstate

/-- The run over different erasable lines: nothing is refused and everything is erased. -/
theorem eraseLines_of_erasable (hnodup : ids.Nodup) (h : ∀ id ∈ ids, p.Erasable id) :
    (p.eraseLines ids).refusal = none ∧
      (p.eraseLines ids).erased = ids.map (fun id => ⟨id, p.ownerOf id⟩) ∧
      Erased p ids (p.eraseLines ids).pool := by
  induction ids generalizing p with
  | nil => exact ⟨rfl, rfl, .nil p⟩
  | cons id ids ih =>
    obtain ⟨hfresh, hnodup⟩ := List.nodup_cons.1 hnodup
    have hid := h id (by simp)
    obtain ⟨hnone, herased, hpool⟩ := ih (p := p.reclaimed (p.ownerOf id) id) hnodup fun i hi =>
      (h i (by simp [hi])).reclaimed (fun heq => hfresh (heq ▸ hi))
    rw [eraseLines, hid.reclaim_eq]
    refine ⟨hnone, ?_, .cons hid hfresh hpool⟩
    simp [herased, (keeps_reclaimed p (p.ownerOf id) id).owners]

end DataPlacement.Pool
