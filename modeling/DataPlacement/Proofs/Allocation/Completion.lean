import DataPlacement.Proofs.Allocation.Dissolving

namespace DataPlacement.Allocation

variable {s t : Allocation} {es : List LineEvent} {W : Option UnitId → Prop}

/-- A full line that a unit owns has no page left. -/
def Completed (s : Allocation) : Prop :=
  ∀ (id : LineId) (l : Line), s.pool.lines[id]? = some l → l.owner ≠ none → l.state = .full →
    l.pages = s.pool.pagesPerLine

/-- A change of one record leaves all full lines completed if it leaves that one completed. -/
theorem Completed.of_change (hs : s.Completed) (id : LineId) (l' : Line)
    (hlines : ∀ i : LineId, t.pool.lines[i]? = if id = i then some l' else s.pool.lines[i]?)
    (hcount : t.pool.pagesPerLine = s.pool.pagesPerLine)
    (hself : l'.owner ≠ none → l'.state = .full → l'.pages = s.pool.pagesPerLine) :
    t.Completed := by
  intro i l hline howner hstate
  rw [hlines] at hline
  rw [hcount]
  split at hline
  · obtain rfl := Option.some.inj hline
    exact hself howner hstate
  · exact hs i l hline howner hstate

theorem Traffic.completed (h : Traffic W s es t) (hs : s.Sound) (hc : s.Completed) :
    t.Completed := by
  cases h with
  | @opens o id rest _ hpointer hfree =>
    have hmem : id ∈ s.pool.freeLines o := by simp [hfree]
    obtain ⟨l, hline, -⟩ := hs.free_of_mem hmem
    refine hc.of_change id l.activate (fun i => ?_) (by simp) fun _ hfull => by cases hfull
    rw [pool_point, Pool.getElem?_taken]
    exact Pool.ite_map_line hline _ i
  | @writes o id page count _ hpointer hcount hroom =>
    obtain ⟨l, hline, hstate, -⟩ := hs.of_pointer hpointer
    refine hc.of_change id (l.program count s.pool.pagesPerLine) (fun i => ?_) rfl fun _ hfull => ?_
    · rw [pool_point, Pool.getElem?_program]
      exact Pool.ite_map_line hline _ i
    · rw [Line.program, hstate] at hfull
      cases hfull
  | @fills o id page count _ hpointer hcount hlast =>
    obtain ⟨l, hline, hstate, -⟩ := hs.of_pointer hpointer
    refine hc.of_change id _ (Pool.getElem?_filled hline hstate count) (by simp) fun _ _ => ?_
    rw [hs.program_current hpointer hline (Nat.le_of_eq hlast)]
    exact hlast
  | @reclaims id l _ hline hstate hlist =>
    refine hc.of_change id l.erase (fun i => ?_) (by simp) fun _ hfull => by cases hfull
    rw [Pool.getElem?_reclaimed]
    exact Pool.ite_map_line hline _ i

theorem Move.completed (h : Move s es t) (hs : s.Sound) (hc : s.Completed) : t.Completed := by
  cases h with
  | traffic h => exact h.completed hs hc
  | @releases id hpointer =>
    obtain ⟨l, hline, -⟩ := hs.of_pointer hpointer
    refine hc.of_change id { l with state := .free } (fun i => ?_) (by simp) fun _ hfull => by
      cases hfull
    rw [pool_point, Pool.getElem?_released]
    exact Pool.ite_map_line hline _ i
  | @retires id page hpointer hpage =>
    obtain ⟨l, hline, hstate, howner, -⟩ := hs.of_pointer hpointer
    exact hc.of_change id _ (fun i => Pool.getElem?_retire i hline hstate) (by simp)
      fun howned _ => absurd howner howned
  | reserves hnone => exact hc
  | @assigns u id rest hlist hfree =>
    have hmem : id ∈ s.pool.freeLines none := by simp [hfree]
    obtain ⟨l, hline, hstate, -⟩ := hs.free_of_mem hmem
    refine hc.of_change id { l with owner := some u } (fun i => ?_) (by simp) fun _ hfull => ?_
    · rw [Pool.getElem?_assigned]
      exact Pool.ite_map_line hline _ i
    · exact absurd (hstate.symm.trans hfull) (by decide)
  | shares =>
    intro i l hline howner hstate
    simp only [Pool.getElem?_shareReserved] at hline
    rw [Pool.pagesPerLine_shareReserved]
    split at hline
    · obtain ⟨before, -, rfl⟩ := Option.map_eq_some_iff.1 hline
      exact absurd rfl howner
    · exact hc i l hline howner hstate
  | @disowns id l u hline howner hstate =>
    refine hc.of_change id _ (Pool.getElem?_disown_of_full hline howner hstate) ?_
      fun howned _ => absurd rfl howned
    rw [Pool.disown_of_full hline howner hstate]
    rfl
  | @stops id l u hline howner hstate =>
    have hcount : (s.pool.disown id).pagesPerLine = s.pool.pagesPerLine :=
      Pool.pagesPerLine_foldl_disown [id] s.pool
    by_cases hpages : l.pages = 0
    · exact hc.of_change id _ (Pool.getElem?_disown_of_untouched hline howner hstate hpages) hcount
        fun howned _ => absurd rfl howned
    · exact hc.of_change id _ (Pool.getElem?_disown_of_written hline howner hstate hpages) hcount
        fun howned _ => absurd rfl howned

/-- All moves leave the full lines of units completed. -/
theorem completed_of_steps (h : Steps Move s es t) (hs : s.Sound) (hc : s.Completed) :
    t.Completed := by
  induction h with
  | refl => exact hc
  | tail hsteps hmove ih => exact hmove.completed (sound_of_steps hsteps hs) ih

end DataPlacement.Allocation
