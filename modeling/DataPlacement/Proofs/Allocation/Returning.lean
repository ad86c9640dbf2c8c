import DataPlacement.Proofs.Allocation.Dissolving
import DataPlacement.Proofs.Pool.Disowning

namespace DataPlacement.Allocation

variable {s t : Allocation} {es : List LineEvent}

/-! ### How many lines there are -/

theorem Traffic.size_lines {W : Option UnitId → Prop} (h : Traffic W s es t) :
    t.pool.lines.size = s.pool.lines.size := by
  cases h with
  | opens => exact (Pool.keeps_taken _ _ _ _).size
  | writes => exact (Pool.keeps_program _ _ _).size
  | fills => exact ((Pool.keeps_program _ _ _).trans (Pool.keeps_retire _ _)).size
  | reclaims => exact (Pool.keeps_reclaimed _ _ _).size

theorem Move.size_lines (h : Move s es t) : t.pool.lines.size = s.pool.lines.size := by
  have hdisown (id : LineId) : (s.pool.disown id).lines.size = s.pool.lines.size := by
    rw [(s.pool.keeps_disown id).size, Pool.size_lines_updateLine]
  cases h with
  | traffic h => exact h.size_lines
  | releases => exact (Pool.keeps_released _ _ _).size
  | retires => exact (Pool.keeps_retire _ _).size
  | reserves => rfl
  | assigns => simp [Pool.assigned]
  | shares => exact s.pool.size_lines_shareReserved
  | disowns => exact hdisown _
  | stops => exact hdisown _

theorem size_lines_of_steps (h : Steps Move s es t) :
    t.pool.lines.size = s.pool.lines.size :=
  h.preserves (P := fun r => r.pool.lines.size = s.pool.lines.size)
    (fun _ _ _ hsize hmove => hmove.size_lines.trans hsize) rfl

/-- Only lines that there are can be erased. -/
theorem Move.lt_size_of_erased (h : Move s es t) {id : LineId} (hid : .erased id ∈ es) :
    id < s.pool.lines.size := by
  cases h with
  | traffic h =>
    cases h with
    | opens => cases hid
    | writes | fills => simp at hid
    | reclaims _ hline =>
      obtain rfl := LineEvent.erased.inj (List.mem_singleton.1 hid)
      exact (Array.getElem?_eq_some_iff.1 hline).1
  | releases | retires | reserves | assigns | shares | disowns | stops => cases hid

theorem lt_size_of_erased (h : Steps Move s es t) {id : LineId} (hid : .erased id ∈ es) :
    id < s.pool.lines.size := by
  induction h with
  | refl => cases hid
  | tail hsteps hmove ih =>
    rcases List.mem_append.1 hid with hid | hid
    · exact ih hid
    · exact size_lines_of_steps hsteps ▸ hmove.lt_size_of_erased hid

/-! ### Giving everything back -/

namespace Sound

variable (hs : s.Sound) (i : LineId)
include hs

/-- Sharing the free lines of the units is not seen by what does not look at free lines. -/
theorem any_shareReserved {holds : Line → Bool} (hfree : ∀ l, l.state = .free → holds l = false) :
    s.pool.shareReserved.lines[i]?.any holds = s.pool.lines[i]?.any holds := by
  rw [Pool.getElem?_shareReserved]
  split
  · next hmem =>
    obtain ⟨u, hu⟩ := (s.pool.mem_reservedLines i).1 hmem
    obtain ⟨l, hline, hstate, -⟩ := hs.free_of_mem hu
    simp [hline, hfree l hstate, hfree { l with owner := none } hstate]
  · rfl

theorem untouched_shareReserved : s.pool.shareReserved.untouched i = s.pool.untouched i :=
  hs.any_shareReserved i fun l hstate => by simp [hstate]

theorem begun_shareReserved : s.pool.shareReserved.begun i = s.pool.begun i :=
  hs.any_shareReserved i fun l hstate => by simp [hstate]

/-- A free line of a unit has nothing but its owner to lose, be it as one of the list or as one of
the owned lines. -/
theorem disowned_shareReserved (n : Nat) :
    s.pool.shareReserved.lines[i]?.map (Line.disowned n) =
      s.pool.lines[i]?.map (Line.disowned n) := by
  rw [Pool.getElem?_shareReserved]
  split
  · next hmem =>
    obtain ⟨u, hu⟩ := (s.pool.mem_reservedLines i).1 hmem
    obtain ⟨l, hline, hstate, -⟩ := hs.free_of_mem hu
    have hinactive : l.state ≠ .active := by simp [hstate]
    simp [hline, Line.disowned_of_unowned, Line.disowned_of_inactive hinactive]
  · rfl

theorem getElem?_dissolve :
    ∃ n, s.pool.dissolve.lines[i]? = s.pool.lines[i]?.map (Line.disowned n) := by
  by_cases hi : i ∈ List.range s.pool.shareReserved.lines.size
  · obtain ⟨n, hline⟩ := Pool.getElem?_foldl_disown s.pool.shareReserved List.nodup_range hi
    exact ⟨n, hline.trans (hs.disowned_shareReserved i n)⟩
  · have hnone : s.pool.shareReserved.lines[i]? = none := by
      rw [List.mem_range, Nat.not_lt] at hi
      exact Array.getElem?_eq_none hi
    refine ⟨0, ?_⟩
    rw [Pool.dissolve, Pool.getElem?_foldl_disown_of_not_mem _ hi, ← hs.disowned_shareReserved i,
      hnone]
    rfl

omit i in
/-- The shared list is continued by the lists of the units, and by the current lines to which
nothing was written. -/
theorem freeLines_dissolve :
    s.pool.dissolve.freeLines none = s.pool.freeLines none ++ s.pool.reservedLines ++
      (List.range s.pool.lines.size).filter s.pool.untouched := by
  have huntouched : s.pool.shareReserved.untouched = s.pool.untouched :=
    funext hs.untouched_shareReserved
  rw [Pool.dissolve, Pool.freeLines_foldl_disown _ List.nodup_range, Pool.freeLines_shareReserved,
    if_pos rfl, huntouched, Pool.size_lines_shareReserved]

end Sound

end DataPlacement.Allocation
