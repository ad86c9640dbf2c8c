import DataPlacement.Proofs.Allocation.Traffic
import DataPlacement.Proofs.Pool.Agreement

namespace DataPlacement.Allocation

variable {W : Option UnitId → Prop} {s t : Allocation} {es : List LineEvent} {u : UnitId}

theorem Sound.dated (hs : s.Sound) (u : UnitId) : s.pool.Dated u := by
  intro id l hline hstate
  have hfits := hs.fits id l (Pool.lineOf_eq_some_iff.1 hline).1
  rw [Line.fits_of_full hstate] at hfits
  exact hfits.2.2

/-- A change of a line that the unit does not own. -/
theorem lineOf_of_other {p q : Pool} {id : LineId} {l : Line} (l' : Line)
    (hline : p.lines[id]? = some l)
    (hlines : ∀ i : LineId, q.lines[i]? = if id = i then some l' else p.lines[i]?)
    (howner : l.owner ≠ some u) (howner' : l'.owner ≠ some u) (i : LineId) :
    q.lineOf u i = p.lineOf u i := by
  apply Option.ext
  intro m
  rw [Pool.lineOf_eq_some_iff, Pool.lineOf_eq_some_iff, hlines]
  by_cases hi : id = i
  · subst hi
    simp only [if_true, hline, Option.some.injEq]
    constructor
    · rintro ⟨rfl, howned⟩
      exact absurd howned howner'
    · rintro ⟨rfl, howned⟩
      exact absurd howned howner
  · simp [hi]

theorem Traffic.agree (h : Traffic W s es t) (hu : ¬ W (some u)) (hs : s.Sound) :
    s.pool.Agree u t.pool := by
  have ht := h.sound hs
  have hkeeps := h.keeps
  refine .of_lineOf hkeeps ?_ (fun i => ?_) (hs.dated u) (ht.dated u)
  · cases h with
    | opens ho hpointer hfree =>
      rw [pool_point, Pool.freeLines_taken _ hfree, if_neg]
      exact fun heq => hu (heq ▸ ho)
    | writes ho hpointer hcount hroom => simp
    | fills ho hpointer hcount hlast => simp
    | reclaims ho hline hstate hlist =>
      rw [Pool.freeLines_reclaimed _ _ _ _ hlist, if_neg]
      exact fun heq => hu (heq ▸ ho)
  · cases h with
    | @opens o id rest ho hpointer hfree =>
      have hmem : id ∈ s.pool.freeLines o := by simp [hfree]
      obtain ⟨l, hline, -, howner, -⟩ := hs.free_of_mem hmem
      have hother : l.owner ≠ some u := fun heq => hu (heq ▸ howner ▸ ho)
      refine lineOf_of_other l.activate hline (fun i => ?_) hother hother i
      rw [pool_point, Pool.getElem?_taken]
      exact Pool.ite_map_line hline _ i
    | @writes o id page count ho hpointer hcount hroom =>
      obtain ⟨l, hline, -, howner, -⟩ := hs.of_pointer hpointer
      have hother : l.owner ≠ some u := fun heq => hu (heq ▸ howner ▸ ho)
      refine lineOf_of_other (l.program count s.pool.pagesPerLine) hline (fun i => ?_) hother
        hother i
      rw [pool_point, Pool.getElem?_program]
      exact Pool.ite_map_line hline _ i
    | @fills o id page count ho hpointer hcount hlast =>
      obtain ⟨l, hline, hstate, howner, -⟩ := hs.of_pointer hpointer
      have hother : l.owner ≠ some u := fun heq => hu (heq ▸ howner ▸ ho)
      exact lineOf_of_other _ hline (Pool.getElem?_filled hline hstate count) hother hother i
    | @reclaims id l ho hline hstate hlist =>
      have hother : l.owner ≠ some u := fun heq => hu (heq ▸ ho)
      refine lineOf_of_other l.erase hline (fun i => ?_) hother hother i
      rw [Pool.getElem?_reclaimed]
      exact Pool.ite_map_line hline _ i

/-- Traffic on behalf of others leaves a unit's view of the pool as it was. -/
theorem agree_of_traffic (h : Steps (Traffic W) s es t) (hu : ¬ W (some u)) (hs : s.Sound) :
    s.pool.Agree u t.pool := by
  induction h with
  | refl => exact .of_lineOf (.refl _) rfl (fun _ => rfl) (hs.dated u) (hs.dated u)
  | tail hbefore hstep ih => exact ih.trans (hstep.agree hu (sound_of_traffic hbefore hs))

end DataPlacement.Allocation
