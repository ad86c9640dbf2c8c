import DataPlacement.Proofs.Allocation.Switching

namespace DataPlacement

namespace Pool

variable (p : Pool) (id i : LineId)

theorem ownerOf_updateLine_disowned :
    (p.updateLine id fun l => { l with owner := none }).ownerOf i =
      if id = i then none else p.ownerOf i := by
  rw [ownerOf, getElem?_updateLine]
  split
  · cases p.lines[i]? <;> rfl
  · rfl

/-- Disowning a line changes no other owner, whatever else it does. -/
theorem keeps_disown : Keeps (p.updateLine id fun l => { l with owner := none }) (p.disown id) := by
  have hunowned (hline : ∀ l, p.lines[id]? = some l → l.owner = none) :
      Keeps (p.updateLine id fun l => { l with owner := none }) p := by
    refine ⟨fun i => ?_, by simp, rfl, rfl⟩
    rw [ownerOf_updateLine_disowned]
    split
    · next h =>
      subst h
      cases h : p.lines[id]? with
      | none => simp [ownerOf, h]
      | some l => rw [ownerOf_eq h, hline l h]
    · rfl
  unfold disown
  split
  · next hnone => exact hunowned fun l hline => by simp [hnone] at hline
  · next l hline =>
    split
    · next howner => exact hunowned fun k hk => by rwa [← Option.some.inj (hline.symm.trans hk)]
    · dsimp only
      split
      · exact .refl _
      · split
        · have hfreed := Keeps.updateLine (p.updateLine id fun l => { l with owner := none }) id
            (f := fun l => { l with state := .free }) fun _ => rfl
          exact ⟨hfreed.owners, hfreed.size, hfreed.reserved, hfreed.pagesPerLine⟩
        · exact keeps_retire _ id

theorem ownerOf_disown : (p.disown id).ownerOf i = if id = i then none else p.ownerOf i := by
  rw [(p.keeps_disown id).owners, ownerOf_updateLine_disowned]

/-- After a run over lines nobody owns them. -/
theorem ownerOf_foldl_disown (ids : List LineId) (p : Pool) :
    (ids.foldl disown p).ownerOf i = if i ∈ ids then none else p.ownerOf i := by
  induction ids generalizing p with
  | nil => simp
  | cons id ids ih =>
    rw [List.foldl_cons, ih, ownerOf_disown]
    by_cases h : id = i
    · simp [h]
    · simp [h, Ne.symm h]

theorem size_reserved_foldl_disown (ids : List LineId) (p : Pool) :
    (ids.foldl disown p).reserved.size = p.reserved.size := by
  induction ids generalizing p with
  | nil => rfl
  | cons id ids ih => rw [List.foldl_cons, ih, (p.keeps_disown id).reserved, reserved_updateLine]

theorem pagesPerLine_foldl_disown (ids : List LineId) (p : Pool) :
    (ids.foldl disown p).pagesPerLine = p.pagesPerLine := by
  induction ids generalizing p with
  | nil => rfl
  | cons id ids ih =>
    rw [List.foldl_cons, ih, (p.keeps_disown id).pagesPerLine, pagesPerLine_updateLine]

theorem ownerOf_dissolve : p.dissolve.ownerOf i = none := by
  rw [dissolve, ownerOf_foldl_disown]
  split
  · rfl
  · next hout =>
    rw [List.mem_range] at hout
    rw [ownerOf, Array.getElem?_eq_none (by omega)]
    rfl

end Pool

namespace Allocation

variable {frame : Option UnitId → WritePointer} {p : Pool}

/-- Without reserved lists an owned line is full or current, and is given back as such. -/
theorem steps_disown (hs : Sound ⟨p, frame⟩) (hnone : p.reserved.size = 0) (id : LineId) :
    ∃ frame', Steps Move ⟨p, frame⟩ [] ⟨p.disown id, frame'⟩ ∧ frame' none = frame none := by
  by_cases hunowned : ∀ l, p.lines[id]? = some l → l.owner = none
  · rw [Pool.disown_of_unowned hunowned]
    exact ⟨frame, .refl _, rfl⟩
  · push Not at hunowned
    obtain ⟨l, hline, howner⟩ := hunowned
    obtain ⟨u, hu⟩ := Option.ne_none_iff_exists'.1 howner
    cases hstate : l.state with
    | free =>
      have hmem := (hs.mem_freeLines (some u) id).2 ⟨l, hline, hstate, hu⟩
      have hlist := Pool.hasList_of_mem_freeLines hmem
      simp [Pool.hasList, hnone] at hlist
    | active =>
      exact ⟨_, .single (.stops (s := ⟨p, frame⟩) hline hu hstate), by simp⟩
    | full => exact ⟨frame, .single (.disowns (s := ⟨p, frame⟩) hline hu hstate), rfl⟩

theorem steps_foldl_disown (ids : List LineId) (hs : Sound ⟨p, frame⟩)
    (hnone : p.reserved.size = 0) :
    ∃ frame', Steps Move ⟨p, frame⟩ [] ⟨ids.foldl Pool.disown p, frame'⟩ ∧
      frame' none = frame none := by
  induction ids generalizing p frame with
  | nil => exact ⟨frame, .refl _, rfl⟩
  | cons id ids ih =>
    obtain ⟨middle, hsteps, hmiddle⟩ := steps_disown hs hnone id
    have hstill : (p.disown id).reserved.size = 0 := (p.keeps_disown id).reserved.trans hnone
    obtain ⟨last, hsteps', hlast⟩ := ih (sound_of_steps hsteps hs) hstill
    exact ⟨last, hsteps.trans hsteps', hlast.trans hmiddle⟩

/-- Giving everything back leaves the plain path where it was, and every unit without a line. -/
theorem steps_dissolve (hs : Sound ⟨p, frame⟩) :
    Steps Move ⟨p, frame⟩ [] ⟨p.dissolve, fun o => if o = none then frame none else .closed⟩ := by
  have hshared := Move.shares (s := ⟨p, frame⟩)
  obtain ⟨last, hsteps, hlast⟩ := steps_foldl_disown (List.range p.shareReserved.lines.size)
    (hshared.sound hs) (by simp)
  have hall := (Steps.single hshared).trans hsteps
  have hsound := sound_of_steps hall hs
  have hpointers : last = fun o => if o = none then frame none else .closed := by
    funext o
    cases o with
    | none => exact hlast
    | some u =>
      refine hsound.eq_closed (Option.eq_none_iff_forall_ne_some.2 fun id hcurrent => ?_)
      obtain ⟨l, hline, -, howner⟩ := (hsound.current (some u) id).1 hcurrent
      have hline : p.dissolve.lines[id]? = some l := hline
      have hnone := p.ownerOf_dissolve id
      rw [Pool.ownerOf_eq hline, howner] at hnone
      cases hnone
  rw [← hpointers]
  exact hall

end Allocation

end DataPlacement
