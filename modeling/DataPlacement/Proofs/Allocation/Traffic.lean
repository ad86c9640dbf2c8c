import DataPlacement.Proofs.Allocation.Moves

namespace DataPlacement.Allocation

variable {W : Option UnitId → Prop} {s t : Allocation} {es : List LineEvent}

namespace Sound

theorem opens (hs : s.Sound) {o : Option UnitId} {id : LineId} {rest : List LineId}
    (hpointer : s.pointer o = .closed) (hfree : s.pool.freeLines o = id :: rest) :
    (point ⟨s.pool.taken o id rest, s.pointer⟩ o (.start id)).Sound := by
  have hmem : id ∈ s.pool.freeLines o := by simp [hfree]
  obtain ⟨l, hline, hstate, howner, -⟩ := hs.free_of_mem hmem
  have hnodup := hs.nodup o
  rw [hfree, List.nodup_cons] at hnodup
  apply hs.of_writer l.activate hline
  case hlines =>
    intro i
    rw [Pool.getElem?_taken]
    exact Pool.ite_map_line hline _ i
  case hcount => simp
  case hretired => simp
  case hnodup =>
    intro o'
    rw [Pool.freeLines_taken o' hfree]
    split
    · exact hnodup.2
    · exact hs.nodup o'
  case hbefore => simp [hpointer, WritePointer.closed]
  case howned => simp [hstate]
  case hafter => simp [Line.activate, WritePointer.start]
  case howner => simp [Line.activate, howner]
  case hfits =>
    rw [Line.fits_of_active rfl, Pool.pagesPerLine_taken]
    exact hs.positive
  case hage => simp [Line.activate]
  case hfree =>
    intro o' i
    rw [Pool.freeLines_taken o' hfree]
    by_cases ho : o' = o
    · subst ho
      by_cases hi : id = i
      · subst hi
        simp [hnodup.1, Line.activate]
      · simp [hfree, hi, Ne.symm hi]
    · by_cases hi : id = i
      · subst hi
        have hnot : id ∉ s.pool.freeLines o' :=
          fun hmem => ho ((hs.owner_of_mem hmem hline).2.symm.trans howner)
        simp [ho, hnot, Line.activate]
      · simp [ho, hi]

theorem writes (hs : s.Sound) {o : Option UnitId} {id : LineId} {page count : Nat}
    (hpointer : s.pointer o = ⟨some id, page⟩) (hroom : page + count < s.pool.pagesPerLine) :
    (point ⟨s.pool.program id count, s.pointer⟩ o ⟨some id, page + count⟩).Sound := by
  obtain ⟨l, hline, hstate, howner, -⟩ := hs.of_pointer hpointer
  have hwritten := hs.program_current hpointer hline (Nat.le_of_lt hroom)
  have hactive : (l.program count s.pool.pagesPerLine).state = .active := hstate
  apply hs.of_writer (l.program count s.pool.pagesPerLine) hline
  case hlines =>
    intro i
    rw [Pool.getElem?_program]
    exact Pool.ite_map_line hline _ i
  case hcount => rfl
  case hretired => simp
  case hnodup =>
    intro o'
    rw [Pool.freeLines_program]
    exact hs.nodup o'
  case hfree =>
    intro o' i
    rw [Pool.freeLines_program]
    exact hs.mem_freeLines_iff hline (by simp [hstate]) (by simp [hactive]) o' i
  case hbefore => simp [hpointer]
  case howned => exact fun _ => howner
  case hafter => rw [if_pos hactive, hwritten]
  case howner => exact fun _ => howner
  case hfits =>
    rw [Line.fits_of_active hactive, hwritten]
    exact hroom
  case hage => simp [hactive]

/-- The line that becomes full is younger than every other full line. -/
theorem retiredAt_ne_next (hs : s.Sound) {i : LineId} {l : Line}
    (hline : s.pool.lines[i]? = some l) (hstate : l.state = .full) :
    l.retiredAt ≠ s.pool.retirements + 1 := by
  have hfits := (Line.fits_of_full hstate _ _).1 (hs.fits i l hline)
  omega

theorem fills (hs : s.Sound) {o : Option UnitId} {id : LineId} {page count : Nat}
    (hpointer : s.pointer o = ⟨some id, page⟩)
    (hlast : page + count = s.pool.pagesPerLine) :
    (point ⟨(s.pool.program id count).retire id, s.pointer⟩ o .closed).Sound := by
  obtain ⟨l, hline, hstate, howner, -⟩ := hs.of_pointer hpointer
  have hpositive := hs.positive
  have hretirements := Pool.retirements_filled hline hstate count
  have hwritten := hs.program_current hpointer hline (Nat.le_of_eq hlast)
  apply hs.of_writer ((l.program count s.pool.pagesPerLine).retire (s.pool.retirements + 1)) hline
  case hlines =>
    intro i
    exact Pool.getElem?_filled hline hstate count i
  case hcount => simp
  case hretired =>
    rw [hretirements]
    omega
  case hnodup =>
    intro o'
    rw [Pool.freeLines_retire, Pool.freeLines_program]
    exact hs.nodup o'
  case hfree =>
    intro o' i
    rw [Pool.freeLines_retire, Pool.freeLines_program]
    exact hs.mem_freeLines_iff hline (by simp [hstate]) (by simp [Line.retire]) o' i
  case hbefore => simp [hpointer]
  case howned => exact fun _ => howner
  case hafter => simp [Line.retire]
  case howner => simp [Line.retire]
  case hfits =>
    rw [hretirements, Line.fits_of_full rfl]
    simp only [hwritten, Line.retire, Pool.pagesPerLine_retire, Pool.pagesPerLine_program]
    omega
  case hage =>
    intro _ i k hk hfull _
    exact hs.retiredAt_ne_next hk hfull

theorem reclaims (hs : s.Sound) {id : LineId} {l : Line} (hline : s.pool.lines[id]? = some l)
    (hstate : l.state = .full) (hlist : s.pool.hasList l.owner) :
    (⟨s.pool.reclaimed l.owner id, s.pointer⟩ : Allocation).Sound := by
  have hfresh := hs.not_mem_freeLines hline (by simp [hstate])
  have hidle := hs.ne_current hline (by simp [hstate])
  apply hs.of_change id l.erase
  case hlines =>
    intro i
    rw [Pool.getElem?_reclaimed]
    exact Pool.ite_map_line hline _ i
  case hcount => simp
  case hretired => simp
  case hnodup =>
    intro o
    rw [Pool.freeLines_reclaimed _ _ o id hlist]
    split
    · exact (hs.nodup l.owner).append (List.nodup_singleton id) (by simpa using hfresh l.owner)
    · exact hs.nodup o
  case hfree =>
    intro o i
    rw [Pool.freeLines_reclaimed _ _ o id hlist]
    by_cases hi : id = i
    · subst hi
      by_cases ho : o = l.owner
      · simp [ho, Line.erase]
      · simp [ho, Ne.symm ho, hfresh o, Line.erase]
    · by_cases ho : o = l.owner
      · simp [ho, hi, Ne.symm hi]
      · simp [ho, hi]
  case hcurrent =>
    intro o i
    by_cases hi : id = i
    · subst hi
      simp [hidle o, Line.erase]
    · simp [hi]
  case hsame => exact fun _ _ _ _ => rfl
  case hpage => simp [Line.erase]
  case hclosed => exact hs.closed
  case hfits => exact (Line.fits_of_free rfl _ _).2 rfl
  case hage => simp [Line.erase]

end Sound

/-- What traffic makes of a sound allocation is sound. -/
theorem Traffic.sound (h : Traffic W s es t) (hs : s.Sound) : t.Sound := by
  cases h with
  | opens _ hpointer hfree => exact hs.opens hpointer hfree
  | writes _ hpointer _ hroom => exact hs.writes hpointer hroom
  | fills _ hpointer _ hlast => exact hs.fills hpointer hlast
  | reclaims _ hline hstate hlist => exact hs.reclaims hline hstate hlist

theorem sound_of_traffic (h : Steps (Traffic W) s es t) (hs : s.Sound) : t.Sound :=
  h.preserves (fun _ _ _ hs hstep => hstep.sound hs) hs

theorem Traffic.keeps (h : Traffic W s es t) : s.pool.Keeps t.pool := by
  cases h with
  | opens => exact Pool.keeps_taken _ _ _ _
  | writes => exact Pool.keeps_program _ _ _
  | fills => exact (Pool.keeps_program _ _ _).trans (Pool.keeps_retire _ _)
  | reclaims => exact Pool.keeps_reclaimed _ _ _

/-- Traffic leaves every line with its owner. -/
theorem keeps_of_traffic (h : Steps (Traffic W) s es t) : s.pool.Keeps t.pool := by
  induction h with
  | refl => exact .refl _
  | tail _ hstep ih => exact ih.trans hstep.keeps

theorem Traffic.owner_of_wrote (h : Traffic W s es t) (hs : s.Sound) {o : Option UnitId}
    {id : LineId} (hwrote : .wrote o id ∈ es) : s.pool.ownerOf id = o := by
  cases h with
  | opens => cases hwrote
  | writes _ hpointer | fills _ hpointer =>
    obtain ⟨rfl, rfl⟩ := LineEvent.wrote.inj (List.mem_singleton.1 hwrote)
    obtain ⟨l, hline, -, howner, -⟩ := hs.of_pointer hpointer
    rw [Pool.ownerOf_eq hline, howner]
  | reclaims => cases List.mem_singleton.1 hwrote

/-- Traffic writes each line on behalf of the owner that the line has all along. -/
theorem owner_of_wrote (h : Steps (Traffic W) s es t) (hs : s.Sound) {o : Option UnitId}
    {id : LineId} (hwrote : .wrote o id ∈ es) : s.pool.ownerOf id = o := by
  induction h with
  | refl => cases hwrote
  | tail hbefore hstep ih =>
    rcases List.mem_append.1 hwrote with hearlier | hlast
    · exact ih hearlier
    · rw [← (keeps_of_traffic hbefore).owners]
      exact hstep.owner_of_wrote (sound_of_traffic hbefore hs) hlast

end DataPlacement.Allocation
