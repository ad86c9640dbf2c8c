import DataPlacement.Proofs.Allocation.Traffic

namespace DataPlacement.Allocation

variable {s t : Allocation} {es : List LineEvent}

namespace Sound

theorem releases (hs : s.Sound) {id : LineId} (hpointer : s.pointer none = ⟨some id, 0⟩) :
    (point ⟨s.pool.released none id, s.pointer⟩ none .closed).Sound := by
  obtain ⟨l, hline, hstate, howner, hpages, -⟩ := hs.of_pointer hpointer
  have hfresh := hs.not_mem_freeLines hline (by simp [hstate])
  apply hs.of_writer { l with state := .free } hline
  case hlines =>
    intro i
    rw [Pool.getElem?_released]
    exact Pool.ite_map_line hline _ i
  case hcount => simp
  case hretired => simp
  case hnodup =>
    intro o
    rw [Pool.freeLines_released _ _ _ _ rfl]
    split
    · exact List.nodup_cons.2 ⟨hfresh none, hs.nodup none⟩
    · exact hs.nodup o
  case hfree =>
    intro o i
    rw [Pool.freeLines_released _ _ _ _ rfl]
    by_cases hi : id = i
    · subst hi
      cases o <;> simp [howner, hfresh]
    · cases o <;> simp [hi, Ne.symm hi]
  case hbefore => simp [hpointer]
  case howned => exact fun _ => howner
  case hafter => simp
  case howner => simp
  case hfits => exact (Line.fits_of_free rfl _ _).2 hpages
  case hage => simp

theorem retires (hs : s.Sound) {o : Option UnitId} {id : LineId} {page : Nat}
    (hpointer : s.pointer o = ⟨some id, page⟩) (hpage : page ≠ 0) :
    (point ⟨s.pool.retire id, s.pointer⟩ o .closed).Sound := by
  obtain ⟨l, hline, hstate, howner, hpages, hroom⟩ := hs.of_pointer hpointer
  apply hs.of_writer (l.retire (s.pool.retirements + 1)) hline
  case hlines =>
    intro i
    exact Pool.getElem?_retire i hline hstate
  case hcount => simp
  case hretired =>
    rw [Pool.retirements_retire hline hstate]
    omega
  case hnodup =>
    intro o'
    rw [Pool.freeLines_retire]
    exact hs.nodup o'
  case hfree =>
    intro o' i
    rw [Pool.freeLines_retire]
    exact hs.mem_freeLines_iff hline (by simp [hstate]) (by simp [Line.retire]) o' i
  case hbefore => simp [hpointer]
  case howned => exact fun _ => howner
  case hafter => simp [Line.retire]
  case howner => simp [Line.retire]
  case hfits =>
    rw [Pool.retirements_retire hline hstate, Line.fits_of_full rfl]
    simp only [Line.retire, Pool.pagesPerLine_retire]
    omega
  case hage =>
    intro _ i k hk hfull _
    exact hs.retiredAt_ne_next hk hfull

theorem reserves (hs : s.Sound) {units : Nat} (hnone : s.pool.reserved = #[]) :
    (⟨s.pool.reserve units, s.pointer⟩ : Allocation).Sound := by
  have hfree : ∀ o, (s.pool.reserve units).freeLines o = s.pool.freeLines o := by
    intro o
    rw [Pool.freeLines_reserve]
    cases o <;> simp [Pool.freeLines, Pool.freeList, hnone]
  exact ⟨hs.positive, fun o => hfree o ▸ hs.nodup o, fun o id => hfree o ▸ hs.mem_freeLines o id,
    hs.current, hs.page, hs.closed, hs.fits, hs.ages⟩

theorem assigns (hs : s.Sound) {u : UnitId} {id : LineId} {rest : List LineId}
    (hlist : s.pool.hasList (some u)) (hfree : s.pool.freeLines none = id :: rest) :
    (⟨s.pool.assigned u id rest, s.pointer⟩ : Allocation).Sound := by
  have hmem : id ∈ s.pool.freeLines none := by simp [hfree]
  obtain ⟨l, hline, hstate, howner, hpages⟩ := hs.free_of_mem hmem
  have hnodup := hs.nodup none
  rw [hfree, List.nodup_cons] at hnodup
  have hfresh : ∀ u, id ∉ s.pool.freeLines (some u) := by
    intro u hmem
    simpa [howner] using (hs.owner_of_mem hmem hline).2
  apply hs.of_change id { l with owner := some u }
  case hlines =>
    intro i
    rw [Pool.getElem?_assigned]
    exact Pool.ite_map_line hline _ i
  case hcount => simp
  case hretired => simp
  case hnodup =>
    intro o
    rw [Pool.freeLines_assigned _ _ _ _ _ hlist]
    split
    · exact (hs.nodup (some u)).append (List.nodup_singleton id) (by simpa using hfresh u)
    · split
      · exact hnodup.2
      · exact hs.nodup o
  case hfree =>
    intro o i
    rw [Pool.freeLines_assigned _ _ _ _ _ hlist]
    by_cases hi : id = i
    · subst hi
      cases o with
      | none => simp [hnodup.1]
      | some u' =>
        by_cases hu : u' = u
        · simp [hu, hstate]
        · simp [hu, Ne.symm hu, hfresh u']
    · cases o with
      | none => simp [hfree, hi, Ne.symm hi]
      | some u' =>
        by_cases hu : u' = u
        · simp [hu, hi, Ne.symm hi]
        · simp [hu, hi]
  case hcurrent =>
    intro o i
    by_cases hi : id = i
    · subst hi
      simp [hs.ne_current hline (by simp [hstate]) o, hstate]
    · simp [hi]
  case hsame => exact fun _ _ _ _ => rfl
  case hpage => simp [hstate]
  case hclosed => exact hs.closed
  case hfits => exact (Line.fits_of_free hstate _ _).2 hpages
  case hage => simp [hstate]

theorem nodup_reservedLines (hs : s.Sound) : s.pool.reservedLines.Nodup := by
  rw [Pool.reservedLines, List.nodup_flatMap]
  constructor
  · intro list hmem
    obtain ⟨u, hu⟩ := Array.mem_iff_getElem?.1 (Array.mem_toList_iff.1 hmem)
    simpa [Pool.freeLines, Pool.freeList, hu] using hs.nodup (some u)
  · rw [List.pairwise_iff_getElem]
    intro u v hu hv huv id hid hid'
    simp only [Array.length_toList, Array.getElem_toList] at hu hv hid hid'
    have hmem : id ∈ s.pool.freeLines (some u) := by simpa [Pool.freeLines, Pool.freeList, hu]
    have hmem' : id ∈ s.pool.freeLines (some v) := by simpa [Pool.freeLines, Pool.freeList, hv]
    obtain ⟨l, hline, -, howner, -⟩ := hs.free_of_mem hmem
    have hsame := howner.symm.trans (hs.owner_of_mem hmem' hline).2
    exact Nat.ne_of_lt huv (Option.some.inj hsame)

/-- No line is listed twice, neither in one list nor in two. -/
theorem nodup_listed (hs : s.Sound) : (s.pool.freeLines none ++ s.pool.reservedLines).Nodup := by
  refine (hs.nodup none).append hs.nodup_reservedLines fun id hid hid' => ?_
  obtain ⟨u, hu⟩ := (s.pool.mem_reservedLines id).1 hid'
  obtain ⟨l, hline, -, howner, -⟩ := hs.free_of_mem hid
  simpa [howner] using (hs.owner_of_mem hu hline).2

section Shares

variable {i : LineId} {l : Line}

/-- Sharing the free lines of the units touches free lines only. -/
theorem shareReserved_of_not_free (hs : s.Sound) (hstate : l.state ≠ .free) :
    s.pool.shareReserved.lines[i]? = some l ↔ s.pool.lines[i]? = some l := by
  rw [Pool.getElem?_shareReserved]
  by_cases hmem : i ∈ s.pool.reservedLines
  · obtain ⟨u, hu⟩ := (s.pool.mem_reservedLines i).1 hmem
    obtain ⟨k, hk, hfree, -⟩ := hs.free_of_mem hu
    rw [if_pos hmem, hk, Option.map_some, Option.some.injEq, Option.some.injEq]
    apply iff_of_false
    · rintro rfl
      exact hstate hfree
    · rintro rfl
      exact hstate hfree
  · rw [if_neg hmem]

theorem shares (hs : s.Sound) : (⟨s.pool.shareReserved, s.pointer⟩ : Allocation).Sound where
  positive := by simpa using hs.positive
  nodup o := by
    rw [Pool.freeLines_shareReserved]
    split
    · exact hs.nodup_listed
    · exact List.nodup_nil
  mem_freeLines o i := by
    rw [Pool.freeLines_shareReserved, Pool.getElem?_shareReserved]
    by_cases hmem : i ∈ s.pool.reservedLines
    · obtain ⟨u, hu⟩ := (s.pool.mem_reservedLines i).1 hmem
      obtain ⟨l, hline, hstate, -⟩ := hs.free_of_mem hu
      cases o <;> simp [hmem, hline, hstate]
    · rw [if_neg hmem, ← hs.mem_freeLines]
      cases o with
      | none => simp [hmem]
      | some u => simpa using fun hu => hmem ((s.pool.mem_reservedLines i).2 ⟨u, hu⟩)
  current o i := by
    rw [hs.current]
    constructor
    · rintro ⟨l, hline, hstate, howner⟩
      exact ⟨l, (hs.shareReserved_of_not_free (by simp [hstate])).2 hline, hstate, howner⟩
    · rintro ⟨l, hline, hstate, howner⟩
      exact ⟨l, (hs.shareReserved_of_not_free (by simp [hstate])).1 hline, hstate, howner⟩
  page i l hline hstate :=
    hs.page i l ((hs.shareReserved_of_not_free (by simp [hstate])).1 hline) hstate
  closed := hs.closed
  fits i l hline := by
    rw [Pool.pagesPerLine_shareReserved, Pool.retirements_shareReserved]
    rw [Pool.getElem?_shareReserved] at hline
    split at hline
    · obtain ⟨k, hk, rfl⟩ := Option.map_eq_some_iff.1 hline
      exact hs.fits i k hk
    · exact hs.fits i l hline
  ages i j a b ha hb hfa hfb := by
    rw [hs.shareReserved_of_not_free (by simp [hfa])] at ha
    rw [hs.shareReserved_of_not_free (by simp [hfb])] at hb
    exact hs.ages i j a b ha hb hfa hfb

end Shares

theorem disowns (hs : s.Sound) {id : LineId} {l : Line} {u : UnitId}
    (hline : s.pool.lines[id]? = some l) (howner : l.owner = some u) (hstate : l.state = .full) :
    (⟨s.pool.disown id, s.pointer⟩ : Allocation).Sound := by
  have hidle := hs.ne_current hline (by simp [hstate])
  have hlines := Pool.getElem?_disown_of_full hline howner hstate
  rw [Pool.disown_of_full hline howner hstate] at hlines ⊢
  apply hs.of_change id { l with owner := none } hlines
  case hcount => rfl
  case hretired => simp
  case hnodup =>
    intro o
    rw [Pool.freeLines_updateLine]
    exact hs.nodup o
  case hfree =>
    intro o i
    rw [Pool.freeLines_updateLine]
    exact hs.mem_freeLines_iff hline (by simp [hstate]) (by simp [hstate]) o i
  case hcurrent =>
    intro o i
    by_cases hi : id = i
    · subst hi
      simp [hidle o, hstate]
    · simp [hi]
  case hsame => exact fun _ _ _ _ => rfl
  case hpage => simp [hstate]
  case hclosed => exact hs.closed
  case hfits => exact hs.fits id l hline
  case hage =>
    intro _ i k hk hfull hne heq
    exact hne (hs.ages id i l k hline hk hstate hfull heq.symm)

section Stops

variable {id : LineId} {l : Line} {u : UnitId}

/-- The current line of a unit is the only one that its pointer can lead to. -/
theorem eq_of_current (hs : s.Sound) (hline : s.pool.lines[id]? = some l)
    (howner : l.owner = some u) (hstate : l.state = .active) (i : LineId)
    (hi : (s.pointer (some u)).line = some i) : id = i := by
  have hcurrent := (hs.current (some u) id).2 ⟨l, hline, hstate, howner⟩
  exact Option.some.inj (hcurrent.symm.trans hi)

/-- A current line that was never written becomes free and shared. -/
theorem stops_untouched (hs : s.Sound) (hline : s.pool.lines[id]? = some l)
    (howner : l.owner = some u) (hstate : l.state = .active) (hpages : l.pages = 0) :
    (point ⟨s.pool.disown id, s.pointer⟩ (some u) .closed).Sound := by
  have hfresh := hs.not_mem_freeLines hline (by simp [hstate])
  have hlists := Pool.freeLines_disown_of_untouched hline howner hstate hpages
  apply hs.of_writer { l with owner := none, state := .free } hline
  case hlines => exact Pool.getElem?_disown_of_untouched hline howner hstate hpages
  case hcount => rw [Pool.disown_of_untouched hline howner hstate hpages]; rfl
  case hretired => simp [Pool.disown_of_untouched hline howner hstate hpages]
  case hnodup =>
    intro o
    rw [hlists]
    split
    · exact (hs.nodup none).append (List.nodup_singleton id) (by simpa using hfresh none)
    · exact hs.nodup o
  case hfree =>
    intro o i
    rw [hlists]
    by_cases hi : id = i
    · subst hi
      cases o <;> simp [hfresh]
    · cases o <;> simp [hi, Ne.symm hi]
  case hbefore => exact hs.eq_of_current hline howner hstate
  case howned => exact fun _ => howner
  case hafter => simp
  case howner => simp
  case hfits => exact (Line.fits_of_free rfl _ _).2 hpages
  case hage => simp

/-- A current line that was written in part becomes full. -/
theorem stops_written (hs : s.Sound) (hline : s.pool.lines[id]? = some l)
    (howner : l.owner = some u) (hstate : l.state = .active) (hpages : l.pages ≠ 0) :
    (point ⟨s.pool.disown id, s.pointer⟩ (some u) .closed).Sound := by
  have hdisown := Pool.disown_of_written hline howner hstate hpages
  have hretirements := Pool.retirements_disown_of_written hline howner hstate hpages
  have hfits := (Line.fits_of_active hstate _ _).1 (hs.fits id l hline)
  apply hs.of_writer (Line.retire { l with owner := none } (s.pool.retirements + 1)) hline
  case hlines => exact Pool.getElem?_disown_of_written hline howner hstate hpages
  case hcount => simp [hdisown]
  case hretired =>
    rw [hretirements]
    omega
  case hnodup =>
    intro o
    rw [hdisown, Pool.freeLines_retire, Pool.freeLines_updateLine]
    exact hs.nodup o
  case hfree =>
    intro o i
    rw [hdisown, Pool.freeLines_retire, Pool.freeLines_updateLine]
    exact hs.mem_freeLines_iff hline (by simp [hstate]) (by simp [Line.retire]) o i
  case hbefore => exact hs.eq_of_current hline howner hstate
  case howned => exact fun _ => howner
  case hafter => simp [Line.retire]
  case howner => simp [Line.retire]
  case hfits =>
    rw [hretirements, hdisown, Line.fits_of_full rfl]
    simp only [Line.retire, Pool.pagesPerLine_retire, Pool.pagesPerLine_updateLine]
    omega
  case hage =>
    intro _ i k hk hfull _
    exact hs.retiredAt_ne_next hk hfull

theorem stops (hs : s.Sound) (hline : s.pool.lines[id]? = some l) (howner : l.owner = some u)
    (hstate : l.state = .active) :
    (point ⟨s.pool.disown id, s.pointer⟩ (some u) .closed).Sound := by
  by_cases hpages : l.pages = 0
  · exact hs.stops_untouched hline howner hstate hpages
  · exact hs.stops_written hline howner hstate hpages

end Stops

end Sound

/-- What a move makes of a sound allocation is sound. -/
theorem Move.sound (h : Move s es t) (hs : s.Sound) : t.Sound := by
  cases h with
  | traffic h => exact h.sound hs
  | releases hpointer => exact hs.releases hpointer
  | retires hpointer hpage => exact hs.retires hpointer hpage
  | reserves hnone => exact hs.reserves hnone
  | assigns hlist hfree => exact hs.assigns hlist hfree
  | shares => exact hs.shares
  | disowns hline howner hstate => exact hs.disowns hline howner hstate
  | stops hline howner hstate => exact hs.stops hline howner hstate

theorem sound_of_steps (h : Steps Move s es t) (hs : s.Sound) : t.Sound :=
  h.preserves (fun _ _ _ hs hmove => hmove.sound hs) hs

theorem steps_move_of_traffic {W : Option UnitId → Prop} (h : Steps (Traffic W) s es t) :
    Steps Move s es t :=
  h.mono fun _ _ _ => .traffic

end DataPlacement.Allocation
