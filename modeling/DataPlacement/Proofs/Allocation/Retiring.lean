import DataPlacement.Proofs.Allocation.Filling
import DataPlacement.Proofs.Allocation.Returning
import DataPlacement.Proofs.Configuration.Distribution
import DataPlacement.Proofs.Pool.Ages
import DataPlacement.Proofs.Pool.Blocks

namespace DataPlacement

namespace Allocation

variable {W : Option UnitId → Prop} {s t : Allocation} {es : List LineEvent}
  {frame : Option UnitId → WritePointer} {o : Option UnitId} {p p' : Pool} {w w' : WritePointer}

/-! ### Moves that erase and write nothing -/

theorem Traffic.shifts_of_quiet (h : Traffic W s [] t) (hs : s.Sound) :
    s.pool.Shifts [] [] t.pool := by
  cases h with
  | @opens o id rest _ hpointer hfree =>
    have hmem : id ∈ s.pool.freeLines o := by simp [hfree]
    obtain ⟨l, hline, hstate, -, -⟩ := hs.free_of_mem hmem
    refine Pool.shifts_of_change l.activate hline (fun i => ?_) ?_ (by simp)
    · rw [pool_point, Pool.getElem?_taken]
      exact Pool.ite_map_line hline _ i
    · rw [Line.age?_of_not_full (by simp [Line.activate]), Line.age?_of_not_full (by simp [hstate])]

/-- Traffic that only opens lines leaves the queue of full lines as it was. -/
theorem shifts_of_quiet_traffic (h : Steps (Traffic W) s [] t) (hs : s.Sound) :
    s.pool.Shifts [] [] t.pool := by
  generalize hes : [] = es at h
  induction h with
  | refl => exact .refl _
  | tail hsteps hmove ih =>
    obtain ⟨rfl, rfl⟩ := List.append_eq_nil_iff.1 hes.symm
    exact (ih rfl).quiet (hmove.shifts_of_quiet (sound_of_traffic hsteps hs))

/-- A move that erases and writes nothing adds to the queue what it makes full. -/
theorem Move.exists_shifts (h : Move s [] t) (hs : s.Sound) :
    ∃ fresh, s.pool.Shifts [] fresh t.pool ∧
      t.pool.retirements = s.pool.retirements + fresh.length := by
  cases h with
  | traffic h =>
    refine ⟨[], h.shifts_of_quiet hs, ?_⟩
    cases h with
    | opens => simp
  | @releases id hpointer =>
    obtain ⟨l, hline, hstate, -, -, -⟩ := hs.of_pointer hpointer
    refine ⟨[], Pool.shifts_of_change { l with state := .free } hline (fun i => ?_) ?_
      (by simp), by simp⟩
    · rw [pool_point, Pool.getElem?_released]
      exact Pool.ite_map_line hline _ i
    · rw [Line.age?_of_not_full (by simp), Line.age?_of_not_full (by simp [hstate])]
  | @retires id page hpointer hpage =>
    obtain ⟨l, hline, hstate, -, -, -⟩ := hs.of_pointer hpointer
    exact ⟨[id], Pool.shifts_retire hline hstate, Pool.retirements_retire hline hstate⟩
  | reserves hnone => exact ⟨[], .of_ages (fun _ => rfl) (Nat.le_refl _), rfl⟩
  | @assigns u id rest hlist hfree =>
    have hmem : id ∈ s.pool.freeLines none := by simp [hfree]
    obtain ⟨l, hline, -, -, -⟩ := hs.free_of_mem hmem
    refine ⟨[], Pool.shifts_of_change { l with owner := some u } hline (fun i => ?_) rfl
      (by simp), by simp⟩
    rw [Pool.getElem?_assigned]
    exact Pool.ite_map_line hline _ i
  | shares => exact ⟨[], s.pool.shifts_shareReserved, s.pool.retirements_shareReserved⟩
  | @disowns id l u hline howner hstate =>
    exact ⟨_, s.pool.shifts_disown id⟩
  | @stops id l u hline howner hstate =>
    exact ⟨_, s.pool.shifts_disown id⟩

theorem exists_shifts_of_quiet (h : Steps Move s [] t) (hs : s.Sound) :
    ∃ fresh, s.pool.Shifts [] fresh t.pool ∧
      t.pool.retirements = s.pool.retirements + fresh.length := by
  generalize hes : [] = es at h
  induction h with
  | refl => exact ⟨[], .refl _, rfl⟩
  | tail hsteps hmove ih =>
    obtain ⟨rfl, rfl⟩ := List.append_eq_nil_iff.1 hes.symm
    obtain ⟨fresh, hfirst, hcount⟩ := ih rfl
    obtain ⟨later, hlast, hcount'⟩ := hmove.exists_shifts (sound_of_steps hsteps hs)
    exact ⟨fresh ++ later, hfirst.append hlast, by rw [hcount', hcount, List.length_append]; omega⟩

/-- Where the retirements were not counted up, no line became full. -/
theorem shifts_of_retirements (h : Steps Move s [] t) (hs : s.Sound)
    (hsame : t.pool.retirements = s.pool.retirements) : s.pool.Shifts [] [] t.pool := by
  obtain ⟨fresh, hshifts, hcount⟩ := exists_shifts_of_quiet h hs
  obtain rfl : fresh = [] := List.length_eq_zero_iff.1 (by omega)
  exact hshifts

/-! ### Filling -/

/-- A stretch adds its line to the queue if the line became full. -/
theorem Stretch.shifts (hs : (point ⟨p, frame⟩ o w).Sound) {rollover : Rollover} {line : LineId}
    {full : Bool} (h : Stretch o rollover p w line p' w' full) :
    p.Shifts [] (if full then [line] else []) p' := by
  cases h with
  | @stays q page count hnext hcount hroom =>
    have hopen := steps_nextPage (hasOpening_traffic (W := fun _ => True) trivial) hs hnext
    have hopened : p.Shifts [] [] q := shifts_of_quiet_traffic hopen hs
    exact hopened.quiet (q.shifts_program line count)
  | @fills q r page count w' hnext hcount hlast hroll =>
    have hopen := steps_nextPage (hasOpening_traffic (W := fun _ => True) trivial) hs hnext
    have hopened : p.Shifts [] [] q := shifts_of_quiet_traffic hopen hs
    have hsound := sound_of_traffic hopen hs
    obtain ⟨l, hline, hstate, -⟩ := hsound.of_pointer (pointer_point_self _ _ _)
    simp only [pool_point] at hline
    have hwritten : (q.program line count).lines[line]? =
        some (l.program count q.pagesPerLine) := by simp [hline]
    have hretired := (q.shifts_program line count).append (Pool.shifts_retire hwritten hstate)
    have hfilled := hsound.fills (pointer_point_self _ _ _) hlast
    rw [pool_point, point_frame] at hfilled
    have hrolled : ((q.program line count).retire line).Shifts [] [] p' :=
      shifts_of_quiet_traffic
        (steps_rollOver (hasOpening_traffic (W := fun _ => True) trivial) hroll) hfilled
    exact (hopened.append hretired).quiet hrolled

theorem shifts_fillLines (frame : Option UnitId → WritePointer) (rollover : Rollover)
    (fuel pages : Nat) (hs : (point ⟨p, frame⟩ o w).Sound) :
    let f := Pool.fillLines o rollover fuel p w pages
    p.Shifts [] f.retired f.pool := by
  induction fuel generalizing p w pages with
  | zero => cases pages <;> exact .refl p
  | succ fuel ih =>
    cases pages with
    | zero => exact .refl p
    | succ pages =>
      obtain hstarved | ⟨line, q, w', full, rest, hstretch, hrest⟩ :=
        fillLines_succ hs rollover fuel pages
      · rw [hstarved]
        exact .refl p
      · have hfirst := hstretch.steps (W := fun _ => True) trivial hs
        have hlater := (hstretch.shifts hs).append (ih rest (sound_of_traffic hfirst hs))
        rw [hrest]
        cases full <;> exact hlater

/-- The lines that a fill makes full queue up in the order of its report. -/
theorem shifts_fill (rollover : Rollover) (pages : Nat) (hs : s.Sound) :
    let f := s.pool.fill o rollover (s.pointer o) pages
    s.pool.Shifts [] f.retired f.pool := by
  have h := shifts_fillLines (p := s.pool) (o := o) (w := s.pointer o) s.pointer rollover
    (s.pool.freeCount o + 1) pages
  rw [point_pointer] at h
  exact h hs

/-! ### Giving everything back -/

/-- The lines that units had begun become full, in line order. -/
theorem Sound.shifts_dissolve (hs : s.Sound) :
    s.pool.Shifts [] ((List.range s.pool.lines.size).filter s.pool.begun) s.pool.dissolve := by
  have hbegun : s.pool.shareReserved.begun = s.pool.begun := funext hs.begun_shareReserved
  have hrun := s.pool.shareReserved.shifts_foldl_disown
    (List.nodup_range (n := s.pool.shareReserved.lines.size))
  rw [hbegun, Pool.size_lines_shareReserved] at hrun
  rw [Pool.dissolve, Pool.size_lines_shareReserved]
  exact s.pool.shifts_shareReserved.after_quiet hrun

end Allocation

/-! ### Dealing out -/

namespace Pool

theorem retirements_take (p : Pool) (o : Option UnitId) :
    (p.take o).2.retirements = p.retirements := by
  cases hfree : p.freeLines o with
  | nil => rw [take_of_freeLines_eq_nil hfree]
  | cons id rest => rw [take_of_freeLines_eq_cons hfree, retirements_taken]

end Pool

namespace Configuration

variable {c c' : Configuration} {p q : Pool} {path : PlainPath} {dist : Distribution}

theorem retirements_openUnits (now : Nat) (us : List UnitId) (c : Configuration) (p : Pool) :
    (openUnits now us c p).state.2.retirements = p.retirements := by
  induction us generalizing c p with
  | nil => rfl
  | cons u us ih =>
    have htake := p.retirements_take (some u)
    rw [openUnits]
    split
    · next hnone =>
      rw [hnone] at htake
      exact htake
    · next hsome =>
      rw [hsome] at htake
      exact (ih _ _).trans htake

theorem retirements_distribute (c : Configuration) (p : Pool) (now : Nat) :
    (c.distribute p now).state.2.retirements = p.retirements := by
  unfold distribute
  dsimp only
  split
  · rfl
  · have hassign := ((p.reserve c.units.size).counts_assignShares 0
      (Distribution.shares p.shared.size c.units.size)).2
    split
    · next hcase =>
      rw [hcase] at hassign
      exact hassign
    · next hcase =>
      rw [hcase] at hassign
      exact (retirements_openUnits _ _ _ _).trans hassign

/-- Dealing out lines makes none of them full. -/
theorem Distributed.shifts (h : Distributed c p path dist c' q)
    (hs : Allocation.Sound ⟨p, c.pointers path⟩) {now : Nat} {notices : List Notice}
    (hdone : c.distribute p now = ⟨.ok dist, (c', q), notices⟩) : p.Shifts [] [] q := by
  have hsame := c.retirements_distribute p now
  rw [hdone] at hsame
  exact Allocation.shifts_of_retirements h.steps hs hsame

end Configuration

end DataPlacement
