import DataPlacement.Proofs.Device.DirectUse
import DataPlacement.Proofs.Pool.Blocks

namespace DataPlacement

namespace Configuration

variable {c : Configuration} {p q : Pool}

/-! ### Ways to get there -/

/-- What units and a pool can become without the commands of a device. The pool need not be of the
geometry that the units were built for, units can be written and opened again at any time, and any
line can be erased. -/
inductive Attainable : Configuration → Pool → Prop where
  | built {g : Geometry} {params : Parameters} {c : Configuration} (total pagesPerLine : Nat)
      (hsize : pagesPerLine < bitRange 32) (hbuild : build g params = .ok c) :
      Attainable c (.erased total pagesPerLine hsize)
  | enabled {c : Configuration} {p : Pool} (h : Attainable c p) (clock : Clock) :
      Attainable (c.enable p clock).state.1 (c.enable p clock).state.2.1
  | written {c : Configuration} {p : Pool} (h : Attainable c p) (placement : Placement)
      (block bytes now : Nat) :
      Attainable (c.write p placement block bytes now).state.1
        (c.write p placement block bytes now).state.2
  | erased {c : Configuration} {p : Pool} (h : Attainable c p) (line : LineId) :
      Attainable c (p.reclaim line).state
  | rearmed {c : Configuration} {p : Pool} (h : Attainable c p) (u : UnitId) (now : Nat) :
      Attainable (c.rearm p u now).state.1 (c.rearm p u now).state.2
  | disabled {c : Configuration} {p : Pool} (h : Attainable c p) :
      Attainable (c.disable p).state.1 (c.disable p).state.2

/-- The units and the pool are those of a sound device. -/
def Hosted (c : Configuration) (p : Pool) : Prop :=
  ∃ d : Device, d.Sound ∧ d.configuration = c ∧ d.pool = p

theorem hosted_built {g : Geometry} {params : Parameters} (total : Nat) {pagesPerLine : Nat}
    (hsize : pagesPerLine < bitRange 32) (hbuild : build g params = .ok c)
    (hpositive : 0 < pagesPerLine) : Hosted c (.erased total pagesPerLine hsize) := by
  obtain ⟨hvalid, -, -, -⟩ := Device.build_configuration hbuild
  let g' : Geometry :=
    { g with pagesPerLine := pagesPerLine, lines := 1, pagesPerLine_lt := hsize }
  have hvalid' : g'.validate = .ok () := by
    have hpositive' := Nat.ne_of_gt hpositive
    unfold Geometry.validate at hvalid ⊢
    split at hvalid
    · cases hvalid
    · next hsizes =>
      rw [not_or] at hsizes
      simpa [g', hsizes.1, hpositive'] using hvalid
  exact ⟨_, Device.sound_of_built total (.steady 0 0) hbuild hvalid' rfl, rfl, rfl⟩

theorem hosted_enable (h : Hosted c p) (clock : Clock) :
    Hosted (c.enable p clock).state.1 (c.enable p clock).state.2.1 := by
  obtain ⟨d, hd, rfl, rfl⟩ := h
  have hclocked :=
    (Device.Advances.recount (W := fun _ => True) d d.accounting d.tracing clock).sound hd
  exact ⟨_, Device.sound_enableUnits hclocked, rfl, rfl⟩

theorem hosted_disable (h : Hosted c p) : Hosted (c.disable p).state.1 (c.disable p).state.2 := by
  obtain ⟨d, hd, rfl, rfl⟩ := h
  exact ⟨_, (Device.changes_disable hd).1.sound, rfl, rfl⟩

theorem hosted_write (h : Hosted c p) (placement : Placement) (block bytes now : Nat) :
    Hosted (c.write p placement block bytes now).state.1
      (c.write p placement block bytes now).state.2 := by
  obtain ⟨d, hd, rfl, rfl⟩ := h
  have hroute : Device.Advances (fun _ => True) d
      (d.routeOnce placement block bytes now).lineEvents
      (d.routeOnce placement block bytes now).state :=
    Device.advances_routeOnce block now hd fun _ _ => trivial
  exact ⟨_, hroute.sound hd, rfl, rfl⟩

theorem hosted_rearm (h : Hosted c p) (u : UnitId) (now : Nat) :
    Hosted (c.rearm p u now).state.1 (c.rearm p u now).state.2 := by
  obtain ⟨d, hd, rfl, rfl⟩ := h
  have hrearm := (Device.advances_rearm (W := fun _ => True) hd (u := u) trivial now).1
  exact ⟨_, hrearm.sound hd, rfl, rfl⟩

/-! ### Lines without pages -/

/-- Nothing can be written, so that no unit becomes full. -/
structure Barren (c : Configuration) (p : Pool) : Prop where
  pagesPerLine : p.pagesPerLine = 0
  state : ∀ u unit, c.unit? u = some unit → unit.state ≠ .full

theorem Barren.openOn (h : Barren c p) (u : UnitId) (id : LineId) (now : Nat)
    (hpages : q.pagesPerLine = p.pagesPerLine) : Barren (c.updateUnit u (·.openOn id now)) q where
  pagesPerLine := hpages.trans h.pagesPerLine
  state v unit hunit := by
    rw [unit?_updateUnit] at hunit
    split at hunit
    · obtain ⟨before, -, rfl⟩ := Option.map_eq_some_iff.1 hunit
      exact UnitState.noConfusion
    · exact h.state v unit hunit

theorem barren_openUnits (h : Barren c p) (now : Nat) (us : List UnitId) :
    Barren (openUnits now us c p).state.1 (openUnits now us c p).state.2 := by
  induction us generalizing c p with
  | nil => exact h
  | cons u us ih =>
    rw [openUnits]
    cases hfree : p.freeLines (some u) with
    | nil =>
      rw [Pool.take_of_freeLines_eq_nil hfree]
      exact h
    | cons id rest =>
      rw [Pool.take_of_freeLines_eq_cons hfree]
      exact ih (h.openOn u id now (Pool.pagesPerLine_taken p (some u) id rest))

theorem barren_enable (h : Barren c p) (clock : Clock) :
    Barren (c.enable p clock).state.1 (c.enable p clock).state.2.1 := by
  have hdistribute : Barren (c.distribute p clock.now).state.1
      (c.distribute p clock.now).state.2 := by
    unfold distribute
    dsimp only
    split
    · exact h
    · have hreserved := ((p.reserve c.units.size).counts_assignShares 0
        (Distribution.shares p.shared.size c.units.size)).1
      split
      · next cause q notices hassign =>
        rw [hassign] at hreserved
        exact ⟨hreserved.trans h.pagesPerLine, h.state⟩
      · next q notices hassign =>
        rw [hassign] at hreserved
        exact barren_openUnits ⟨hreserved.trans h.pagesPerLine, h.state⟩ clock.now _
  unfold enable
  split
  · exact h
  · split
    · next heq =>
      rw [heq] at hdistribute
      exact ⟨hdistribute.pagesPerLine, hdistribute.state⟩
    · next heq =>
      rw [heq] at hdistribute
      exact hdistribute

theorem barren_disable (h : Barren c p) : Barren (c.disable p).state.1 (c.disable p).state.2 := by
  unfold disable
  split
  · exact h
  · refine ⟨?_, fun u unit hunit => ?_⟩
    · simp only [Outcome.done, Pool.dissolve, Pool.pagesPerLine_foldl_disown,
        Pool.pagesPerLine_shareReserved, h.pagesPerLine]
    · simp only [Outcome.done, unit?, Array.getElem?_map] at hunit
      obtain ⟨before, -, rfl⟩ := Option.map_eq_some_iff.1 hunit
      exact UnitState.noConfusion

/-- Without a page in the lines no placed write is accepted, and none changes anything. -/
theorem Barren.write_eq (h : Barren c p) (placement : Placement) (block bytes now : Nat) :
    ∃ cause notices, c.write p placement block bytes now = .refused cause (c, p) notices := by
  by_cases htargets : ∃ u, c.Targets placement bytes u
  · obtain ⟨u, hu⟩ := htargets
    have hnone : c.availablePages p u = 0 := by
      unfold availablePages Pool.streamPages
      rw [h.pagesPerLine]
      split <;> simp
    have hlong : c.availablePages p u < bytes / c.pageSize := hnone ▸ pos_pages hu
    exact ⟨_, _, c.write_of_exhausted p placement block bytes now hu hlong⟩
  · obtain ⟨cause, hrefused, -⟩ :=
      c.write_of_not_targets p placement block bytes now (not_exists.1 htargets)
    exact ⟨cause, [], hrefused⟩

theorem Barren.rearm_eq (h : Barren c p) (u : UnitId) (now : Nat) :
    c.rearm p u now = .done false (c, p) := by
  obtain hsame | ⟨unit, id, rest, hunit, hfull, -, -⟩ := c.rearm_cases p now u
  · exact hsame
  · exact absurd hfull (h.state u unit hunit)

/-- Units and a pool are those of a sound device, or the lines have no pages. -/
theorem Attainable.hosted_or_barren (h : Attainable c p) : Hosted c p ∨ Barren c p := by
  induction h with
  | @built g params c total pagesPerLine hsize hbuild =>
    rcases Nat.eq_zero_or_pos pagesPerLine with hzero | hpositive
    · refine .inr ⟨hzero, fun u unit hunit => ?_⟩
      obtain ⟨-, -, -, hunits⟩ := Device.build_configuration hbuild
      rw [(hunits u unit hunit).1]
      exact UnitState.noConfusion
    · exact .inl (hosted_built total hsize hbuild hpositive)
  | enabled _ clock ih =>
    exact ih.imp (fun h => hosted_enable h clock) fun h => barren_enable h clock
  | written _ placement block bytes now ih =>
    refine ih.imp (fun h => hosted_write h placement block bytes now) fun h => ?_
    obtain ⟨cause, notices, hrefused⟩ := h.write_eq placement block bytes now
    rw [hrefused]
    exact h
  | @erased c p _ line ih =>
    refine ih.imp ?_ fun h => ⟨?_, h.state⟩
    · rintro ⟨d, hd, rfl, rfl⟩
      exact ⟨_, Device.sound_erase hd line, rfl, rfl⟩
    · obtain ⟨cause, hrefused⟩ | ⟨l, hline, hstate, hlist⟩ := p.reclaim_cases line
      · rw [hrefused]
        exact h.pagesPerLine
      · rw [Pool.reclaim_of_full hline hstate hlist]
        exact (p.pagesPerLine_reclaimed _ _).trans h.pagesPerLine
  | rearmed _ u now ih =>
    refine ih.imp (fun h => hosted_rearm h u now) fun h => ?_
    rw [h.rearm_eq u now]
    exact h
  | disabled _ ih => exact ih.imp hosted_disable barren_disable

end Configuration

end DataPlacement
