import DataPlacement.Proofs.Allocation.Collecting
import DataPlacement.Proofs.Allocation.Distributing
import DataPlacement.Proofs.Configuration.Fairness
import DataPlacement.Proofs.Configuration.Units

namespace DataPlacement.Configuration

open Allocation

variable {c c' : Configuration} {p : Pool} (path : PlainPath) (now : Nat)

/-- The units were opened, and nothing else of the configuration was changed. -/
structure Opened (us : List UnitId) (c c' : Configuration) : Prop where
  blank : c'.blank = c.blank
  enabled : c'.enabled = c.enabled
  opened : ∀ u ∈ us, ∀ unit, c'.unit? u = some unit →
    unit.state = .active ∧ unit.pointer.line.isSome
  others : ∀ u, u ∉ us → c'.unit? u = c.unit? u

theorem Opened.cons {u : UnitId} {us : List UnitId} {id : LineId} (hfresh : u ∉ us)
    (h : Opened us (c.updateUnit u (·.openOn id now)) c') : Opened (u :: us) c c' where
  blank := h.blank.trans (c.blank_updateUnit u fun _ => rfl)
  enabled := h.enabled
  opened v hv unit hunit := by
    rcases List.mem_cons.1 hv with rfl | hmem
    · rw [h.others v hfresh, unit?_updateUnit, if_pos rfl] at hunit
      obtain ⟨before, -, rfl⟩ := Option.map_eq_some_iff.1 hunit
      exact ⟨rfl, rfl⟩
    · exact h.opened v hmem unit hunit
  others v hv := by
    rw [List.mem_cons, not_or] at hv
    rw [h.others v hv.2, unit?_updateUnit, if_neg (Ne.symm hv.1)]

/-- Units that have a free line and no current one are opened one after the other. -/
theorem steps_openUnits {us : List UnitId} (hnodup : us.Nodup)
    (hunit : ∀ u ∈ us, (c.unit? u).isSome)
    (hclosed : ∀ u ∈ us, c.pointers path (some u) = .closed)
    (hfree : ∀ u ∈ us, p.freeLines (some u) ≠ []) :
    ∃ current c' q notices, openUnits now us c p = ⟨.ok current, (c', q), notices⟩ ∧
      erasures notices = [] ∧ Opened us c c' ∧
      Steps (Traffic fun _ => True) ⟨p, c.pointers path⟩ [] ⟨q, c'.pointers path⟩ := by
  induction us generalizing c p with
  | nil => exact ⟨[], c, p, [], rfl, rfl, ⟨rfl, rfl, by simp, fun _ _ => rfl⟩, .refl _⟩
  | cons u us ih =>
    obtain ⟨hfresh, hnodup⟩ := List.nodup_cons.1 hnodup
    obtain ⟨unit, hu⟩ := Option.isSome_iff_exists.1 (hunit u (by simp))
    cases hlines : p.freeLines (some u) with
    | nil => exact absurd hlines (hfree u (by simp))
    | cons id rest =>
      have hpointers := pointers_updateUnit path hu (·.openOn id now)
      have hother : ∀ v ∈ us, u ≠ v := fun v hv heq => hfresh (heq ▸ hv)
      -- The later units are as they were.
      have hunit' : ∀ v ∈ us, ((c.updateUnit u (·.openOn id now)).unit? v).isSome := by
        intro v hv
        rw [unit?_updateUnit, if_neg (hother v hv)]
        exact hunit v (by simp [hv])
      have hclosed' : ∀ v ∈ us,
          (c.updateUnit u (·.openOn id now)).pointers path (some v) = .closed := by
        intro v hv
        rw [hpointers, Function.update_of_ne (by simp [Ne.symm (hother v hv)])]
        exact hclosed v (by simp [hv])
      have hfree' : ∀ v ∈ us, (p.taken (some u) id rest).freeLines (some v) ≠ [] := by
        intro v hv
        rw [Pool.freeLines_taken _ hlines, if_neg (by simp [Ne.symm (hother v hv)])]
        exact hfree v (by simp [hv])
      obtain ⟨current, c', q, notices, hopen, hquiet, hopened, hsteps⟩ :=
        ih hnodup hunit' hclosed' hfree'
      refine ⟨id :: current, c', q, .opened u id :: notices, ?_, ?_, hopened.cons now hfresh, ?_⟩
      · simp [openUnits, Pool.take_of_freeLines_eq_cons hlines, hopen, Except.map]
      · rw [erasures_cons rfl, hquiet]
      · have hopens := Traffic.opens (W := fun _ => True) (s := ⟨p, c.pointers path⟩) trivial
          (hclosed u (by simp)) hlines
        rw [hpointers] at hsteps
        exact (Steps.single hopens).trans hsteps

/-- What turning placement on makes of a configuration without reserved lines. -/
structure Distributed (c : Configuration) (p : Pool) (path : PlainPath) (d : Distribution)
    (c' : Configuration) (q : Pool) : Prop where
  steps : Steps Move ⟨p, c.pointers path⟩ [] ⟨q, c'.pointers path⟩
  opened : Opened (List.range c.units.size) c c'
  reserved : q.reserved.size = c.units.size
  pagesPerLine : q.pagesPerLine = p.pagesPerLine
  shares : d.perUnit = Distribution.shares p.shared.size c.units.size
  owned : ∀ u, (q.owned (some u)).card = (p.owned (some u)).card + d.perUnit.getD u 0

/-- Nothing is dealt out if some unit would get no line. -/
theorem distribute_of_scarce (hfew : p.shared.size < c.units.size) :
    ∃ u notices, c.distribute p now = .refused (.distributionFailed u) (c, p) notices ∧
      erasures notices = [] :=
  ⟨p.shared.size, _, by simp only [distribute, Distribution.findIdx?_shares_of_scarce hfew]; rfl,
    rfl⟩

/-- All shared lines are dealt out if there is one for every unit. -/
theorem distribute_of_ample (hs : Sound ⟨p, c.pointers path⟩) (hnone : p.reserved = #[])
    (hclosed : ∀ u, c.pointers path (some u) = .closed) (hmany : c.units.size ≤ p.shared.size) :
    ∃ d c' q notices, c.distribute p now = ⟨.ok d, (c', q), notices⟩ ∧ erasures notices = [] ∧
      Distributed c p path d c' q := by
  have hfind := Distribution.findIdx?_shares_of_ample hmany
  have hpositive : ∀ count ∈ Distribution.shares p.shared.size c.units.size, count ≠ 0 := by
    simpa using List.findIdx?_eq_none_iff.1 hfind
  have hlength := Distribution.length_shares p.shared.size c.units.size
  have hsum := Distribution.sum_shares_le p.shared.size c.units.size
  generalize hshares : Distribution.shares p.shared.size c.units.size = shares at *
  rw [Pool.size_shared_eq_length] at hsum
  have hreserve : Move ⟨p, c.pointers path⟩ [] ⟨p.reserve c.units.size, c.pointers path⟩ :=
    .reserves hnone
  have hlists : ∀ i < shares.length, (p.reserve c.units.size).hasList (some (0 + i)) := by
    intro i hi
    simpa [Pool.hasList, Pool.reserve, hlength] using hi
  have henough : shares.sum ≤ ((p.reserve c.units.size).freeLines none).length := by
    rw [Pool.freeLines_reserve, if_pos rfl]
    exact hsum
  obtain ⟨q, hassign, hsteps, hdealt⟩ := steps_assignShares (hreserve.sound hs) hlists henough
  have hown : ∀ u, (q.freeLines (some u)).length = shares.getD u 0 := by
    intro u
    rw [hdealt.own, Pool.freeLines_reserve]
    simp [shareOf]
  have hunits : ∀ u ∈ List.range c.units.size, (c.unit? u).isSome := by
    intro u hu
    simpa [unit?] using hu
  have hready : ∀ u ∈ List.range c.units.size, q.freeLines (some u) ≠ [] := by
    intro u hu hempty
    have hu : u < shares.length := by simpa [hlength] using hu
    have hcount := hown u
    rw [hempty, List.getD_eq_getElem?_getD, List.getElem?_eq_getElem hu] at hcount
    exact hpositive _ (List.getElem_mem hu) hcount.symm
  obtain ⟨current, c', r, notices, hopen, hquiet, hopened, htaken⟩ :=
    steps_openUnits path now List.nodup_range hunits (fun u _ => hclosed u) hready
  have hkeeps := keeps_of_traffic htaken
  refine ⟨⟨shares, current⟩, c', r, notices, ?_, hquiet, ?_, hopened, ?_, ?_,
    hshares.symm, ?_⟩
  · simp only [distribute, hshares, hfind, hassign, Outcome.done, hopen, Except.map]
  · exact ((Steps.single hreserve).trans hsteps).trans (steps_move_of_traffic htaken)
  · rw [hkeeps.reserved, hdealt.reserved]
    simp [Pool.reserve]
  · rw [hkeeps.pagesPerLine, hdealt.pagesPerLine]
    rfl
  · intro u
    rw [hkeeps.owned, hdealt.owned]
    simp [shareOf]
    rfl

end DataPlacement.Configuration
