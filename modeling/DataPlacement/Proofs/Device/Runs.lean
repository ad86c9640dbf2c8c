import DataPlacement.Proofs.Configuration.Building
import DataPlacement.Proofs.Device.Requests

namespace DataPlacement.Device

open Allocation

variable {d fresh : Device} {μ : Type} [Host.Memory μ]

theorem Geometry.pos_of_validate {g : Geometry} (h : g.validate = .ok ()) :
    0 < g.pageSize ∧ 0 < g.pagesPerLine ∧ 0 < g.blockSize := by
  unfold Geometry.validate at h
  split at h
  · cases h
  · split at h
    · cases h
    · omega

theorem Geometry.dvd_of_validate {g : Geometry} (h : g.validate = .ok ()) :
    g.blockSize ∣ g.pageSize := by
  unfold Geometry.validate at h
  split at h
  · cases h
  · split at h
    · cases h
    · next hwhole =>
      rw [not_or, not_not] at hwhole
      exact Nat.dvd_of_mod_eq_zero hwhole.2

/-- Building fails unless the geometry is valid; the units of what it makes are unused. -/
theorem build_configuration {g : Geometry} {params : Parameters} {c : Configuration}
    (h : Configuration.build g params = .ok c) :
    g.validate = .ok () ∧ c.enabled = false ∧ c.pageSize = g.pageSize ∧
      ∀ u unit, c.unit? u = some unit → unit.state = .unused ∧ unit.pointer = .closed := by
  obtain ⟨hvalid, -, rfl⟩ := Configuration.build_eq_ok_iff.1 h
  refine ⟨hvalid, rfl, rfl, fun u unit hunit => ?_⟩
  rw [Configuration.eq_unitAt_of_unit?_built hunit]
  exact ⟨rfl, rfl⟩

/-- A pool in which every line is erased and shared, with writers that have no lines. -/
theorem sound_erased {total pagesPerLine : Nat} {hsize : pagesPerLine < bitRange 32}
    {frame : Option UnitId → WritePointer} (hpositive : 0 < pagesPerLine)
    (hclosed : ∀ o, frame o = .closed) :
    Allocation.Sound ⟨.erased total pagesPerLine hsize, frame⟩ := by
  have hfresh : ∀ (id : LineId) (l : Line),
      (Pool.erased total pagesPerLine hsize).lines[id]? = some l →
      id < total ∧ l = {} := by
    intro id l hline
    simpa [Pool.erased, Array.getElem?_replicate, eq_comm] using hline
  have hfree : ∀ o, (Pool.erased total pagesPerLine hsize).freeLines o =
      if o = none then List.range total else [] := by
    intro o
    cases o <;> simp [Pool.erased, Pool.freeLines, Pool.freeList]
  exact {
    positive := hpositive
    nodup := by
      intro o
      rw [hfree]
      split
      · exact List.nodup_range
      · exact List.nodup_nil
    mem_freeLines := by
      intro o id
      rw [hfree]
      cases o with
      | none => simp [Pool.erased, Array.getElem?_replicate]
      | some u =>
        simp only [reduceCtorEq, if_false, List.not_mem_nil, false_iff, not_exists, not_and]
        rintro l hline - howner
        obtain ⟨-, rfl⟩ := hfresh id l hline
        cases howner
    current := by
      intro o id
      simp only [hclosed, WritePointer.closed, reduceCtorEq, false_iff, not_exists, not_and]
      rintro l hline hstate
      obtain ⟨-, rfl⟩ := hfresh id l hline
      cases hstate
    page := by
      intro id l hline hstate
      obtain ⟨-, rfl⟩ := hfresh id l hline
      cases hstate
    closed := fun o _ => congrArg WritePointer.page (hclosed o)
    fits := by
      intro id l hline
      obtain ⟨-, rfl⟩ := hfresh id l hline
      exact (Line.fits_of_free rfl _ _).2 rfl
    ages := by
      intro i j a b ha _ hfull
      obtain ⟨-, rfl⟩ := hfresh i a ha
      cases hfull }

/-- New units over an erased pool make a sound device, also if the pool is not of the geometry that
the units were built for. -/
theorem sound_of_built {g g' : Geometry} {params : Parameters} {c : Configuration} (total : Nat)
    (clock : Clock) (hbuild : Configuration.build g params = .ok c) (hvalid : g'.validate = .ok ())
    (hpage : g'.pageSize = g.pageSize) :
    Sound {
      geometry := g'
      pool := .erased total g'.pagesPerLine g'.pagesPerLine_lt
      configuration := c
      clock := clock } := by
  obtain ⟨-, hoff, hpageSize, hunits⟩ := build_configuration hbuild
  refine ⟨sound_erased (Geometry.pos_of_validate hvalid).2.1 fun o => ?_, fun u unit hunit => ?_,
    ?_, fun id => ?_, hvalid, hpageSize.trans hpage.symm, rfl⟩
  · cases o with
    | none => rfl
    | some u =>
      simp only [Configuration.pointers]
      cases hunit : c.unit? u with
      | none => rfl
      | some unit => exact (hunits u unit hunit).2
  · rw [(hunits u unit hunit).1, hoff]
    rfl
  · simp [enabled, hoff, Pool.erased]
  · have hnone : (Pool.erased total g'.pagesPerLine g'.pagesPerLine_lt).ownerOf id = none := by
      simp only [Pool.erased, Pool.ownerOf, Array.getElem?_replicate]
      split <;> rfl
    rw [hnone]
    rfl

section Build

variable {g : Geometry} {params : Parameters} {clock : Clock}

theorem exists_of_build (h : build g params clock = .ok fresh) :
    ∃ c, Configuration.build g params = .ok c ∧
      fresh = {
        geometry := g
        pool := .erased g.lines g.pagesPerLine g.pagesPerLine_lt
        configuration := c
        clock := clock } := by
  unfold build at h
  cases hbuild : Configuration.build g params with
  | error cause =>
    rw [hbuild] at h
    cases h
  | ok c =>
    rw [hbuild] at h
    cases h
    exact ⟨c, rfl, rfl⟩

theorem pool_build (h : build g params clock = .ok fresh) :
    fresh.pool = .erased g.lines g.pagesPerLine g.pagesPerLine_lt := by
  obtain ⟨c, -, rfl⟩ := exists_of_build h
  rfl

theorem policy_build (h : build g params clock = .ok fresh) :
    fresh.collector.policy = .oldestFirst := by
  obtain ⟨c, -, rfl⟩ := exists_of_build h
  rfl

/-- Placement is off at first. -/
theorem enabled_build (h : build g params clock = .ok fresh) : fresh.enabled = false := by
  obtain ⟨c, hbuild, rfl⟩ := exists_of_build h
  exact (build_configuration hbuild).2.1

theorem sound_build (h : build g params clock = .ok fresh) : fresh.Sound := by
  obtain ⟨c, hbuild, rfl⟩ := exists_of_build h
  obtain ⟨hvalid, -, -, -⟩ := build_configuration hbuild
  exact sound_of_built g.lines clock hbuild hvalid rfl

end Build

theorem Effect.changes {P : Collector → Prop} {es : List LineEvent} {d' : Device}
    (h : Effect P d es d') (hd : d.Sound) : Changes d es d' := by
  cases h with
  | advances h => exact h.changes hd
  | enables hes =>
    rw [hes]
    cases enableEnd hd with
    | already hon henable =>
      rw [henable]
      exact .refl hd
    | refused hoff cause after notices henable hchanges =>
      rw [henable]
      exact hchanges
    | dealt hoff dist after notices henable hchanges =>
      rw [henable]
      exact hchanges
  | disables hes =>
    rw [hes]
    exact (changes_disable hd).1
  | installs collector _ hes =>
    rw [hes]
    exact ⟨.refl _, rfl, rfl, ⟨hd.allocation, hd.settled, hd.reserved, hd.housed, hd.geometry,
      hd.pageSize, hd.pagesPerLine⟩⟩

theorem changes_after (hd : d.Sound) (r : Request μ) : Changes d (d.lineEvents r) (d.after r) :=
  (effect_after hd r).changes hd

/-- What requests of some kind keep on sound devices, runs of such requests keep. -/
theorem run_preserves {P : Device → Prop} {Q : Request μ → Prop}
    (hstep : ∀ d r, d.Sound → P d → Q r → P (d.after r)) (hd : d.Sound) (hP : P d)
    {rs : List (Request μ)} (hrs : ∀ r ∈ rs, Q r) : P (d.run rs) := by
  induction rs generalizing d with
  | nil => exact hP
  | cons r rs ih =>
    obtain ⟨hr, hrest⟩ := List.forall_mem_cons.1 hrs
    exact ih (changes_after hd r).sound (hstep d r hd hP hr) hrest

/-- What a run of requests does to lines, request by request. -/
def lineHistory (d : Device) : List (Request μ) → List LineEvent
  | [] => []
  | r :: rs => d.lineEvents r ++ (d.after r).lineHistory rs

theorem changes_run (hd : d.Sound) (rs : List (Request μ)) :
    Changes d (d.lineHistory rs) (d.run rs) := by
  induction rs generalizing d with
  | nil => exact .refl hd
  | cons r rs ih =>
    have hfirst := changes_after hd r
    exact hfirst.trans (ih hfirst.sound)

theorem Reachable.sound (h : Reachable μ d) : d.Sound := by
  obtain ⟨g, params, clock, fresh, hbuild, rs, rfl⟩ := h
  exact (changes_run (sound_build hbuild) rs).sound

end DataPlacement.Device
