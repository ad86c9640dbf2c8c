import DataPlacement.Proofs.Audit.Consistency

namespace DataPlacement

/-- A write pointer at a line is at an active line of its writer, and at the first page of it that
is not written yet. -/
def Pool.Backs (p : Pool) (owner : Option UnitId) (pointer : WritePointer) : Prop :=
  ∀ id : LineId, pointer.line = some id →
    ∃ l, p.lines[id]? = some l ∧ l.state = .active ∧ l.owner = owner ∧
      pointer.page = l.pages ∧ l.pages < p.pagesPerLine

namespace Device

/-- Every writer writes into a line of its own, and every active line has one writer. -/
structure WritersPlaced (d : Device) : Prop where
  path : d.pool.Backs none d.path.pointer
  units : ∀ u unit, d.configuration.unit? u = some unit →
    d.pool.Backs (some unit.id) unit.pointer
  writer : ∀ (id : LineId) (l : Line), d.pool.lines[id]? = some l → l.state = .active →
    ∃! o, (d.writePointer o).line = some id

/-- No two units have the same current line. -/
def UnitsApart (d : Device) : Prop :=
  ∀ u v id, (d.writePointer (some u)).line = some id →
    (d.writePointer (some v)).line = some id → u = v

/-- No two units go by the same number. -/
def UnitsNumberedApart (d : Device) : Prop :=
  ∀ u v a b, d.configuration.unit? u = some a → d.configuration.unit? v = some b →
    a.id = b.id → u = v

theorem exists_unit_of_current {d : Device} {u : UnitId} {id : LineId}
    (h : (d.writePointer (some u)).line = some id) :
    ∃ unit, d.configuration.unit? u = some unit ∧ unit.pointer.line = some id := by
  cases hunit : d.configuration.unit? u with
  | none => simp [writePointer, hunit, WritePointer.closed] at h
  | some unit =>
    rw [Audit.writePointer_of_unit? hunit] at h
    exact ⟨unit, rfl, h⟩

end Device

namespace Audit

variable {d : Device}

theorem clean_of_checked (hchecked : d.checkAll.hasError = false) (phase : Phase) :
    Clean (findings d phase) := by
  intro f hf herror
  have hphase : phase ∈ Phase.all := by cases phase <;> decide
  have hmem : f ∈ d.checkAll.findings := by
    rw [findings_checkAll]
    exact List.mem_flatMap.2 ⟨phase, hphase, hf⟩
  have hnone := List.any_eq_false.1 hchecked f hmem
  simp [herror] at hnone

/-! ### Units -/

section Units

variable {unit : ReclaimUnit} {id : LineId}

theorem ownerOf_of_clean (h : Clean (unitOwnership d.pool unit))
    (hcurrent : unit.pointer.line = some id) : d.pool.ownerOf id = some unit.id := by
  rw [unitOwnership, hcurrent] at h
  simpa using fine_of_clean h

theorem currentLine_of_clean {name : UnitId} {page : Nat}
    (h : Clean (currentLine d.pool name id page)) :
    ∃ l, d.pool.lines[id]? = some l ∧ l.state = .active ∧ page = l.pages ∧
      page < d.pool.pagesPerLine := by
  unfold currentLine at h
  split at h
  · exact absurd h not_clean_failure
  · next l hline =>
    obtain ⟨hstate, hpage⟩ := clean_append.1 h
    have hstate := fine_of_clean hstate
    have hpage := fine_of_clean hpage
    simp only [Bool.and_eq_true, decide_eq_true_eq] at hstate hpage
    exact ⟨l, hline, hstate, hpage.2, hpage.1⟩

/-- A unit that points at a line without an error is active, since it would be stale otherwise. -/
theorem pointer_of_clean (h : Clean (unitPointer d unit)) (hcurrent : unit.pointer.line = some id) :
    Clean (currentLine d.pool unit.id id unit.pointer.page) := by
  rw [unitPointer, hcurrent] at h
  cases hstate : unit.state with
  | active => rwa [hstate] at h
  | unused | full =>
    rw [hstate] at h
    exact absurd h not_clean_failure

/-- The ownership of a unit's current line is found in one phase, its state and its pages in
another one. -/
theorem backs_unit (hchecked : d.checkAll.hasError = false)
    (hunit : unit ∈ d.configuration.units.toList) : d.pool.Backs (some unit.id) unit.pointer := by
  intro id hcurrent
  have hownership : Clean (ownership d) := clean_of_checked hchecked .ownership
  have hpointers : Clean (writePointers d) := clean_of_checked hchecked .writePointers
  have howner :=
    ownerOf_of_clean (clean_flatMap_iff.1 (clean_append.1 hownership).2 unit hunit) hcurrent
  obtain ⟨l, hline, hstate, hpage, hroom⟩ :=
    currentLine_of_clean (pointer_of_clean (clean_flatMap_iff.1 hpointers unit hunit) hcurrent)
  rw [Pool.ownerOf_eq hline] at howner
  exact ⟨l, hline, hstate, howner, hpage, hpage ▸ hroom⟩

end Units

/-- Units that go by different numbers have different current lines, as the owner of a line is one
number. -/
theorem unitsApart_of_numbered
    (hunits : ∀ u unit, d.configuration.unit? u = some unit →
      d.pool.Backs (some unit.id) unit.pointer)
    (hnumbered : d.UnitsNumberedApart) : d.UnitsApart := by
  intro u v id hu hv
  obtain ⟨a, ha, hcurrentA⟩ := Device.exists_unit_of_current hu
  obtain ⟨b, hb, hcurrentB⟩ := Device.exists_unit_of_current hv
  obtain ⟨l, hline, -, hownerA, -⟩ := hunits u a ha id hcurrentA
  obtain ⟨k, hline', -, hownerB, -⟩ := hunits v b hb id hcurrentB
  obtain rfl : l = k := Option.some.inj (hline.symm.trans hline')
  exact hnumbered u v a b ha hb (Option.some.inj (hownerA.symm.trans hownerB))

/-! ### Counting the writers -/

theorem writerCount_of_checked (hchecked : d.checkAll.hasError = false) :
    writerCount d = d.pool.countState .active := by
  have hpartition : Clean (partition d) := clean_of_checked hchecked .partition
  simpa using fine_of_clean (clean_append.1 hpartition).2

section Counting

variable (hpath : d.pool.Backs none d.path.pointer)
  (hunits : ∀ u unit, d.configuration.unit? u = some unit →
    d.pool.Backs (some unit.id) unit.pointer)
include hpath hunits

/-- The line of a writer is active, and has an owner if and only if the writer is a unit. -/
theorem active_of_current {o : Option UnitId} {id : LineId}
    (hcurrent : (d.writePointer o).line = some id) :
    ∃ l, d.pool.lines[id]? = some l ∧ l.state = .active ∧ l.owner.isSome = o.isSome := by
  cases o with
  | none =>
    obtain ⟨l, hline, hstate, howner, -⟩ := hpath id hcurrent
    exact ⟨l, hline, hstate, by rw [howner]⟩
  | some u =>
    obtain ⟨unit, hunit, hcurrent⟩ := Device.exists_unit_of_current hcurrent
    obtain ⟨l, hline, hstate, howner, -⟩ := hunits u unit hunit id hcurrent
    exact ⟨l, hline, hstate, by rw [howner]; rfl⟩

theorem writer_eq_of_current (hapart : d.UnitsApart) {o o' : Option UnitId} {id : LineId}
    (hcurrent : (d.writePointer o).line = some id)
    (hcurrent' : (d.writePointer o').line = some id) : o = o' := by
  obtain ⟨l, hline, -, howner⟩ := active_of_current hpath hunits hcurrent
  obtain ⟨k, hline', -, howner'⟩ := active_of_current hpath hunits hcurrent'
  obtain rfl : l = k := Option.some.inj (hline.symm.trans hline')
  have hsame : o.isSome = o'.isSome := howner.symm.trans howner'
  cases o with
  | none =>
    cases o' with
    | none => rfl
    | some v => cases hsame
  | some u =>
    cases o' with
    | none => cases hsame
    | some v => rw [hapart u v id hcurrent hcurrent']

/-- There are as many current lines as active lines, so that they are the same lines. -/
theorem mem_currentLines_of_active (hchecked : d.checkAll.hasError = false)
    (hapart : d.UnitsApart) {id : LineId} {l : Line} (hline : d.pool.lines[id]? = some l)
    (hstate : l.state = .active) : id ∈ currentLines d := by
  have hnodup : (currentLines d).Nodup :=
    (nodup_writers d).filterMap fun o o' i hi hi' =>
      writer_eq_of_current hpath hunits hapart hi hi'
  have hactive : ∀ i ∈ currentLines d, ∃ k, d.pool.lines[i]? = some k ∧ k.state = .active := by
    intro i hi
    obtain ⟨o, -, hcurrent⟩ := List.mem_filterMap.1 hi
    obtain ⟨k, hk, hactive, -⟩ := active_of_current hpath hunits hcurrent
    exact ⟨k, hk, hactive⟩
  have hlength : d.pool.countState .active ≤ (currentLines d).length := by
    rw [← writerCount_eq, writerCount_of_checked hchecked]
  exact (Pool.mem_iff_of_countState_le hnodup hactive hlength id).2 ⟨l, hline, hstate⟩

theorem existsUnique_writer (hchecked : d.checkAll.hasError = false) (hapart : d.UnitsApart)
    {id : LineId} {l : Line} (hline : d.pool.lines[id]? = some l) (hstate : l.state = .active) :
    ∃! o, (d.writePointer o).line = some id := by
  have hmem := mem_currentLines_of_active hpath hunits hchecked hapart hline hstate
  obtain ⟨o, -, hcurrent⟩ := List.mem_filterMap.1 hmem
  exact ⟨o, hcurrent, fun o' hcurrent' =>
    writer_eq_of_current hpath hunits hapart hcurrent' hcurrent⟩

end Counting

/-- Whatever the state of a device, if its check finds no error then all units write into lines of
their own, and different ones if the units go by different numbers. All writers do so, and every
active line has one writer, if and only if moreover the pointer of the plain path is in order, of
which the check finds nothing. -/
theorem writers_of_checked (hchecked : d.checkAll.hasError = false) :
    (∀ u unit, d.configuration.unit? u = some unit →
        d.pool.Backs (some unit.id) unit.pointer) ∧
      (d.UnitsNumberedApart → d.UnitsApart) ∧
        (d.WritersPlaced ↔ d.pool.Backs none d.path.pointer ∧ d.UnitsApart) := by
  have hunits : ∀ u unit, d.configuration.unit? u = some unit →
      d.pool.Backs (some unit.id) unit.pointer := by
    intro u unit hunit
    apply backs_unit hchecked
    rw [Array.mem_toList_iff]
    exact Array.mem_of_getElem? hunit
  refine ⟨hunits, unitsApart_of_numbered hunits, fun h => ⟨h.path, ?_⟩, fun ⟨hpath, hapart⟩ => ?_⟩
  · intro u v id hu hv
    obtain ⟨unit, hunit, hcurrent⟩ := Device.exists_unit_of_current hu
    obtain ⟨l, hline, hstate, -⟩ := hunits u unit hunit id hcurrent
    exact Option.some.inj ((h.writer id l hline hstate).unique hu hv)
  · exact ⟨hpath, hunits, fun id l hline hstate =>
      existsUnique_writer hpath hunits hchecked hapart hline hstate⟩

/-- A checked device with two units that write, and a plain path that is closed. -/
theorem writers_of_checked_units :
    ∃ fresh, Device.build ⟨4, 2, 6, 1, by decide⟩ { handles := 2 } (.steady 0 1) = .ok fresh ∧
      let rs : List (Device.Request Host.Window) := [.enable, .write (.placed 0 3 0)]
      let d := fresh.run rs
      d.checkAll.hasError = false ∧ d.writePointer (some 0) = ⟨some 0, 1⟩ ∧
        d.writePointer (some 1) = ⟨some 3, 0⟩ ∧ d.UnitsApart ∧ d.WritersPlaced := by
  have hbuild : Device.build ⟨4, 2, 6, 1, by decide⟩ { handles := 2 } (.steady 0 1) = .ok _ := rfl
  refine ⟨_, hbuild, ?_⟩
  intro rs d
  obtain ⟨hchecked, hfirst, hsecond, hpath⟩ : d.checkAll.hasError = false ∧
      d.writePointer (some 0) = ⟨some 0, 1⟩ ∧ d.writePointer (some 1) = ⟨some 3, 0⟩ ∧
      d.path.pointer.line = none := by decide +kernel
  obtain ⟨-, hapart, hplaced⟩ := writers_of_checked hchecked
  have hnumbered : d.UnitsNumberedApart := by
    intro u v a b ha hb hsame
    have hshaped := (Device.shaped_run hbuild rs).1
    exact (hshaped.numbered u a ha).1.symm.trans (hsame.trans (hshaped.numbered v b hb).1)
  have hbacks : d.pool.Backs none d.path.pointer := by
    intro id hcurrent
    rw [hpath] at hcurrent
    cases hcurrent
  exact ⟨hchecked, hfirst, hsecond, hapart hnumbered,
    hplaced.2 ⟨hbacks, hapart hnumbered⟩⟩

/-- A plain path that has been led astray to a free line, on which the check finds no error. -/
theorem unnoticed_stray_path :
    ∃ fresh, Device.build ⟨4, 4, 4, 1, by decide⟩ { handles := 1 } (.steady 0 1) = .ok fresh ∧
      let d := fresh.run ([.write (.plain 0 3)] : List (Device.Request Host.Window))
      let stray := { d with path := { d.path with pointer := ⟨some 1, 1⟩ } }
      stray.checkAll.hasError = false ∧ ¬ stray.WritersPlaced := by
  have hbuild : Device.build ⟨4, 4, 4, 1, by decide⟩ { handles := 1 } (.steady 0 1) = .ok _ := rfl
  refine ⟨_, hbuild, ?_⟩
  intro d stray
  refine ⟨by decide +kernel, fun h => ?_⟩
  obtain ⟨l, hline, hstate, -⟩ := h.path 1 rfl
  have hfree : (stray.pool.lines[1]?.map (·.state)) = some .free := by decide +kernel
  rw [hline] at hfree
  simp [hstate] at hfree

end Audit

end DataPlacement
