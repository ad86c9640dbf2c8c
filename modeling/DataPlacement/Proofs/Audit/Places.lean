import DataPlacement.Audit.Device
import DataPlacement.Proofs.Configuration.Building
import DataPlacement.Proofs.Device.Partition
import DataPlacement.Proofs.Device.Rest
import DataPlacement.Proofs.Pool.Census

namespace DataPlacement

namespace Audit

/-! ### Findings without an error -/

/-- There is no error among findings. -/
def Clean (fs : List Finding) : Prop := ∀ f ∈ fs, f.severity ≠ .error

section Clean

variable {fs gs : List Finding} {fine : Bool} {code text : String}

theorem expect_of_fine (h : fine) (code text : String) : expect fine code text = [] :=
  if_pos h

theorem clean_append : Clean (fs ++ gs) ↔ Clean fs ∧ Clean gs :=
  List.forall_mem_append

theorem not_clean_failure : ¬ Clean [failure code text] :=
  fun h => h _ (List.mem_singleton.2 rfl) rfl

theorem fine_of_clean (h : Clean (expect fine code text)) : fine = true := by
  cases fine with
  | true => rfl
  | false => exact absurd h not_clean_failure

theorem clean_expect_iff : Clean (expect fine code text) ↔ fine = true :=
  ⟨fine_of_clean, fun h => by rw [expect_of_fine h]; exact List.forall_mem_nil _⟩

theorem clean_flatMap_iff {α : Type} {items : List α} {look : α → List Finding} :
    Clean (items.flatMap look) ↔ ∀ item ∈ items, Clean (look item) :=
  List.forall_mem_flatMap

end Clean

/-! ### Partition -/

/-- The check walks the lists that there are. -/
theorem listedLines_eq (p : Pool) : listedLines p = p.listedLines := by
  have hlists : (List.range p.reserved.size).map (fun u => p.freeLines (some u)) =
      p.reserved.toList.map (·.toList) := by
    apply List.ext_getElem?
    intro u
    by_cases hu : u < p.reserved.size
    · simp [Pool.freeLines, Pool.freeList, hu]
    · simp [hu]
  have hcompose : p.freeLines ∘ some = fun u => p.freeLines (some u) := rfl
  rw [listedLines, listOwners, List.map_cons, List.map_map, List.flatten_cons, hcompose, hlists,
    Pool.listedLines, Pool.reservedLines, List.flatMap_def]

/-- Free lines that are listed once each raise nothing. -/
theorem listedFindings_eq_nil {p : Pool} {seen : Array Bool} {ids : List LineId}
    (hnodup : ids.Nodup) (hfresh : ∀ id ∈ ids, seen[id]? ≠ some true)
    (hfree : ∀ id ∈ ids, ∃ l, p.lines[id]? = some l ∧ l.state = .free) :
    listedFindings p seen ids = [] := by
  induction ids generalizing seen with
  | nil => rfl
  | cons id ids ih =>
    obtain ⟨hnew, hnodup⟩ := List.nodup_cons.1 hnodup
    obtain ⟨l, hline, hstate⟩ := hfree id (by simp)
    have hlater : ∀ i ∈ ids, (seen.setIfInBounds id true)[i]? ≠ some true := by
      intro i hi
      have hne : id ≠ i := fun heq => hnew (heq ▸ hi)
      rw [Array.getElem?_setIfInBounds_ne hne]
      exact hfresh i (by simp [hi])
    have hrest := ih hnodup hlater fun i hi => hfree i (by simp [hi])
    rw [listedFindings, hline, hrest]
    simp [expect, hstate, hfresh id]

section Partition

variable {d : Device}

/-- The writers of a device: the plain path, and its units. -/
def writers (d : Device) : List (Option UnitId) :=
  none :: (List.range d.configuration.units.size).map some

/-- The current lines of the writers. -/
def currentLines (d : Device) : List LineId :=
  (writers d).filterMap fun o => (d.writePointer o).line

theorem writerCount_eq (d : Device) : writerCount d = (currentLines d).length := by
  have hunits := Pool.countP_eq_countP_range (fun u : ReclaimUnit => u.pointer.line.isSome)
    d.configuration.units.toList
  have hplaces : ∀ u,
      ((d.configuration.units.toList[u]?).any fun unit => unit.pointer.line.isSome) =
      (d.writePointer (some u)).line.isSome := by
    intro u
    rw [Array.getElem?_toList]
    simp only [Device.writePointer, Configuration.unit?]
    cases d.configuration.units[u]? <;> rfl
  rw [writerCount, currentLines, List.length_filterMap_eq_countP, writers, List.countP_cons,
    List.countP_map, hunits, Array.length_toList]
  congr 1
  apply List.countP_congr
  intro u _
  rw [hplaces]
  rfl

theorem nodup_writers (d : Device) : (writers d).Nodup := by
  refine List.nodup_cons.2 ⟨by simp, ?_⟩
  exact List.nodup_range.map (Option.some_injective UnitId)

end Partition

section Ownership

variable {d : Device}

theorem writePointer_of_unit? {u : UnitId} {unit : ReclaimUnit}
    (hunit : d.configuration.unit? u = some unit) : d.writePointer (some u) = unit.pointer := by
  simp [Device.writePointer, hunit]

end Ownership

section WritePointers

variable {d : Device}

end WritePointers

end Audit

end DataPlacement
