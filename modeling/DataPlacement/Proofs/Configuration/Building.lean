import DataPlacement.Configuration.Distribution
import DataPlacement.Proofs.Configuration.Units

namespace DataPlacement

/-- Parameters that are accepted with a valid geometry. -/
structure Parameters.Accepted (params : Parameters) : Prop where
  groups : 0 < params.groups
  handles : 0 < params.handles
  table : params.handles ≤ maxHandles
  count : params.groups * params.handles < bitRange 16

namespace Configuration

variable {c c' : Configuration} {g : Geometry} {params : Parameters}

/-- The configuration that accepted parameters lead to. -/
def built (g : Geometry) (params : Parameters) : Configuration where
  attributes := params.attributes
  groups := params.groups
  handles := params.handles
  groupBits := bitsFor params.groups
  pageSize := g.pageSize
  groupBlocks := g.totalBlocks / params.groups
  units := (Array.range (params.groups * params.handles)).map
    (unitAt params.handles (g.capacityBytes / (params.groups * params.handles)))
  handleMap := standardMap params.handles

theorem build_eq_ok_iff :
    build g params = .ok c ↔ g.validate = .ok () ∧ params.Accepted ∧ c = built g params := by
  simp only [build, bind, Except.bind, pure, Except.pure, throw, throwThe, MonadExceptOf.throw]
  cases hvalid : g.validate with
  | error cause => simp
  | ok _ =>
    by_cases hgroups : params.groups = 0
    · have hrefused : ¬ params.Accepted := fun h => absurd hgroups (Nat.ne_of_gt h.groups)
      simp [hgroups, hrefused]
    · by_cases hhandles : params.handles = 0
      · have hrefused : ¬ params.Accepted := fun h => absurd hhandles (Nat.ne_of_gt h.handles)
        simp [hgroups, hhandles, hrefused]
      · by_cases htable : maxHandles < params.handles
        · have hrefused : ¬ params.Accepted := fun h => absurd h.table (Nat.not_le.2 htable)
          simp [hgroups, hhandles, htable, hrefused]
        · by_cases hcount : bitRange 16 ≤ params.groups * params.handles
          · have hrefused : ¬ params.Accepted := fun h => absurd h.count (Nat.not_lt.2 hcount)
            simp [hgroups, hhandles, htable, hcount, hrefused]
          · have haccepted : params.Accepted := ⟨Nat.pos_of_ne_zero hgroups,
              Nat.pos_of_ne_zero hhandles, Nat.le_of_not_lt htable, Nat.lt_of_not_le hcount⟩
            simp [hgroups, hhandles, htable, hcount, haccepted, built, eq_comm]

theorem unit?_built {u : UnitId} (hu : u < params.groups * params.handles) :
    (built g params).unit? u =
      some (unitAt params.handles (g.capacityBytes / (params.groups * params.handles)) u) := by
  simp [unit?, built, hu]

theorem eq_unitAt_of_unit?_built {u : UnitId} {unit : ReclaimUnit}
    (hunit : (built g params).unit? u = some unit) :
    unit = unitAt params.handles (g.capacityBytes / (params.groups * params.handles)) u := by
  have hu : u < params.groups * params.handles := by
    simpa [built] using (Array.getElem?_eq_some_iff.1 hunit).1
  rw [unit?_built hu] at hunit
  exact (Option.some.inj hunit).symm

/-! ### Shape -/

/-- The shape that a configuration is built in. -/
structure Shaped (c : Configuration) : Prop where
  groups : 0 < c.groups
  handles : 0 < c.handles
  table : c.handles ≤ maxHandles
  count : c.groups * c.handles < bitRange 16
  groupBits : c.groupBits = bitsFor c.groups
  handleMap : c.handleMap = standardMap c.handles
  size : c.units.size = c.groups * c.handles
  numbered : ∀ u unit, c.unit? u = some unit →
    unit.id = u ∧ unit.group = u / c.handles ∧ unit.handle = u % c.handles

theorem shaped_build (h : build g params = .ok c) : c.Shaped := by
  obtain ⟨-, haccepted, rfl⟩ := build_eq_ok_iff.1 h
  refine ⟨haccepted.groups, haccepted.handles, haccepted.table, haccepted.count, rfl, rfl, ?_,
    fun u unit hunit => ?_⟩
  · simp [built]
  · rw [eq_unitAt_of_unit?_built hunit]
    exact ⟨rfl, rfl, rfl⟩

theorem unit?_blank (u : UnitId) : c.blank.unit? u = (c.unit? u).map (·.reset) := by
  simp [unit?, blank]

theorem shaped_blank : c.blank.Shaped ↔ c.Shaped := by
  have hsize : c.blank.units.size = c.units.size := by simp [blank]
  constructor
  · intro h
    refine ⟨h.groups, h.handles, h.table, h.count, h.groupBits, h.handleMap,
      hsize.symm.trans h.size, fun u unit hunit => ?_⟩
    exact h.numbered u unit.reset (by rw [unit?_blank, hunit]; rfl)
  · intro h
    refine ⟨h.groups, h.handles, h.table, h.count, h.groupBits, h.handleMap, hsize.trans h.size,
      fun u unit hunit => ?_⟩
    rw [unit?_blank] at hunit
    obtain ⟨before, hbefore, rfl⟩ := Option.map_eq_some_iff.1 hunit
    exact h.numbered u before hbefore

/-- Nothing that keeps the rest of a configuration touches its shape. -/
theorem Shaped.of_blank (h : c.Shaped) (hblank : c'.blank = c.blank) : c'.Shaped := by
  rw [← shaped_blank, hblank, shaped_blank]
  exact h

namespace Shaped

theorem exists_unit (h : c.Shaped) {group handle : Nat} (hgroup : group < c.groups)
    (hhandle : handle < c.handles) :
    ∃ unit, c.unit? (group * c.handles + handle) = some unit ∧ unit.group = group ∧
      unit.handle = handle := by
  have hu : group * c.handles + handle < c.units.size := by
    calc group * c.handles + handle
      _ < (group + 1) * c.handles := by rw [Nat.add_mul, Nat.one_mul]; omega
      _ ≤ c.groups * c.handles := Nat.mul_le_mul_right _ hgroup
      _ = c.units.size := h.size.symm
  refine ⟨_, Array.getElem?_eq_getElem hu, ?_⟩
  obtain ⟨-, hgroup', hhandle'⟩ := h.numbered _ _ (Array.getElem?_eq_getElem hu)
  rw [hgroup', hhandle', Nat.mul_comm]
  exact ⟨by rw [Nat.mul_add_div h.handles, Nat.div_eq_of_lt hhandle, Nat.add_zero],
    by rw [Nat.mul_add_mod, Nat.mod_eq_of_lt hhandle]⟩

theorem lt_of_unit (h : c.Shaped) {u : UnitId} {unit : ReclaimUnit}
    (hunit : c.unit? u = some unit) : unit.group < c.groups ∧ unit.handle < c.handles := by
  obtain ⟨-, hgroup, hhandle⟩ := h.numbered u unit hunit
  have hu : u < c.groups * c.handles := h.size ▸ (Array.getElem?_eq_some_iff.1 hunit).1
  rw [hgroup, hhandle]
  exact ⟨Nat.div_lt_of_lt_mul (by rwa [Nat.mul_comm]), Nat.mod_lt _ h.handles⟩

/-- A group and a handle lead to the unit of that group with that handle. -/
theorem resolve (h : c.Shaped) {group handle : Nat} (hgroup : group < c.groups)
    (hhandle : handle < c.handles) :
    c.resolve ⟨group, handle⟩ = .ok (group * c.handles + handle) := by
  have htable : handle < maxHandles := Nat.lt_of_lt_of_le hhandle h.table
  have hmapped : c.unitHandle? handle = some handle := by
    simp [unitHandle?, h.handleMap, standardMap, htable, hhandle]
  have hlisted : (c.groupUnits group)[handle]? = some (group * c.handles + handle) := by
    simp [groupUnits, hhandle]
  rw [Configuration.resolve, if_neg (Nat.not_le.2 hgroup), hmapped, Option.bind_some, hlisted]

theorem resolve_of_unit (h : c.Shaped) {u : UnitId} {unit : ReclaimUnit}
    (hunit : c.unit? u = some unit) : c.resolve ⟨unit.group, unit.handle⟩ = .ok u := by
  obtain ⟨hgroup, hhandle⟩ := h.lt_of_unit hunit
  obtain ⟨-, hdiv, hmod⟩ := h.numbered u unit hunit
  rw [h.resolve hgroup hhandle, hdiv, hmod, Nat.div_add_mod']

end Shaped

end Configuration

end DataPlacement
