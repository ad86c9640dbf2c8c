import DataPlacement.Proofs.Configuration.Descent

namespace DataPlacement.Configuration

variable {c fresh : Configuration} {g : Geometry} {params : Parameters}

/-! ### Making the units -/

/-- One more unit of a group. Its number is how many units there are, in 16 bits. -/
def makeUnit (capacity group : Nat) (s : Array ReclaimUnit × Array UnitId) (handle : Nat) :
    Array ReclaimUnit × Array UnitId :=
  let id := lowBits 16 s.1.size
  (s.1.push { id := id, group := group, handle := handle, capacity := capacity }, s.2.push id)

/-- One more group, with a unit for each handle. -/
def makeGroup (handles capacity : Nat) (s : Array ReclaimUnit × Array (Array UnitId))
    (group : Nat) : Array ReclaimUnit × Array (Array UnitId) :=
  let (units, ids) := (List.range handles).foldl (makeUnit capacity group) (s.1, #[])
  (units, s.2.push ids)

/-- The units of all groups, and the numbers of those of each group. -/
def makeUnits (groups handles capacity : Nat) : Array ReclaimUnit × Array (Array UnitId) :=
  (List.range groups).foldl (makeGroup handles capacity) (#[], #[])

/-- The table of placement handles: unit handle 0 everywhere, and then at its start the unit
handles there are. -/
def fillMap (handles : Nat) : Array (Option Nat) :=
  (List.range handles).foldl (fun map handle => map.setIfInBounds handle (some handle))
    (Array.replicate maxHandles (some 0))

section Making

variable {groups handles capacity : Nat}

/-- Within 16 bits the units of a group are numbered on from those before. -/
theorem foldl_makeUnit (group : Nat) {units : Array ReclaimUnit}
    (hcount : units.size + handles ≤ bitRange 16) :
    (List.range handles).foldl (makeUnit capacity group) (units, #[]) =
      (units ++ (Array.range handles).map fun handle =>
          { id := units.size + handle, group := group, handle := handle, capacity := capacity },
        (Array.range handles).map (units.size + ·)) := by
  induction handles with
  | zero => simp
  | succ handles ih =>
    have hnext : lowBits 16 (units.size + handles) = units.size + handles :=
      Nat.mod_eq_of_lt (by omega)
    rw [List.range_succ, List.foldl_append, ih (by omega), List.foldl_cons, List.foldl_nil,
      makeUnit]
    simp [Array.range_succ, hnext]

/-- The units of one more group. -/
theorem map_unitAt_succ (groups : Nat) (hhandles : 0 < handles) :
    (Array.range ((groups + 1) * handles)).map (unitAt handles capacity) =
      (Array.range (groups * handles)).map (unitAt handles capacity) ++
        (Array.range handles).map fun handle =>
          { id := groups * handles + handle, group := groups, handle := handle,
            capacity := capacity } := by
  rw [Nat.add_mul, Nat.one_mul, Array.range_add, Array.map_append, Array.map_map]
  congr 1
  refine Array.map_congr_left fun handle hmem => ?_
  have hlt : handle < handles := by simpa using hmem
  have hdiv : (groups * handles + handle) / handles = groups := by
    rw [Nat.mul_comm, Nat.mul_add_div hhandles, Nat.div_eq_of_lt hlt, Nat.add_zero]
  have hmod : (groups * handles + handle) % handles = handle := by
    rw [Nat.mul_comm, Nat.mul_add_mod, Nat.mod_eq_of_lt hlt]
  simp [unitAt, hdiv, hmod]

/-- Made one by one, the units are those that their numbers say. -/
theorem makeUnits_eq (hhandles : 0 < handles) (hcount : groups * handles ≤ bitRange 16) :
    makeUnits groups handles capacity =
      ((Array.range (groups * handles)).map (unitAt handles capacity),
        (Array.range groups).map fun group => (Array.range handles).map (group * handles + ·)) := by
  unfold makeUnits
  induction groups with
  | zero => simp
  | succ groups ih =>
    rw [Nat.add_mul, Nat.one_mul] at hcount
    have hsize : ((Array.range (groups * handles)).map (unitAt handles capacity)).size =
        groups * handles := by simp
    rw [List.range_succ, List.foldl_append, ih (by omega), List.foldl_cons, List.foldl_nil,
      makeGroup, foldl_makeUnit groups (by rwa [hsize]), hsize]
    simp [map_unitAt_succ groups hhandles, Array.range_succ]

/-- Writing the first entries of a table one by one. -/
theorem foldl_setIfInBounds (map : Array (Option Nat)) (handles : Nat) :
    (List.range handles).foldl (fun map handle => map.setIfInBounds handle (some handle)) map =
      map.mapIdx fun handle entry => if handle < handles then some handle else entry := by
  induction handles with
  | zero =>
    refine Array.ext_getElem? fun i => ?_
    simp
  | succ handles ih =>
    rw [List.range_succ, List.foldl_append, ih, List.foldl_cons, List.foldl_nil]
    refine Array.ext_getElem? fun i => ?_
    simp only [Array.getElem?_setIfInBounds, Array.getElem?_mapIdx, Array.size_mapIdx]
    by_cases hi : handles = i
    · subst hi
      by_cases hsize : handles < map.size <;> simp [hsize]
    · have hlt : i < handles + 1 ↔ i < handles := by omega
      simp [hi, hlt]

theorem fillMap_eq (handles : Nat) : fillMap handles = standardMap handles := by
  refine Array.ext_getElem? fun handle => ?_
  rw [fillMap, foldl_setIfInBounds, standardMap]
  by_cases hhandle : handle < maxHandles
  · by_cases hlt : handle < handles <;> simp [hhandle, hlt]
  · simp [hhandle]

end Making

/-! ### Resolving -/

namespace Shaped

/-- The table of placement handles, entry by entry. -/
theorem unitHandle?_eq (h : c.Shaped) (handle : Nat) :
    c.unitHandle? handle =
      if handle < maxHandles then some (if handle < c.handles then handle else 0) else none := by
  rw [unitHandle?, h.handleMap, standardMap]
  by_cases hhandle : handle < maxHandles <;> simp [hhandle]

/-- What a placement leads to. The group is looked at before the handle. -/
theorem resolve_eq (h : c.Shaped) (placement : Placement) :
    c.resolve placement =
      if c.groups ≤ placement.group then .error (.invalidGroup placement.group)
      else if maxHandles ≤ placement.handle then .error (.invalidHandle placement.handle)
      else .ok (placement.group * c.handles +
        if placement.handle < c.handles then placement.handle else 0) := by
  rw [Configuration.resolve, h.unitHandle?_eq]
  by_cases hgroup : c.groups ≤ placement.group
  · rw [if_pos hgroup, if_pos hgroup]
  · by_cases hhandle : maxHandles ≤ placement.handle
    · simp [hgroup, hhandle, Nat.not_lt.2 hhandle]
    · have hunit : (if placement.handle < c.handles then placement.handle else 0) < c.handles := by
        have hpositive := h.handles
        split <;> omega
      simp [hgroup, hhandle, Nat.lt_of_not_le hhandle, groupUnits, hunit]

/-- A placement leads to a unit of its own group, if to any. -/
theorem exists_unit_of_resolve (h : c.Shaped) {placement : Placement} {u : UnitId}
    (hresolve : c.resolve placement = .ok u) :
    ∃ unit, c.unit? u = some unit ∧ unit.group = placement.group := by
  rw [h.resolve_eq] at hresolve
  split at hresolve
  · cases hresolve
  · next hgroup =>
    split at hresolve
    · cases hresolve
    · have hpositive := h.handles
      obtain rfl := Except.ok.inj hresolve
      have hhandle :
          (if placement.handle < c.handles then placement.handle else 0) < c.handles := by
        split <;> omega
      obtain ⟨unit, hunit, hown, -⟩ := h.exists_unit (Nat.lt_of_not_le hgroup) hhandle
      exact ⟨unit, hunit, hown⟩

/-- A placement of 16-bit numbers leads to each unit. -/
theorem exists_placement (h : c.Shaped) {u : UnitId} (hu : u < c.units.size) :
    ∃ placement : Placement, placement.group < bitRange 16 ∧ placement.handle < bitRange 16 ∧
      c.resolve placement = .ok u := by
  have hunit : c.unit? u = some c.units[u] := Array.getElem?_eq_getElem hu
  obtain ⟨hgroup, hhandle⟩ := h.lt_of_unit hunit
  have hgroups : c.groups ≤ c.groups * c.handles := Nat.le_mul_of_pos_right _ h.handles
  have hhandles : c.handles ≤ c.groups * c.handles := Nat.le_mul_of_pos_left _ h.groups
  have hcount := h.count
  exact ⟨⟨c.units[u].group, c.units[u].handle⟩, by simp only; omega, by simp only; omega,
    h.resolve_of_unit hunit⟩

end Shaped

/-- Built from accepted parameters and used in whatever way, a configuration has a unit for every
group and handle, numbered group by group, and a placement leads to the unit of its group with its
handle, or with handle 0 if there is no unit for the handle. It leads nowhere if there is no such
group, or if the handle is beyond the table. So a placement never leads out of its group or to a
unit that does not exist, and to every unit leads one. The units, the numbers of those of each group
and the table of handles are what making them one by one gives. -/
theorem resolves_within_groups (hbuild : build g params = .ok fresh) (hc : Descends fresh c) :
    c.units.size = params.groups * params.handles ∧
      (∀ u < params.groups * params.handles, ∃ unit, c.unit? u = some unit ∧ unit.id = u ∧
        unit.group = u / params.handles ∧ unit.handle = u % params.handles) ∧
      (∀ placement, c.resolve placement =
        if params.groups ≤ placement.group then .error (.invalidGroup placement.group)
        else if 128 ≤ placement.handle then .error (.invalidHandle placement.handle)
        else .ok (placement.group * params.handles +
          if placement.handle < params.handles then placement.handle else 0)) ∧
      (∀ placement u, c.resolve placement = .ok u →
        ∃ unit, c.unit? u = some unit ∧ unit.group = placement.group) ∧
      (∀ u < c.units.size, ∃ placement : Placement, placement.group < bitRange 16 ∧
        placement.handle < bitRange 16 ∧ c.resolve placement = .ok u) ∧
      makeUnits params.groups params.handles (g.capacityBytes / (params.groups * params.handles)) =
        (fresh.units, (Array.range params.groups).map fun group => (c.groupUnits group).toArray) ∧
      fillMap params.handles = c.handleMap := by
  have hshaped := hc.shaped hbuild
  obtain ⟨hgroups, hhandles⟩ := hc.parameters hbuild
  have hsize : c.units.size = params.groups * params.handles := by
    rw [hshaped.size, hgroups, hhandles]
  refine ⟨hsize, fun u hu => ?_, fun placement => ?_, fun placement u => ?_, fun u hu => ?_, ?_, ?_⟩
  · have hunit : c.unit? u = some c.units[u] := Array.getElem?_eq_getElem (hsize ▸ hu)
    have hnumbered := hshaped.numbered u _ hunit
    rw [hhandles] at hnumbered
    exact ⟨_, hunit, hnumbered⟩
  · have hresolve := hshaped.resolve_eq placement
    rwa [hgroups, hhandles] at hresolve
  · exact hshaped.exists_unit_of_resolve
  · exact hshaped.exists_placement hu
  · obtain ⟨-, haccepted, rfl⟩ := build_eq_ok_iff.1 hbuild
    rw [makeUnits_eq haccepted.handles (Nat.le_of_lt haccepted.count)]
    simp [groupUnits, hhandles, built, ← List.map_toArray, List.toArray_range]
  · rw [fillMap_eq, hshaped.handleMap, hhandles]

/-- Three groups of five units, in use: the last handle of the last group, a handle of the table
without a unit, a handle beyond the table, and a group that there is not. -/
theorem resolves_within_groups_of_three :
    ∃ fresh, build {} { groups := 3, handles := 5 } = .ok fresh ∧
      let c := (fresh.enable (.erased 20 4) (.steady 0 1)).state.1
      Descends fresh c ∧ c.enabled = true ∧ c.resolve ⟨2, 4⟩ = .ok 14 ∧
        c.resolve ⟨1, 127⟩ = .ok 5 ∧ c.resolve ⟨1, 128⟩ = .error (.invalidHandle 128) ∧
        c.resolve ⟨3, 128⟩ = .error (.invalidGroup 3) := by
  have hbuild : build {} { groups := 3, handles := 5 } = .ok _ := rfl
  refine ⟨_, hbuild, ?_⟩
  intro c
  have hc : Descends _ c := .enabled .unused (.erased 20 4) (.steady 0 1)
  obtain ⟨-, -, hresolve, -⟩ := resolves_within_groups hbuild hc
  exact ⟨hc, by decide +kernel, hresolve ⟨2, 4⟩, hresolve ⟨1, 127⟩, hresolve ⟨1, 128⟩,
    hresolve ⟨3, 128⟩⟩

end DataPlacement.Configuration
