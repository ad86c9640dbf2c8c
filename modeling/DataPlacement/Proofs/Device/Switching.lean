import DataPlacement.Device.Switching
import DataPlacement.Proofs.Allocation.Dissolving
import DataPlacement.Proofs.Configuration.Distribution
import DataPlacement.Proofs.Device.Attempts

namespace DataPlacement.Device

open Allocation

variable {d d' d'' : Device} {es fs : List LineEvent}

/-- From a device to a sound one of the same shape, by any moves. -/
structure Changes (d : Device) (es : List LineEvent) (d' : Device) : Prop where
  steps : Steps Move d.allocation es d'.allocation
  blank : d'.configuration.blank = d.configuration.blank
  geometry : d'.geometry = d.geometry
  sound : d'.Sound

theorem Changes.refl (hd : d.Sound) : Changes d [] d := ⟨.refl _, rfl, rfl, hd⟩

theorem Changes.trans (h : Changes d es d') (h' : Changes d' fs d'') :
    Changes d (es ++ fs) d'' :=
  ⟨h.steps.trans h'.steps, h'.blank.trans h.blank, h'.geometry.trans h.geometry, h'.sound⟩

theorem Advances.changes {W : Option UnitId → Prop} (h : Advances W d es d') (hd : d.Sound) :
    Changes d es d' :=
  ⟨steps_move_of_traffic h.steps, h.blank, h.geometry, h.sound hd⟩

namespace Sound

theorem reserved_of_off (hd : d.Sound) (hoff : d.enabled = false) : d.pool.reserved.size = 0 := by
  simpa [hoff] using hd.reserved

/-- While placement is off no line has an owner. -/
theorem ownerOf_of_off (hd : d.Sound) (hoff : d.enabled = false) (id : LineId) :
    d.pool.ownerOf id = none := by
  have hlist := hd.housed id
  cases howner : d.pool.ownerOf id with
  | none => rfl
  | some u => simp [howner, Pool.hasList, hd.reserved_of_off hoff] at hlist

/-- While placement is off no unit has a line. -/
theorem pointer_of_off (hd : d.Sound) (hoff : d.enabled = false) (u : UnitId) :
    d.allocation.pointer (some u) = .closed := by
  refine hd.allocation.eq_closed (Option.eq_none_iff_forall_ne_some.2 fun id hcurrent => ?_)
  obtain ⟨l, hline, -, howner⟩ := (hd.allocation.current (some u) id).1 hcurrent
  have hnone := (Pool.ownerOf_eq hline).symm.trans (hd.ownerOf_of_off hoff id)
  rw [howner] at hnone
  cases hnone

end Sound

/-! ### Off -/

theorem disable_of_off (hoff : d.enabled = false) :
    d.disable = .done false { d with capabilities := {} } := by
  have henabled : d.configuration.enabled = false := hoff
  simp [disable, onUnits_eq_mapState, Configuration.disable, henabled, Outcome.mapState,
    Outcome.done, setUnits]

/-- The device after placement was turned off. -/
def switchedOff (d : Device) : Device :=
  { d.setUnits (d.configuration.switchedOff, d.pool.dissolve) with capabilities := {} }

theorem disable_of_on (hon : d.enabled) :
    d.disable = .done true d.switchedOff [.disabled d.pool.dissolve.shared.size] := by
  have henabled : d.configuration.enabled = true := hon
  simp [disable, onUnits_eq_mapState, Configuration.disable, henabled, Outcome.mapState,
    Outcome.done, setUnits, switchedOff, Configuration.switchedOff]

theorem steps_switchedOff (hd : d.Sound) : Steps Move d.allocation [] d.switchedOff.allocation := by
  have hsteps := steps_dissolve hd.allocation
  have hafter : d.switchedOff.allocation =
      ⟨d.pool.dissolve, fun o => if o = none then d.allocation.pointer none else .closed⟩ :=
    congrArg (Allocation.mk _) (d.configuration.pointers_switchedOff d.path)
  rw [hafter]
  exact hsteps

theorem sound_switchedOff (hd : d.Sound) : d.switchedOff.Sound where
  allocation := sound_of_steps (steps_switchedOff hd) hd.allocation
  settled := d.configuration.settled_switchedOff
  reserved := (Pool.size_reserved_foldl_disown _ _).trans (by rw [Pool.reserved_shareReserved]; rfl)
  housed id := by
    have hnone : d.switchedOff.pool.ownerOf id = none := d.pool.ownerOf_dissolve id
    rw [hnone]
    rfl
  geometry := hd.geometry
  pageSize := hd.pageSize
  pagesPerLine := (Pool.pagesPerLine_foldl_disown _ _).trans
    ((Pool.pagesPerLine_shareReserved _).trans hd.pagesPerLine)

/-- Turning placement off leaves it off, and writes and erases nothing. -/
theorem changes_disable (hd : d.Sound) :
    Changes d [] d.disable.state ∧ d.disable.state.enabled = false ∧
      erasures d.disable.notices = [] := by
  cases henabled : d.enabled with
  | false =>
    rw [disable_of_off henabled]
    exact ⟨⟨.refl _, rfl, rfl, hd.allocation, hd.settled, hd.reserved, hd.housed, hd.geometry,
      hd.pageSize, hd.pagesPerLine⟩, henabled, rfl⟩
  | true =>
    rw [disable_of_on henabled]
    exact ⟨⟨steps_switchedOff hd, d.configuration.blank_switchedOff, rfl, sound_switchedOff hd⟩,
      rfl, rfl⟩

/-! ### On -/

/-- The device after its plain path gave up its line; `p` is the pool with that line. -/
def closed (d : Device) (p : Pool) : Device := d.setPath ({ d.path with pointer := .closed }, p)

theorem allocation_closed (d : Device) (p : Pool) :
    (d.closed p).allocation = point ⟨p, d.allocation.pointer⟩ none .closed := by
  rw [allocation, closed, setPath, d.configuration.pointers_setPath d.path]
  rfl

/-- The plain path of a sound device can always give up its line. -/
theorem close_eq (hd : d.Sound) :
    ∃ p, d.onPath PlainPath.close = .done () (d.closed p) ∧ d.pool.Keeps p ∧
      Steps Move d.allocation [] (d.closed p).allocation := by
  simp only [onPath_eq_mapState, allocation_closed]
  have hpath : d.allocation.pointer none = d.path.pointer := rfl
  cases hpointer : d.path.pointer with
  | mk line page =>
    rw [hpointer] at hpath
    cases line with
    | none =>
      refine ⟨d.pool, by rw [d.path.close_of_closed d.pool (by rw [hpointer])]; rfl, .refl _, ?_⟩
      have hclosed := hd.allocation.eq_closed (o := none) (by rw [hpath])
      rw [← hclosed, point_pointer]
      exact .refl _
    | some id =>
      obtain ⟨l, hline, hstate, howner, hpages, -⟩ := hd.allocation.of_pointer hpath
      by_cases hzero : page = 0
      · subst hzero
        have hclose := PlainPath.close_of_untouched hpointer hline hstate howner hpages
        refine ⟨d.pool.released none id, ?_, Pool.keeps_released _ _ _, ?_⟩
        · change (d.path.close d.allocation.pool).mapState _ = _
          rw [hclose]
          rfl
        · exact .single (.releases hpath)
      · refine ⟨d.pool.retire id, ?_, Pool.keeps_retire _ _, .single (.retires hpath hzero)⟩
        rw [PlainPath.close_of_written d.pool hpointer hzero]
        rfl

theorem sound_closed (hd : d.Sound) {p : Pool} (hkeeps : d.pool.Keeps p)
    (hsteps : Steps Move d.allocation [] (d.closed p).allocation) : (d.closed p).Sound where
  allocation := sound_of_steps hsteps hd.allocation
  settled := hd.settled
  reserved := hkeeps.reserved.trans hd.reserved
  housed id := by
    have hhoused := hd.housed id
    rwa [← hkeeps.owners, ← hkeeps.hasList] at hhoused
  geometry := hd.geometry
  pageSize := hd.pageSize
  pagesPerLine := hkeeps.pagesPerLine.trans hd.pagesPerLine

/-- The device after placement was turned on, with the units that were opened. -/
def switchedOn (d : Device) (c : Configuration) (p : Pool) : Device :=
  { d.setUnits ({ c with enabled := true }, p) with clock := d.clock.next, capabilities := .all }

section SwitchedOn

variable {dist : Distribution} {c : Configuration} {p : Pool}

/-- While placement was off nobody owned a line, so that a unit owns what it was dealt. -/
theorem card_owned_of_distributed (hd : d.Sound) (hoff : d.enabled = false)
    (h : Configuration.Distributed d.configuration d.pool d.path dist c p) (u : UnitId) :
    (p.owned (some u)).card = dist.perUnit.getD u 0 := by
  have hnone : d.pool.owned (some u) = ∅ := by
    refine Finset.eq_empty_of_forall_notMem fun id hid => ?_
    obtain ⟨l, hline, howner⟩ := Pool.mem_owned.1 hid
    have hunowned := (Pool.ownerOf_eq hline).symm.trans (hd.ownerOf_of_off hoff id)
    rw [howner] at hunowned
    cases hunowned
  rw [h.owned, hnone, Finset.card_empty, Nat.zero_add]

theorem length_perUnit (h : Configuration.Distributed d.configuration d.pool d.path dist c p) :
    dist.perUnit.length = d.configuration.units.size := by
  rw [h.shares, Distribution.length_shares]

/-- Each unit owns its share of the lines that were dealt out. -/
theorem shares_of_distributed (hd : d.Sound) (hoff : d.enabled = false)
    (h : Configuration.Distributed d.configuration d.pool d.path dist c p) {u : UnitId}
    (hu : u < d.configuration.units.size) :
    dist.perUnit[u]? = some (p.owned (some u)).card := by
  have hshare : u < dist.perUnit.length := by rwa [length_perUnit h]
  rw [card_owned_of_distributed hd hoff h, List.getD_eq_getElem?_getD,
    List.getElem?_eq_getElem hshare]
  rfl

theorem lt_of_owner_of_distributed (hd : d.Sound) (hoff : d.enabled = false)
    (h : Configuration.Distributed d.configuration d.pool d.path dist c p) {id : LineId}
    {u : UnitId} (howner : p.ownerOf id = some u) : u < d.configuration.units.size := by
  have hmem : id ∈ p.owned (some u) := by
    rw [Pool.ownerOf, Option.bind_eq_some_iff] at howner
    exact Pool.mem_owned.2 howner
  have hpositive := Finset.card_pos.2 ⟨id, hmem⟩
  rw [card_owned_of_distributed hd hoff h] at hpositive
  by_contra hout
  rw [← length_perUnit h] at hout
  rw [List.getD_eq_getElem?_getD, List.getElem?_eq_none (Nat.le_of_not_lt hout)] at hpositive
  exact absurd hpositive (Nat.lt_irrefl 0)

theorem sound_switchedOn (hd : d.Sound) (hoff : d.enabled = false)
    (h : Configuration.Distributed d.configuration d.pool d.path dist c p) :
    (d.switchedOn c p).Sound where
  allocation := sound_of_steps h.steps hd.allocation
  settled u unit hunit := by
    have hsize := Configuration.size_units_eq_of_blank h.opened.blank
    have hunit : c.unit? u = some unit := hunit
    have hu : u < c.units.size := (Array.getElem?_eq_some_iff.1 hunit).1
    obtain ⟨hstate, hline⟩ := h.opened.opened u (by rwa [List.mem_range, ← hsize]) unit hunit
    rw [hstate]
    change UnitState.active = .ofPointer true unit.pointer
    simp [UnitState.ofPointer, hline]
  reserved := h.reserved.trans (Configuration.size_units_eq_of_blank h.opened.blank).symm
  housed id := by
    change p.hasList (p.ownerOf id) = true
    cases howner : p.ownerOf id with
    | none => rfl
    | some u =>
      have hu := lt_of_owner_of_distributed hd hoff h howner
      simpa [Pool.hasList, h.reserved] using hu
  geometry := hd.geometry
  pageSize := (Configuration.pageSize_eq_of_blank h.opened.blank).trans hd.pageSize
  pagesPerLine := h.pagesPerLine.trans hd.pagesPerLine

end SwitchedOn

theorem enable_of_on (hon : d.enabled) : d.enable = .done none d := by
  simp [enable, hon]

section Closed

variable (hoff : d.enabled = false) {p : Pool}
  (hclose : d.onPath PlainPath.close = .done () (d.closed p))
include hoff hclose

/-- Once the plain path gave up its line, placement is turned off again if there are fewer lines
than units. -/
theorem enable_of_scarce (hfew : p.shared.size < d.configuration.units.size) :
    ∃ u notices, erasures notices = [] ∧
      d.enable = .refused (.distributionFailed u) (d.closed p).tick.disable.state
        (notices ++ .enableFailed (.distributionFailed u) ::
          (d.closed p).tick.disable.notices) := by
  have henabled : (d.closed p).configuration.enabled = false := hoff
  have hfew : (d.closed p).pool.shared.size < (d.closed p).configuration.units.size := hfew
  obtain ⟨u, notices, hfail, hquiet⟩ :=
    Configuration.distribute_of_scarce (d.closed p).clock.now hfew
  refine ⟨u, notices, hquiet, ?_⟩
  simp [enable, hoff, hclose, Outcome.done, Configuration.enable, henabled, hfail]
  rfl

/-- Otherwise the lines are dealt out. -/
theorem enable_of_ample (hsound : (d.closed p).Sound)
    (hmany : d.configuration.units.size ≤ p.shared.size) :
    ∃ dist c q notices, erasures notices = [] ∧
      d.configuration.distribute p d.clock.now = ⟨.ok dist, (c, q), notices⟩ ∧
      Configuration.Distributed d.configuration p (d.closed p).path dist c q ∧
      d.enable = .done (some dist) ((d.closed p).switchedOn c q)
        (notices ++ [.enabled c.units.size dist.total]) := by
  have hnone : (d.closed p).pool.reserved = #[] :=
    Array.size_eq_zero_iff.1 (hsound.reserved_of_off hoff)
  have henabled : (d.closed p).configuration.enabled = false := hoff
  have hmany : (d.closed p).configuration.units.size ≤ (d.closed p).pool.shared.size := hmany
  obtain ⟨dist, c, q, notices, hdone, hquiet, hdistributed⟩ :=
    Configuration.distribute_of_ample (d.closed p).path (d.closed p).clock.now hsound.allocation
      hnone (hsound.pointer_of_off hoff) hmany
  refine ⟨dist, c, q, notices, hquiet, hdone, hdistributed, ?_⟩
  simp [enable, hoff, hclose, Outcome.done, Configuration.enable, henabled, hdone]
  rfl

theorem enable_of_closed (hsound : (d.closed p).Sound) :
    (∃ u notices, erasures notices = [] ∧
        d.enable = .refused (.distributionFailed u) (d.closed p).tick.disable.state
          (notices ++ .enableFailed (.distributionFailed u) ::
            (d.closed p).tick.disable.notices)) ∨
      ∃ dist c q notices, erasures notices = [] ∧
        d.configuration.distribute p d.clock.now = ⟨.ok dist, (c, q), notices⟩ ∧
        Configuration.Distributed d.configuration p (d.closed p).path dist c q ∧
        d.enable = .done (some dist) ((d.closed p).switchedOn c q)
          (notices ++ [.enabled c.units.size dist.total]) := by
  rcases Nat.lt_or_ge p.shared.size d.configuration.units.size with hfew | hmany
  · exact .inl (enable_of_scarce hoff hclose hfew)
  · exact .inr (enable_of_ample hoff hclose hsound hmany)

end Closed

/-- Turning placement on closes the plain path first. Then either some unit would get no line and
placement is turned off again, or the lines are dealt out. -/
theorem enable_cases (hd : d.Sound) (hoff : d.enabled = false) :
    ∃ p, (d.closed p).Sound ∧ Steps Move d.allocation [] (d.closed p).allocation ∧
      ((∃ u notices, erasures notices = [] ∧
          d.enable = .refused (.distributionFailed u) (d.closed p).tick.disable.state
            (notices ++ .enableFailed (.distributionFailed u) ::
              (d.closed p).tick.disable.notices)) ∨
        ∃ dist c q notices, erasures notices = [] ∧
          d.configuration.distribute p d.clock.now = ⟨.ok dist, (c, q), notices⟩ ∧
          Configuration.Distributed d.configuration p (d.closed p).path dist c q ∧
          d.enable = .done (some dist) ((d.closed p).switchedOn c q)
            (notices ++ [.enabled c.units.size dist.total])) := by
  obtain ⟨p, hclose, hkeeps, hsteps⟩ := close_eq hd
  have hsound := sound_closed hd hkeeps hsteps
  exact ⟨p, hsound, hsteps, enable_of_closed hoff hclose hsound⟩

/-- How turning placement on ends. -/
inductive EnableEnd (d : Device) (o : Outcome Device (Option Distribution)) : Prop where
  /-- Placement was on, and nothing is done. -/
  | already (hon : d.enabled) (houtcome : o = .done none d)
  /-- Some unit would get no line, and placement stays off. -/
  | refused (hoff : d.enabled = false) (cause : Error) (after : Device) (notices : List Notice)
      (houtcome : o = .refused cause after notices) (hchanges : Changes d [] after)
      (hafter : after.enabled = false) (hquiet : erasures notices = [])
  /-- Each unit is given its share of the lines. -/
  | dealt (hoff : d.enabled = false) (dist : Distribution) (after : Device)
      (notices : List Notice) (houtcome : o = .done (some dist) after notices)
      (hchanges : Changes d [] after) (hafter : after.enabled) (hquiet : erasures notices = [])
      (hshares : ∀ u < d.configuration.units.size,
        dist.perUnit[u]? = some (after.pool.owned (some u)).card)

theorem enableEnd (hd : d.Sound) : EnableEnd d d.enable := by
  cases hoff : d.enabled with
  | true => exact .already hoff (enable_of_on hoff)
  | false =>
    obtain ⟨p, hsound, hsteps, ⟨u, notices, hquiet, henable⟩ |
      ⟨dist, c, q, notices, hquiet, -, hdistributed, henable⟩⟩ := enable_cases hd hoff
    · obtain ⟨hchanges, hafter, hquiet'⟩ := changes_disable hsound.tick
      refine .refused hoff _ _ _ henable
        ⟨hsteps.trans hchanges.steps, hchanges.blank, hchanges.geometry, hchanges.sound⟩ hafter ?_
      rw [erasures_append, hquiet, erasures_cons rfl, hquiet']
      rfl
    · have hshares : ∀ u < d.configuration.units.size,
          dist.perUnit[u]? = some (q.owned (some u)).card :=
        fun u hu => shares_of_distributed hsound hoff hdistributed hu
      refine .dealt hoff dist _ _ henable
        ⟨hsteps.trans hdistributed.steps, hdistributed.opened.blank, rfl,
          sound_switchedOn hsound hoff hdistributed⟩ rfl ?_ hshares
      rw [erasures_append, hquiet]
      rfl

/-- Turning placement on leaves the collector alone. -/
theorem collector_enable (d : Device) : d.enable.state.collector = d.collector := by
  have hpath : (d.onPath PlainPath.close).state.collector = d.collector := rfl
  unfold enable
  split
  · rfl
  · split
    · next hclose => rwa [hclose] at hpath
    · next hclose =>
      rw [hclose] at hpath
      dsimp only
      split
      · exact hpath
      · exact hpath

end DataPlacement.Device
