import DataPlacement.Proofs.Allocation.Returning
import DataPlacement.Proofs.Device.Addressing
import DataPlacement.Proofs.Device.Periods
import DataPlacement.Proofs.Device.Refusals
import DataPlacement.Proofs.Device.Standby

namespace DataPlacement

/-- From the record of a line to the record that is left when placement is turned off. -/
structure Line.GivenBack (l l' : Line) : Prop where
  owner : l'.owner = none
  erases : l'.erases = l.erases
  pages : l'.pages = l.pages
  state : l'.state =
    if l.owner.isSome ∧ l.state = .active then if l.pages = 0 then .free else .full else l.state
  unowned : l.owner = none → l' = l

theorem Line.givenBack_disowned (l : Line) (n : Nat) : l.GivenBack (l.disowned n) := by
  cases howner : l.owner with
  | none =>
    rw [disowned_of_unowned howner]
    exact ⟨howner, rfl, rfl, by simp [howner], fun _ => rfl⟩
  | some u =>
    have howned : l.owner = none → l.disowned n = l := fun hnone => by simp [hnone] at howner
    by_cases hstate : l.state = .active
    · by_cases hpages : l.pages = 0
      · have hfreed := disowned_of_untouched (n := n) howner hstate hpages
        exact ⟨by rw [hfreed], by rw [hfreed], by rw [hfreed],
          by simp [hfreed, howner, hstate, hpages], howned⟩
      · have hretired := disowned_of_written (n := n) howner hstate hpages
        exact ⟨by rw [hretired]; rfl, by rw [hretired]; rfl, by rw [hretired]; rfl,
          by simp [hretired, retire, howner, hstate, hpages], howned⟩
    · have hkept := disowned_of_inactive (n := n) hstate
      exact ⟨by rw [hkept], by rw [hkept], by rw [hkept], by simp [hkept, hstate], howned⟩

namespace Device

open Allocation

variable {d e : Device} {μ : Type} [Host.Memory μ]

/-! ### The number of lines -/

theorem Reachable.run (h : Reachable μ d) (rs : List (Request μ)) : Reachable μ (d.run rs) := by
  obtain ⟨g, params, clock, fresh, hbuild, earlier, rfl⟩ := h
  exact ⟨g, params, clock, fresh, hbuild, earlier ++ rs, (run_append fresh earlier rs).symm⟩

/-- A device keeps the lines that it was built with. -/
theorem Reachable.size_lines (h : Reachable μ d) : d.pool.lines.size = d.geometry.lines := by
  obtain ⟨g, params, clock, fresh, hbuild, rs, rfl⟩ := h
  have hchanges := changes_run (sound_build hbuild) rs
  have hsize : (fresh.run rs).pool.lines.size = fresh.pool.lines.size :=
    size_lines_of_steps hchanges.steps
  have hgeometry : fresh.geometry = g := by
    obtain ⟨c, -, rfl⟩ := exists_of_build hbuild
    rfl
  rw [hsize, hchanges.geometry, hgeometry, pool_build hbuild]
  exact Array.size_replicate

/-! ### Turning placement off -/

theorem Sound.freeLines_of_off (hd : d.Sound) (hoff : d.enabled = false) (u : UnitId) :
    d.pool.freeLines (some u) = [] := by
  refine List.eq_nil_iff_forall_not_mem.2 fun id hid => ?_
  have hlist := Pool.hasList_of_mem_freeLines hid
  simp [Pool.hasList, hd.reserved_of_off hoff] at hlist

/-- What turning placement off makes of a device. -/
structure HandedBack (d e : Device) : Prop where
  off : e.enabled = false
  /-- The shared list goes on with the lists of the units, and with their current lines to which
  nothing was written. -/
  shared : e.pool.freeLines none = d.pool.freeLines none ++ d.pool.reservedLines ++
    (List.range d.pool.lines.size).filter d.pool.untouched
  reserved : ∀ u, e.pool.freeLines (some u) = []
  size : e.pool.lines.size = d.pool.lines.size
  lines : ∀ (id : LineId) (l : Line), d.pool.lines[id]? = some l →
    ∃ l', e.pool.lines[id]? = some l' ∧ l.GivenBack l'
  path : e.path = d.path

theorem handedBack_disable (hd : d.Sound) (hon : d.enabled = true) :
    HandedBack d d.disable.state := by
  have hchanges := (changes_disable hd).1
  have hstate : d.disable.state = d.switchedOff := by rw [disable_of_on hon]; rfl
  rw [hstate] at hchanges ⊢
  refine ⟨rfl, hd.allocation.freeLines_dissolve, hchanges.sound.freeLines_of_off rfl,
    size_lines_of_steps hchanges.steps, fun id l hline => ?_, rfl⟩
  obtain ⟨n, hafter⟩ := hd.allocation.getElem?_dissolve id
  have hline : d.allocation.pool.lines[id]? = some l := hline
  rw [hline] at hafter
  exact ⟨l.disowned n, hafter, l.givenBack_disowned n⟩

theorem path_and_collector_disable (d : Device) :
    d.disable.state.path = d.path ∧ d.disable.state.collector = d.collector := by
  cases henabled : d.enabled with
  | false =>
    rw [disable_of_off henabled]
    exact ⟨rfl, rfl⟩
  | true =>
    rw [disable_of_on henabled]
    exact ⟨rfl, rfl⟩

/-! ### Erasing what waits for it -/

/-- Where nobody owns what was erased, no unit is opened. -/
theorem rearmOwners_of_unowned (now : Nat) {erased : List Reclaimed}
    (hunowned : ∀ r ∈ erased, r.owner = none) (d : Device) :
    rearmOwners now erased d = (d, []) := by
  induction erased with
  | nil => rfl
  | cons r rest ih =>
    rw [rearmOwners, hunowned r (by simp)]
    exact ih fun r hr => hunowned r (by simp [hr])

section Collected

variable (hd : d.Sound) (hoff : d.enabled = false) (hc : d.collector.policy.Reorders)
include hd hoff hc

theorem state_gc_of_off :
    (d.gc none).state = (d.pass none fun _ => true).state.tick := by
  obtain ⟨hresult, -, -⟩ := pass_of_reorders none (fun _ => true) hd hc
  have hunowned : ∀ r ∈ (d.collector.victims d.pool none fun _ => true).map
      (fun id => (⟨id, d.pool.ownerOf id⟩ : Reclaimed)), r.owner = none := by
    intro r hr
    obtain ⟨id, -, rfl⟩ := List.mem_map.1 hr
    exact hd.ownerOf_of_off hoff id
  rw [gc, collect_of_ok none hresult]
  dsimp only [Outcome.done]
  rw [rearmOwners_of_unowned _ hunowned]

/-- While placement is off a collection without a budget leaves no full line. -/
theorem state_ne_full_of_gc {id : LineId} {l : Line}
    (hline : (d.gc none).state.pool.lines[id]? = some l) : l.state ≠ .full := by
  obtain ⟨-, hpool, -⟩ := pass_of_reorders none (fun _ => true) hd hc
  rw [state_gc_of_off hd hoff hc] at hline
  have hline : (d.pass none fun _ => true).state.pool.lines[id]? = some l := hline
  rw [hpool.lines] at hline
  intro hfull
  split at hline
  · obtain ⟨k, -, rfl⟩ := Option.map_eq_some_iff.1 hline
    cases hfull
  · next hspared => exact hspared ((Collector.mem_victims hc).2 ⟨l, hline, hfull, rfl⟩)

end Collected

section Emptied

variable (he : e.Sound) (hoff : e.enabled = false)
  (hempty : ∀ (id : LineId) (l : Line), e.pool.lines[id]? = some l → l.state ≠ .full)
include he hoff hempty

/-- Without units and without full lines, a line is shared unless the plain path is writing it. -/
theorem mem_shared_of_empty {id : LineId} :
    id ∈ e.pool.freeLines none ↔ id < e.pool.lines.size ∧ e.path.pointer.line ≠ some id := by
  have hmem := he.allocation.mem_freeLines none id
  have hcurrent := he.allocation.current none id
  constructor
  · intro hid
    obtain ⟨l, hline, hstate, -⟩ := hmem.1 hid
    have hidle := he.allocation.ne_current hline (by simp [hstate]) none
    exact ⟨(Array.getElem?_eq_some_iff.1 hline).1, hidle⟩
  · rintro ⟨hlt, hidle⟩
    have hline : e.pool.lines[id]? = some e.pool.lines[id] := Array.getElem?_eq_getElem hlt
    have howner : e.pool.lines[id].owner = none :=
      (Pool.ownerOf_eq hline).symm.trans (he.ownerOf_of_off hoff id)
    cases hstate : e.pool.lines[id].state with
    | free => exact hmem.2 ⟨_, hline, hstate, howner⟩
    | active => exact absurd (hcurrent.2 ⟨_, hline, hstate, howner⟩) hidle
    | full => exact absurd hstate (hempty id _ hline)

theorem length_shared_of_empty :
    (e.pool.freeLines none).length =
      e.pool.lines.size - if e.path.pointer.line.isSome then 1 else 0 := by
  have hnodup : (e.pool.freeLines none).Nodup := he.allocation.nodup none
  cases hline : e.path.pointer.line with
  | none =>
    have hperm : (e.pool.freeLines none).Perm (List.range e.pool.lines.size) := by
      refine (List.perm_ext_iff_of_nodup hnodup List.nodup_range).2 fun id => ?_
      rw [mem_shared_of_empty he hoff hempty, hline, List.mem_range]
      simp
    rw [hperm.length_eq, List.length_range]
    rfl
  | some current =>
    have hperm : (e.pool.freeLines none).Perm ((List.range e.pool.lines.size).erase current) := by
      refine (List.perm_ext_iff_of_nodup hnodup (List.nodup_range.erase current)).2 fun id => ?_
      rw [mem_shared_of_empty he hoff hempty, hline, List.nodup_range.mem_erase_iff,
        List.mem_range, and_comm, ne_comm]
      simp
    obtain ⟨l, hcurrent, -⟩ := (he.allocation.current none current).1 hline
    have hmem : current ∈ List.range e.pool.lines.size :=
      List.mem_range.2 (Array.getElem?_eq_some_iff.1 hcurrent).1
    rw [hperm.length_eq, List.length_erase_of_mem hmem, List.length_range]
    rfl

end Emptied

/-! ### Turning placement on again -/

theorem size_shared_surrendered (d : Device) :
    d.surrendered.shared.size = (d.pool.freeLines none).length := by
  unfold surrendered
  split
  · exact d.pool.size_shared_eq_length
  · rw [Pool.size_shared_eq_length, Pool.freeLines_retire]

/-- Placement can be turned on if and only if there is a shared line for every unit, and then all
shared lines are dealt out. -/
theorem enable_eq_ok_iff (hd : d.Sound) (hp : d.Poised) (hoff : d.enabled = false)
    (hunits : 0 < d.configuration.units.size) :
    ((∃ dist, d.enable.result = .ok (some dist)) ↔
        d.configuration.units.size ≤ (d.pool.freeLines none).length) ∧
      ∀ dist, d.enable.result = .ok (some dist) → dist.total = (d.pool.freeLines none).length := by
  have hclose := close_of_begun hp.begun
  have hsize := size_shared_surrendered d
  rcases Nat.lt_or_ge d.surrendered.shared.size d.configuration.units.size with hfew | hmany
  · obtain ⟨u, notices, -, henable⟩ := enable_of_scarce hoff hclose hfew
    have hresult : ∀ dist, d.enable.result ≠ .ok (some dist) := by
      intro dist hok
      rw [henable] at hok
      cases hok
    refine ⟨iff_of_false (fun ⟨dist, hok⟩ => hresult dist hok) (by omega), fun dist hok => ?_⟩
    exact absurd hok (hresult dist)
  · obtain ⟨dist, c, q, notices, -, -, hdistributed, henable⟩ :=
      enable_of_ample hoff hclose (sound_surrendered hd hp.begun) hmany
    have hresult : d.enable.result = .ok (some dist) := by rw [henable]; rfl
    refine ⟨iff_of_true ⟨dist, hresult⟩ (by omega), fun dist' hok => ?_⟩
    obtain rfl : dist = dist' := Option.some.inj (Except.ok.inj (hresult.symm.trans hok))
    rw [Distribution.total, sumOf_eq_sum, List.map_id, hdistributed.shares,
      Distribution.sum_shares_of_pos _ hunits, hsize]

/-! ### All in all -/

/-- Every line is free and in the shared list once, but for the line that the plain path is
writing. -/
structure Emptied (d e : Device) : Prop where
  nodup_shared : (e.pool.freeLines none).Nodup
  mem_shared : ∀ id, id ∈ e.pool.freeLines none ↔
    id < d.geometry.lines ∧ d.path.pointer.line ≠ some id
  free : ∀ id ∈ e.pool.freeLines none,
    ∃ l, e.pool.lines[id]? = some l ∧ l.state = .free ∧ l.owner = none
  size : e.pool.lines.size = d.geometry.lines
  path : e.path = d.path

/-- Lines that can be dealt out once all else was erased: all but the one that the plain path is
writing. -/
def spareLines (d : Device) : Nat :=
  d.geometry.lines - if d.path.pointer.line.isSome then 1 else 0

theorem units_of_reachable (h : Reachable μ d) : 0 < d.configuration.units.size := by
  obtain ⟨g, params, clock, fresh, hbuild, rs, rfl⟩ := h
  have hshaped := (shaped_run hbuild rs).1
  rw [hshaped.size]
  exact Nat.mul_pos hshaped.groups hshaped.handles

section Restarted

variable (hd : Reachable μ d) (hc : d.collector.policy.Reorders)
include hd

theorem reachable_restart : Reachable μ (d.disable.state.gc none).state :=
  hd.run [.disable, .gc none]

include hc

/-- Turning placement off and erasing all full lines leaves nothing but free lines, and the line
that the plain path is writing. -/
theorem emptied_restart :
    let e := (d.disable.state.gc none).state
    Emptied d e ∧ e.enabled = false ∧ (e.pool.freeLines none).length = d.spareLines := by
  intro e
  obtain ⟨hchanges, hoff, -⟩ := changes_disable hd.sound
  obtain ⟨hpath, hcollector⟩ := path_and_collector_disable d
  have hc' : d.disable.state.collector.policy.Reorders := by rwa [hcollector]
  have hreach : Reachable μ e := reachable_restart hd
  have hgc : e = (d.disable.state.pass none fun _ => true).state.tick :=
    state_gc_of_off hchanges.sound hoff hc'
  have hoff' : e.enabled = false := by rw [hgc]; exact hoff
  have hpath' : e.path = d.path := by rw [hgc]; exact hpath
  have hgeometry : e.geometry = d.geometry := by rw [hgc]; exact hchanges.geometry
  have hsize : e.pool.lines.size = d.geometry.lines := hreach.size_lines.trans (by rw [hgeometry])
  have hempty : ∀ (id : LineId) (l : Line), e.pool.lines[id]? = some l → l.state ≠ .full :=
    fun id l hline => state_ne_full_of_gc hchanges.sound hoff hc' hline
  refine ⟨⟨hreach.sound.allocation.nodup none, fun id => ?_,
    fun id hid => (hreach.sound.allocation.mem_freeLines none id).1 hid, hsize, hpath'⟩, hoff', ?_⟩
  · rw [mem_shared_of_empty hreach.sound hoff' hempty, hsize, hpath']
  · rw [length_shared_of_empty hreach.sound hoff' hempty, hsize, hpath', spareLines]

end Restarted

/-- Turning placement off hands all lines back. After that, and after a collection without a budget
under a policy that only reorders, every line is free and shared once, but for the line of the plain
path. Turning placement on then succeeds if and only if that is a line for every unit, and deals out
all of them. -/
theorem disable_loses_no_line (hd : Reachable μ d) :
    (d.enabled = true → d.disable.result = .ok true ∧ HandedBack d d.disable.state) ∧
      (d.collector.policy.Reorders →
        let collection := d.disable.state.gc none
        let e := collection.state
        (∃ erased, collection.result = .ok erased) ∧ Emptied d e ∧
          ((∃ dist, e.enable.result = .ok (some dist)) ↔
            d.configuration.units.size ≤ d.spareLines) ∧
          ∀ dist, e.enable.result = .ok (some dist) → dist.total = d.spareLines) := by
  constructor
  · intro hon
    exact ⟨by rw [disable_of_on hon]; rfl, handedBack_disable hd.sound hon⟩
  · intro hc collection e
    obtain ⟨hchanges, -, -⟩ := changes_disable hd.sound
    obtain ⟨-, hcollector⟩ := path_and_collector_disable d
    have hresult := accepted_gc hchanges.sound (hcollector ▸ hc) none
    obtain ⟨hemptied, hoff, hlength⟩ := emptied_restart hd hc
    have hreach : Reachable μ e := reachable_restart hd
    have hunits : e.configuration.units.size = d.configuration.units.size :=
      Configuration.size_units_eq_of_blank
        (changes_run hd.sound ([.disable, .gc none] : List (Request μ))).blank
    obtain ⟨hiff, htotal⟩ := enable_eq_ok_iff hreach.sound hreach.poised hoff
      (units_of_reachable hreach)
    rw [hunits, hlength] at hiff
    exact ⟨hresult, hemptied, hiff, fun dist hok => (htotal dist hok).trans hlength⟩

/-- A device of which the plain path and both units are writing lines. -/
theorem disable_loses_no_line_of_busy_device :
    ∃ fresh, build ⟨4, 2, 6, 1, by decide⟩ { handles := 2 } (.steady 0 1) = .ok fresh ∧
      let rs : List (Request Host.Window) := [.write (.plain 0 7), .enable, .gc none,
        .write (.plain 0 3), .write (.placed 0 11 0)]
      let d := fresh.run rs
      Reachable Host.Window d ∧ d.enabled = true ∧ d.path.pointer = ⟨some 0, 1⟩ ∧
        HandedBack d d.disable.state ∧ d.disable.state.pool.freeLines none = [3, 5, 4] ∧
        let e := (d.disable.state.gc none).state
        Emptied d e ∧ ∃ dist, e.enable.result = .ok (some dist) ∧ dist.total = 5 := by
  have hbuild : build ⟨4, 2, 6, 1, by decide⟩ { handles := 2 } (.steady 0 1) = .ok _ := rfl
  refine ⟨_, hbuild, ?_⟩
  intro rs d
  have hreach : Reachable Host.Window d := ⟨_, _, _, _, hbuild, _, rfl⟩
  have horderly : ∀ r ∈ rs, r.Orderly := by simp [rs, Request.Orderly]
  have hc : d.collector.policy.Reorders :=
    reorders_run (sound_build hbuild) (reorders_build hbuild) horderly
  obtain ⟨hon, hpointer, hshared, hspare, hunits⟩ : d.enabled = true ∧
      d.path.pointer = ⟨some 0, 1⟩ ∧ d.disable.state.pool.freeLines none = [3, 5, 4] ∧
      d.spareLines = 5 ∧ d.configuration.units.size = 2 := by decide +kernel
  obtain ⟨hdisable, hrestart⟩ := disable_loses_no_line hreach
  obtain ⟨-, hemptied, hiff, htotal⟩ := hrestart hc
  obtain ⟨dist, hok⟩ := hiff.2 (by omega)
  exact ⟨hreach, hon, hpointer, (hdisable hon).2, hshared, hemptied, dist, hok,
    (htotal dist hok).trans hspare⟩

end Device

end DataPlacement
