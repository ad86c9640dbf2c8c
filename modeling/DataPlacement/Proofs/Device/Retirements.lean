import DataPlacement.Proofs.Allocation.Retiring
import DataPlacement.Proofs.Device.Reclaiming
import DataPlacement.Proofs.Device.Standby

namespace DataPlacement

/-- The lines that a write reports to have become full. -/
def Outcome.retired {σ : Type} (o : Outcome σ WriteReport) : List LineId :=
  match o.result with
  | .ok r => r.retired
  | .error _ => []

namespace Pool

variable {p : Pool} {queue : List LineId} {wanted : Candidate → Bool}

theorem Queued.exists_line (h : p.Queued queue) {id : LineId} (hid : id ∈ queue) :
    ∃ l, p.lines[id]? = some l ∧ l.state = .full :=
  isSome_ageOf.1 ((h.mem id).1 hid)

theorem Queued.filter_wants_all (h : p.Queued queue) :
    queue.filter (p.wants fun _ => true) = queue := by
  refine List.filter_eq_self.2 fun id hid => ?_
  obtain ⟨l, hline, -⟩ := h.exists_line hid
  simp [wants, hline]

/-- The lines of an owner in the queue. -/
theorem Queued.filter_wants_owner (h : p.Queued queue) {o : Option UnitId}
    (hwanted : ∀ candidate, wanted candidate ↔ candidate.line.owner = o) :
    queue.filter (p.wants wanted) = queue.filter (p.ownerOf · = o) := by
  refine List.filter_congr fun id hid => ?_
  obtain ⟨l, hline, -⟩ := h.exists_line hid
  rw [ownerOf_eq hline, Bool.eq_iff_iff, decide_eq_true_iff, ← hwanted ⟨id, l⟩]
  simp [wants, hline]

end Pool

namespace Device

open Allocation

variable {d : Device} {queue : List LineId} {wanted : Candidate → Bool}

/-! ### Collections -/

section Collected

variable (hd : d.Sound) (hc : d.collector.policy = .oldestFirst) (hq : d.pool.Queued queue)
  (budget : Option Nat)
include hd hc hq

/-- A pass erases the wanted lines from the head of the queue, in its order. -/
theorem pass_of_queued (wanted : Candidate → Bool) :
    let ids := upTo budget (queue.filter (d.pool.wants wanted))
    (d.pass budget wanted).result = .ok (ids.map fun id => ⟨id, d.pool.ownerOf id⟩) ∧
      (d.pass budget wanted).state.pool.Queued (queue.filter (· ∉ ids)) ∧
      erasures (d.pass budget wanted).notices = ids.map .erased := by
  have hreorders : d.collector.policy.Reorders := hc ▸ VictimPolicy.reorders_oldestFirst
  obtain ⟨hresult, hpool, herasures⟩ := pass_of_reorders budget wanted hd hreorders
  rw [Collector.victims_of_queued hc hq] at hresult hpool herasures
  have hafter := hpool.shifts queue hq
  rw [List.append_nil] at hafter
  exact ⟨hresult, hafter, herasures⟩

theorem collect_of_queued (wanted : Candidate → Bool) :
    let ids := upTo budget (queue.filter (d.pool.wants wanted))
    (d.collect budget wanted).result = .ok (ids.map fun id => ⟨id, d.pool.ownerOf id⟩) ∧
      (d.collect budget wanted).state.pool.Queued (queue.filter (· ∉ ids)) ∧
      erasures (d.collect budget wanted).notices = ids.map .erased := by
  obtain ⟨hresult, hpool, herasures⟩ := pass_of_queued hd hc hq budget wanted
  generalize upTo budget (queue.filter (d.pool.wants wanted)) = ids at *
  have hpassed := ((advances_any_pass d budget wanted).sound hd).tick
  have hanyone : ∀ r ∈ ids.map fun id => (⟨id, d.pool.ownerOf id⟩ : Reclaimed), True :=
    fun _ _ => trivial
  obtain ⟨hrearmed, hquiet⟩ := advances_rearmOwners (W := fun _ => True) hpassed
    (d.pass budget wanted).state.clock.now hanyone
  rw [collect_of_ok budget hresult]
  refine ⟨rfl, ?_, ?_⟩
  · exact Pool.Queued.keep hpool (shifts_of_quiet_traffic hrearmed.steps hpassed.allocation)
  · simp only [Outcome.done, erasures_append, herasures, hquiet, List.append_nil]

theorem gc_of_queued :
    (d.gc budget).result = .ok ((upTo budget queue).map fun id => ⟨id, d.pool.ownerOf id⟩) ∧
      (d.gc budget).state.pool.Queued (queue.filter (· ∉ upTo budget queue)) ∧
      erasures (d.gc budget).notices = (upTo budget queue).map .erased := by
  have hcollect := collect_of_queued hd hc hq budget fun _ => true
  rwa [hq.filter_wants_all] at hcollect

omit budget in
theorem reclaimUnit_of_queued (u : UnitId) :
    let ids := queue.filter (d.pool.ownerOf · = some u)
    (d.reclaimUnit u).result = .ok ids.length ∧
      (d.reclaimUnit u).state.pool.Queued (queue.filter (· ∉ ids)) ∧
      erasures (d.reclaimUnit u).notices = ids.map .erased := by
  obtain ⟨hresult, hpool, herasures⟩ := collect_of_queued hd hc hq none
    fun candidate => candidate.line.isOwnedBy u
  have hfilter := hq.filter_wants_owner fun candidate => candidate.line.isOwnedBy_iff u
  simp only [upTo, hfilter] at hresult hpool herasures
  refine ⟨?_, hpool, herasures⟩
  rw [reclaimUnit, hresult, Except.map, List.length_map]

end Collected

/-! ### Writes -/

section Once

variable {placement : Placement} {bytes : Nat} (block now : Nat)

/-- A try at a unit adds the lines that it reports full. -/
theorem shifts_routeOnce (hd : d.Sound) (placement : Placement) (bytes : Nat) :
    let o := d.routeOnce placement block bytes now
    d.pool.Shifts [] o.retired o.state.pool ∧ erasures o.notices = [] ∧
      o.state.accounting = d.accounting := by
  by_cases htargets : ∃ u, d.configuration.Targets placement bytes u
  · obtain ⟨u, hu⟩ := htargets
    by_cases hfits : bytes / d.configuration.pageSize ≤ d.configuration.availablePages d.pool u
    · obtain ⟨unit, hunit, hroute⟩ := routeOnce_of_fits block now hd hu hfits
      have hpointer : d.allocation.pointer (some u) = unit.pointer :=
        Configuration.pointers_of_unit? d.path hunit
      have hfill := shifts_fill (o := some u) .atOnce
        (pageCounter (bytes / d.configuration.pageSize)) hd.allocation
      rw [hpointer] at hfill
      rw [hroute]
      exact ⟨hfill, erasures_ite rfl _, rfl⟩
    · rw [routeOnce_of_exhausted block now hu (Nat.lt_of_not_le hfits)]
      exact ⟨.refl _, rfl, rfl⟩
  · obtain ⟨cause, hroute, -⟩ := routeOnce_of_not_targets block now (not_exists.1 htargets)
    rw [hroute]
    exact ⟨.refl _, rfl, rfl⟩

/-- A try at the plain path adds the lines that it reports full. -/
theorem shifts_plainOnce (hd : d.Sound) (bytes : Nat) :
    let o := d.plainOnce block bytes
    d.pool.Shifts [] o.retired o.state.pool ∧ erasures o.notices = [] ∧
      o.state.accounting = d.accounting := by
  by_cases hlength : bytes = 0 ∨ bytes % d.geometry.pageSize ≠ 0
  · rw [plainOnce_of_invalid block hlength]
    exact ⟨.refl _, rfl, rfl⟩
  · rw [not_or, not_not] at hlength
    obtain ⟨hzero, hwhole⟩ := hlength
    by_cases hfits : bytes / d.geometry.pageSize ≤ d.path.availablePages d.pool
    · rw [plainOnce_of_fits block hd hzero hwhole hfits]
      exact ⟨shifts_fill (o := none) .onDemand _ hd.allocation, rfl, rfl⟩
    · rw [plainOnce_of_exhausted block hzero hwhole (Nat.lt_of_not_le hfits)]
      exact ⟨.refl _, rfl, rfl⟩

end Once

/-- How a write uses the queue: it adds the lines that it reports full, and before that it takes
those of its writer if it started a pass for want of room. -/
inductive Draws (d : Device) (queue : List LineId) (owner : Option UnitId)
    (o : Outcome Device WriteReport) : Prop where
  | spared (hpasses : o.state.accounting.foregroundPasses = d.accounting.foregroundPasses)
      (hqueue : o.state.pool.Queued (queue ++ o.retired)) (herased : erasures o.notices = [])
  | cleared (hpasses : o.state.accounting.foregroundPasses = d.accounting.foregroundPasses + 1)
      (hqueue : o.state.pool.Queued
        (queue.filter (· ∉ queue.filter (d.pool.ownerOf · = owner)) ++ o.retired))
      (herased : erasures o.notices = (queue.filter (d.pool.ownerOf · = owner)).map .erased)

section Writes

variable (hd : d.Sound) (hc : d.collector.policy = .oldestFirst) (hq : d.pool.Queued queue)
  (block bytes : Nat)
include hd hc hq

theorem draws_writePlaced (placement : Placement) :
    Draws d queue (d.configuration.resolve placement).toOption
      (d.writePlaced placement block bytes).outcome := by
  obtain honce | ⟨u, hu, hlong, hfit⟩ := writePlaced_cases block hd placement bytes
  · obtain ⟨hshifts, hquiet, haccounting⟩ :=
      shifts_routeOnce block d.clock.now hd.tick placement bytes
    rw [honce]
    exact .spared (congrArg _ haccounting) (hq.join hshifts) hquiet
  · have hready := hd.tick.countForegroundPass
    obtain ⟨hresult, hpool, herasures⟩ := reclaimUnit_of_queued hready hc hq u
    have hcounted : (d.tick.countForegroundPass.reclaimUnit u).state.accounting =
        d.tick.countForegroundPass.accounting := accounting_collect _ none _
    obtain ⟨hshifts, hquiet, haccounting⟩ := shifts_routeOnce block d.clock.now
      ((advances_any_reclaimUnit hready u).sound hready) placement bytes
    have howner : (d.configuration.resolve placement).toOption = some u := by
      rw [hu.2.2.2]
      rfl
    rw [writePlaced_of_hopeful (d := d) block hu hlong hfit, hresult, howner]
    refine .cleared ?_ (hpool.join hshifts) ?_
    · exact (congrArg Accounting.foregroundPasses (haccounting.trans hcounted))
    · simp only [Outcome.after, erasures_append, hquiet, List.append_nil]
      rw [erasures_cons rfl]
      exact herasures

theorem draws_writePlain : Draws d queue none (d.writePlain block bytes).outcome := by
  obtain honce | ⟨⟨hzero, hwhole⟩, hlong⟩ := writePlain_cases block hd bytes
  · obtain ⟨hshifts, hquiet, haccounting⟩ := shifts_plainOnce block hd bytes
    rw [honce]
    exact .spared (congrArg _ haccounting) (hq.join hshifts) hquiet
  · have hready := hd.countForegroundPass
    obtain ⟨hresult, hpool, herasures⟩ := pass_of_queued hready hc hq none unowned
    obtain ⟨hshifts, hquiet, haccounting⟩ := shifts_plainOnce block
      ((advances_any_pass d.countForegroundPass none unowned).sound hready) bytes
    have hfilter := hq.filter_wants_owner unowned_iff
    rw [writePlain_of_exhausted block hzero hwhole hlong, hresult]
    refine .cleared (congrArg Accounting.foregroundPasses haccounting) ?_ ?_
    · rw [← hfilter]
      exact hpool.join hshifts
    · simp only [Outcome.after, erasures_append, hquiet, List.append_nil, ← hfilter]
      exact herasures

end Writes

/-- The writer whose lines a write erases if it needs room. A write that leads to no unit does not
get to that. -/
def writerOf (d : Device) (w : WriteCommand) : Option UnitId :=
  if d.places w then (d.configuration.resolve (d.placementOf w)).toOption else none

/-- Entering a result into the accounting erases nothing and counts no pass. -/
theorem account_views (o : Outcome Device WriteReport) (block bytes : Nat) :
    (account o block bytes).state.pool = o.state.pool ∧
      (account o block bytes).state.accounting.foregroundPasses =
        o.state.accounting.foregroundPasses ∧
      erasures (account o block bytes).notices = erasures o.notices := by
  unfold account
  dsimp only
  split
  · next report hresult =>
    refine ⟨rfl, rfl, ?_⟩
    rw [erasures_append, erasures_ite (n := .written block bytes report.unit report.lines) rfl,
      List.append_nil]
  · next cause hresult =>
    refine ⟨rfl, rfl, ?_⟩
    rw [erasures_append, erasures_ite (n := .writeRefused block cause) rfl, List.append_nil]

/-- A write counts the passes of its attempt and erases the lines that the attempt erases. -/
theorem write_views (d : Device) (w : WriteCommand) :
    (d.write w).state.accounting.foregroundPasses =
        (d.attempt w).outcome.state.accounting.foregroundPasses ∧
      erasures (d.write w).notices = erasures (d.attempt w).outcome.notices := by
  rw [write_eq]
  split
  · exact (account_views _ _ _).2
  · exact ⟨rfl, rfl⟩

theorem Draws.account {owner : Option UnitId} {o : Outcome Device WriteReport}
    (h : Draws d queue owner o) (block bytes : Nat) :
    Draws d queue owner (account o block bytes) := by
  obtain ⟨hpool, hpasses, herasures⟩ := account_views o block bytes
  have hretired : (Device.account o block bytes).retired = o.retired := by
    rw [Outcome.retired, result_account]
    rfl
  cases h with
  | spared hsame hqueue herased =>
    exact .spared (hpasses.trans hsame) (by rwa [hpool, hretired]) (herasures.trans herased)
  | cleared hcounted hqueue herased =>
    exact .cleared (hpasses.trans hcounted) (by rwa [hpool, hretired]) (herasures.trans herased)

theorem draws_write (hd : d.Sound) (hc : d.collector.policy = .oldestFirst)
    (hq : d.pool.Queued queue) (w : WriteCommand) : Draws d queue (d.writerOf w) (d.write w) := by
  have hattempt : Draws d queue (d.writerOf w) (d.attempt w).outcome := by
    unfold writerOf attempt
    split
    · exact draws_writePlaced hd hc hq _ _ _
    · exact draws_writePlain hd hc hq _ _
  rw [write_eq]
  split
  · exact hattempt.account _ _
  · exact hattempt

/-! ### Turning placement on and off -/

/-- The line that the plain path gives up becomes full. -/
theorem shifts_surrendered (hd : d.Sound) :
    d.pool.Shifts [] d.path.pointer.line.toList d.surrendered := by
  unfold surrendered
  cases hline : d.path.pointer.line with
  | none => exact .refl _
  | some id =>
    obtain ⟨l, hcurrent, hstate, -⟩ := (hd.allocation.current none id).1 hline
    exact Pool.shifts_retire hcurrent hstate

theorem shifts_enable (hd : d.Sound) (hp : d.Poised) (hoff : d.enabled = false) :
    d.pool.Shifts [] d.path.pointer.line.toList d.enable.state.pool := by
  have hsurrendered := sound_surrendered hd hp.begun
  have hclose := close_of_begun hp.begun
  rcases Nat.lt_or_ge d.surrendered.shared.size d.configuration.units.size with hfew | hmany
  · obtain ⟨u, notices, -, henable⟩ := enable_of_scarce hoff hclose hfew
    have hoff' : (d.closed d.surrendered).tick.enabled = false := hoff
    rw [henable, disable_of_off hoff']
    exact shifts_surrendered hd
  · obtain ⟨dist, c, q, notices, -, hdone, hdistributed, henable⟩ :=
      enable_of_ample hoff hclose hsurrendered hmany
    rw [henable]
    exact (shifts_surrendered hd).quiet (hdistributed.shifts hsurrendered.allocation hdone)

/-- The lines that units had begun become full, in line order. -/
theorem shifts_disable (hd : d.Sound) (hon : d.enabled = true) :
    d.pool.Shifts [] ((List.range d.pool.lines.size).filter d.pool.begun) d.disable.state.pool := by
  rw [disable_of_on hon]
  exact hd.allocation.shifts_dissolve

end Device

end DataPlacement
