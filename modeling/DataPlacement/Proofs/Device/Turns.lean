import DataPlacement.Proofs.Device.Reclaiming
import DataPlacement.Proofs.Device.Reopening

namespace DataPlacement.Device

open Allocation

variable {d e : Device} {u v : UnitId} {before after : ReclaimUnit} {w : WriteCommand}

/-! ### Causes -/

/-- The action is a collection by request. -/
def Action.Collects : Action → Prop
  | .gc _ | .reclaimUnit _ => True
  | _ => False

/-- The action turns placement on, and answers with the lines that it gave out. -/
def TurnsOn (d : Device) (a : Action) : Prop :=
  a = .enable ∧ ∃ dist, d.enable.result = .ok (some dist)

/-- The action is a placed write, and it is accepted at the unit. -/
def WritesTo (d : Device) (a : Action) (u : UnitId) : Prop :=
  ∃ w r, a = .write w ∧ d.places w ∧ (d.write w).result = .ok r ∧ r.unit = some u

/-- The action is a collection or a placed write, and it erases a line that the unit owns. -/
def Reclaims (d : Device) (a : Action) (u : UnitId) : Prop :=
  (a.Collects ∨ ∃ w, a = .write w ∧ d.places w) ∧ d.ErasedFor (d.act a) u

/-! ### Turns -/

/-- What an action does to a unit, as one of few. -/
inductive Turn (d : Device) (a : Action) (u : UnitId) (before after : ReclaimUnit) : Prop where
  /-- The unit is left as it is. -/
  | keeps (hstate : after.state = before.state) (hstamp : after.openedAt = before.openedAt)
      (hspared : a.Collects → before.state = .full → ¬ d.ErasedFor (d.act a) u)
      (hunwritten : ¬ d.WritesTo a u)
  /-- The unit gets its first lines. -/
  | opens (hbefore : before.state = .unused) (hon : d.TurnsOn a) (hafter : after.state = .active)
  /-- The unit is written and may run out of lines. -/
  | writes (hbefore : before.state = .active) (hwritten : d.WritesTo a u)
      (hafter : after.state = .active ∨ after.state = .full)
      (hstamp : after.openedAt = before.openedAt)
  /-- The unit gets a line back. -/
  | reopens (hbefore : before.state = .full) (herased : d.Reclaims a u)
      (hafter : after.state = .active) (hunwritten : ¬ d.WritesTo a u)
  /-- The unit gets its lines back and is written at once. -/
  | rewrites (hbefore : before.state = .full) (herased : d.Reclaims a u)
      (hwritten : d.WritesTo a u) (hafter : after.state = .active ∨ after.state = .full)
      (hstamp : after.openedAt = some d.tick.clock.now)
  /-- The unit gives up its lines. -/
  | clears (hoff : a = .disable) (hafter : after.state = .unused) (hstamp : after.openedAt = none)

theorem not_writesTo {a : Action} (h : ∀ w, a ≠ .write w) : ¬ d.WritesTo a u := by
  rintro ⟨w, r, rfl, -⟩
  exact h w rfl

theorem TurnsOn.not_writesTo {a : Action} (h : d.TurnsOn a) : ¬ d.WritesTo a u := by
  rw [h.1]
  exact Device.not_writesTo fun _ => Action.noConfusion

theorem WritesTo.not_collects {a : Action} (h : d.WritesTo a u) : ¬ a.Collects := by
  obtain ⟨w, r, rfl, -⟩ := h
  exact id

theorem WritesTo.ne_disable {a : Action} (h : d.WritesTo a u) : a ≠ .disable := by
  obtain ⟨w, r, rfl, -⟩ := h
  exact Action.noConfusion

/-! ### Writes -/

/-- A try at a unit leaves a given unit as it is, unless it is accepted at that one. -/
theorem unit?_routeOnce (hd : d.Sound) (hrested : d.RestedAt u)
    (hunit : d.configuration.unit? u = some before) (placement : Placement)
    (block bytes now : Nat) :
    let o := d.routeOnce placement block bytes now
    (o.state.configuration.unit? u = some before ∧ ∀ r, o.result = .ok r → r.unit ≠ some u) ∨
      ∃ r after, o.result = .ok r ∧ r.unit = some u ∧ before.state = .active ∧
        o.state.configuration.unit? u = some after ∧
        (after.state = .active ∨ after.state = .full) ∧ after.openedAt = before.openedAt := by
  intro o
  obtain ⟨cause, notices, hroute⟩ |
    ⟨v, unit, r, notices, htargets, hfits, hunit', hreport, hroute⟩ :=
      routeOnce_cases block now hd placement bytes
  · simp only [o, hroute]
    exact .inl ⟨hunit, fun r hr => by cases hr⟩
  · simp only [o, hroute]
    by_cases hv : v = u
    · subst hv
      obtain rfl : before = unit := Option.some.inj (hunit.symm.trans hunit')
      have hfull := state_ne_full_of_fits hd hrested hunit (Configuration.pos_pages htargets) hfits
      have henabled : d.configuration.enabled = true := htargets.1
      have hstate := hd.settled v before hunit
      rw [henabled, UnitState.ofPointer, if_pos rfl] at hstate
      have hline : before.pointer.line.isSome := by
        by_contra hnone
        exact hfull (hstate.trans (if_neg hnone))
      have hactive : before.state = .active := hstate.trans (if_pos hline)
      refine .inr ⟨r, _, rfl, hreport, hactive, unit?_filled hunit bytes now, ?_, ?_⟩
      · simp only [ReclaimUnit.countWrite, ReclaimUnit.afterFill, hactive]
        split
        · exact .inr rfl
        · split <;> exact .inl rfl
      · have hopened : before.pointer.line.isNone = false := by simpa using hline
        simp [ReclaimUnit.countWrite, ReclaimUnit.afterFill, hopened]
    · refine .inl ⟨?_, fun r' hr' => ?_⟩
      · have hadvances : Advances (fun o => o = some v) d _ (d.filled v unit bytes now) :=
          advances_filled now hd htargets.1 rfl hunit'
        exact (hadvances.units u (by simp [Ne.symm hv])).trans hunit
      · obtain rfl := Except.ok.inj hr'
        simp [hreport, hv]

theorem unit?_write_of_attempt (d : Device) (w : WriteCommand) (u : UnitId) :
    (d.write w).state.configuration.unit? u =
      (d.attempt w).outcome.state.configuration.unit? u :=
  (advances_write_of_attempt (W := fun _ => False) d w).units u id

/-- A write for the plain path has no part in the life of a unit. -/
theorem turn_write_of_plain (hd : d.Sound) (hc : d.collector.policy.Reorders)
    (hunit : d.configuration.unit? u = some before) (hplain : d.places w = false) :
    (d.write w).state.configuration.unit? u = some before ∧ Turn d (.write w) u before before := by
  have hadvances : Advances (fun o => o = none) d (d.write w).lineEvents (d.write w).state := by
    refine advances_write hd (fun hplaces => absurd hplaces (by simp [hplain])) fun _ => ⟨rfl, ?_⟩
    exact Collector.confined_of_reorders hc fun candidate => (unowned_iff candidate).1
  refine ⟨(hadvances.units u (by simp)).trans hunit, .keeps rfl rfl (fun hcollects => ?_) ?_⟩
  · exact absurd hcollects id
  · rintro ⟨w', r, hw, hplaces, -⟩
    obtain rfl := Action.write.inj hw
    exact absurd hplaces (by simp [hplain])

section Placed

variable (hplaces : d.places w)
include hplaces

theorem writesTo_iff : d.WritesTo (.write w) u ↔
    ∃ r, (d.attempt w).outcome.result = .ok r ∧ r.unit = some u := by
  rw [← result_write]
  constructor
  · rintro ⟨w', r, hw, -, hresult, hreport⟩
    obtain rfl := Action.write.inj hw
    exact ⟨r, hresult, hreport⟩
  · rintro ⟨r, hresult, hreport⟩
    exact ⟨w, r, rfl, hplaces, hresult, hreport⟩

/-- The last try of a placed write. Whether its unit was opened again before depends on what the
device did to make room. -/
theorem turn_write_of_route (he : e.Sound) (hrested : e.RestedAt u) {now : Nat}
    (hresult : (d.attempt w).outcome.result = (e.routeOnce (d.placementOf w) w.block
      (w.bytes d.geometry.blockSize) now).result)
    (hstate : (d.attempt w).outcome.state = (e.routeOnce (d.placementOf w) w.block
      (w.bytes d.geometry.blockSize) now).state)
    (hmiddle : e.configuration.unit? u = some before ∨
      before.state = .full ∧ d.ErasedFor e u ∧
        ∃ id, e.configuration.unit? u = some (before.openOn id d.tick.clock.now)) :
    ∃ after, (d.write w).state.configuration.unit? u = some after ∧
      Turn d (.write w) u before after := by
  have hwritten := writesTo_iff (u := u) hplaces
  have hroute {unit : ReclaimUnit} (hunit : e.configuration.unit? u = some unit) :=
    unit?_routeOnce he hrested hunit (d.placementOf w) w.block (w.bytes d.geometry.blockSize) now
  have hlater : Spares (fun _ => True) e (d.write w).state := by
    obtain ⟨es, hroute, hquiet⟩ : Spares (fun _ => True) e (e.routeOnce (d.placementOf w) w.block
      (w.bytes d.geometry.blockSize) now).state := spares_routeOnce he now
    refine ⟨es ++ [], (hstate ▸ hroute).trans (advances_write_of_attempt d w), ?_⟩
    simpa using hquiet
  rw [unit?_write_of_attempt, hstate]
  rw [hresult] at hwritten
  have hspared {unit : ReclaimUnit} (hcollects : (Action.write w).Collects) : unit.state = .full →
      ¬ d.ErasedFor (d.act (.write w)) u := absurd hcollects id
  obtain hkept | ⟨hfull, herased, id, hopened⟩ := hmiddle
  · obtain ⟨hsame, hother⟩ | ⟨r, after, hr, hreport, hactive, hafter, hend, hstamp⟩ := hroute hkept
    · refine ⟨before, hsame, .keeps rfl rfl hspared fun h => ?_⟩
      obtain ⟨r, hr, hreport⟩ := hwritten.1 h
      exact hother r hr hreport
    · exact ⟨after, hafter, .writes hactive (hwritten.2 ⟨r, hr, hreport⟩) hend hstamp⟩
  · have hreclaims : d.Reclaims (.write w) u :=
      ⟨.inr ⟨w, rfl, hplaces⟩, (hlater.erasedFor_iff he).2 herased⟩
    obtain ⟨hsame, hother⟩ | ⟨r, after, hr, hreport, -, hafter, hend, hstamp⟩ := hroute hopened
    · refine ⟨_, hsame, .reopens hfull hreclaims rfl fun h => ?_⟩
      obtain ⟨r, hr, hreport⟩ := hwritten.1 h
      exact hother r hr hreport
    · exact ⟨after, hafter, .rewrites hfull hreclaims (hwritten.2 ⟨r, hr, hreport⟩) hend hstamp⟩

theorem turn_write_of_places (hd : d.Sound) (hc : d.collector.policy.Reorders)
    (hrested : d.Rested) (hunit : d.configuration.unit? u = some before) :
    ∃ after, (d.write w).state.configuration.unit? u = some after ∧
      Turn d (.write w) u before after := by
  obtain honce | ⟨v, htargets, hlong, hfit⟩ := writePlaced_cases w.block hd (d.placementOf w)
    (w.bytes d.geometry.blockSize)
  · have hattempt := (attempt_of_places hplaces).trans honce
    exact turn_write_of_route hplaces hd.tick (hrested u) (by rw [hattempt]) (by rw [hattempt])
      (.inl hunit)
  · have hready := hd.tick.countForegroundPass
    have hunit' : d.tick.countForegroundPass.configuration.unit? u = some before := hunit
    have hemptied := (reclaimUnit_of_reorders hready hc v).1
    have hattempt := (attempt_of_places hplaces).trans
      (writePlaced_of_hopeful w.block htargets hlong hfit)
    rw [hemptied] at hattempt
    have hpass := pass_of_reorders none (fun candidate => candidate.line.isOwnedBy v) hready hc
    have hrested' : (d.tick.countForegroundPass.reclaimUnit v).state.Rested :=
      fun v => restedAt_collect_of_ok hready hpass.1 (.inl (hrested v))
    refine turn_write_of_route hplaces ((advances_any_reclaimUnit hready v).sound hready)
      (hrested' u) (by rw [hattempt]; rfl) (by rw [hattempt]; rfl) ?_
    obtain ⟨hkept, -⟩ | ⟨hfull, herased, hopened⟩ := unit?_collect_of_ok hready hpass.1 hunit'
    · exact .inl hkept
    · exact .inr ⟨hfull, herased, hopened⟩

end Placed

/-! ### Other actions -/

theorem turn_collect (hd : d.Sound) (hc : d.collector.policy.Reorders)
    (hunit : d.configuration.unit? u = some before) (budget : Option Nat)
    (wanted : Candidate → Bool) {a : Action} (hcollects : a.Collects)
    (hact : d.act a = (d.collect budget wanted).state) :
    ∃ after, (d.act a).configuration.unit? u = some after ∧ Turn d a u before after := by
  have hunwritten : ¬ d.WritesTo a u := fun h => h.not_collects hcollects
  obtain ⟨hkept, hspared⟩ | ⟨hfull, herased, id, hopened⟩ :=
    unit?_collect_of_ok hd (pass_of_reorders budget wanted hd hc).1 hunit
  · rw [← hact] at hkept hspared
    exact ⟨before, hkept, .keeps rfl rfl (fun _ hfull herased => hspared ⟨hfull, herased⟩)
      hunwritten⟩
  · rw [← hact] at hopened herased
    exact ⟨_, hopened, .reopens hfull ⟨.inl hcollects, herased⟩ rfl hunwritten⟩

/-- While placement is off all units are unused. -/
theorem Sound.unused_of_off (hd : d.Sound) (hoff : d.enabled = false)
    (hunit : d.configuration.unit? u = some before) : before.state = .unused := by
  have hstate := hd.settled u before hunit
  have henabled : d.configuration.enabled = false := hoff
  rwa [henabled] at hstate

theorem turn_enable (hd : d.Sound) (hunit : d.configuration.unit? u = some before) :
    ∃ after, d.enable.state.configuration.unit? u = some after ∧
      Turn d .enable u before after := by
  have hunwritten : ¬ d.WritesTo .enable u := not_writesTo fun _ => Action.noConfusion
  have hkeeps : Turn d .enable u before before := .keeps rfl rfl (fun h => absurd h id) hunwritten
  cases hoff : d.enabled with
  | true =>
    rw [enable_of_on hoff]
    exact ⟨before, hunit, hkeeps⟩
  | false =>
    obtain ⟨p, hsound, -, ⟨cause, notices, -, henable⟩ |
      ⟨dist, c, q, notices, -, -, hdistributed, henable⟩⟩ := enable_cases hd hoff
    · have hstill : (d.closed p).tick.enabled = false := hoff
      rw [henable, disable_of_off hstill]
      exact ⟨before, hunit, hkeeps⟩
    · have hsize := Configuration.size_units_eq_of_blank hdistributed.opened.blank
      have hu : u < d.configuration.units.size := (Array.getElem?_eq_some_iff.1 hunit).1
      have hu' : u < c.units.size := hsize ▸ hu
      have hafter : c.unit? u = some c.units[u] := Array.getElem?_eq_getElem hu'
      obtain ⟨hactive, -⟩ := hdistributed.opened.opened u (List.mem_range.2 hu) _ hafter
      have hturned : d.TurnsOn .enable := ⟨rfl, dist, by rw [henable]; rfl⟩
      rw [henable]
      exact ⟨_, hafter, .opens (hd.unused_of_off hoff hunit) hturned hactive⟩

theorem turn_disable (hunit : d.configuration.unit? u = some before) :
    ∃ after, d.disable.state.configuration.unit? u = some after ∧
      Turn d .disable u before after := by
  have hunwritten : ¬ d.WritesTo .disable u := not_writesTo fun _ => Action.noConfusion
  cases hoff : d.enabled with
  | false =>
    rw [disable_of_off hoff]
    exact ⟨before, hunit, .keeps rfl rfl (fun h => absurd h id) hunwritten⟩
  | true =>
    have hafter : d.switchedOff.configuration.unit? u = some before.reset := by
      change (d.configuration.units.map (·.reset))[u]? = _
      rw [Array.getElem?_map]
      exact congrArg (Option.map (·.reset)) hunit
    rw [disable_of_on hoff]
    exact ⟨_, hafter, .clears rfl rfl rfl⟩

theorem turn_act (hd : d.Sound) (hc : d.collector.policy.Reorders) (hrested : d.Rested)
    (hunit : d.configuration.unit? u = some before) (a : Action) :
    ∃ after, (d.act a).configuration.unit? u = some after ∧ Turn d a u before after := by
  cases a with
  | write w =>
    cases hplaces : d.places w with
    | false =>
      obtain ⟨hafter, hturn⟩ := turn_write_of_plain hd hc hunit hplaces
      exact ⟨before, hafter, hturn⟩
    | true => exact turn_write_of_places hplaces hd hc hrested hunit
  | enable => exact turn_enable hd hunit
  | disable => exact turn_disable hunit
  | gc budget => exact turn_collect hd hc hunit budget _ trivial rfl
  | reclaimUnit v => exact turn_collect hd hc hunit none _ trivial rfl
  | read | resetAccounting | trace | install | nothing =>
    refine ⟨before, hunit, .keeps rfl rfl (fun h => absurd h id) ?_⟩
    exact not_writesTo fun _ => Action.noConfusion

end DataPlacement.Device
