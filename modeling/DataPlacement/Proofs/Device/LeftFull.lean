import DataPlacement.Proofs.Device.Interruptions

namespace DataPlacement.Device

open Allocation

variable {d e : Device} {u : UnitId} {w : WriteCommand} {budget : Option Nat}
  {wanted : Candidate → Bool} {μ : Type} [Host.Memory μ]

variable {W : Option UnitId → Prop} {es : List LineEvent} {placement : Placement}
  {block bytes : Nat}

theorem restedAt_routeOnce (hd : d.Sound) (now : Nat) (hrested : d.RestedAt u) :
    (d.routeOnce placement block bytes now).state.RestedAt u := by
  obtain ⟨cause, notices, honce⟩ | ⟨v, unit, r, notices, htargets, -, hunit, -, honce⟩ :=
    routeOnce_cases block now hd placement bytes
  · rw [honce]
    exact hrested
  · rw [honce]
    exact restedAt_filled hd htargets.1 hunit bytes now hrested

/-- The action may erase lines: a collection or a write. -/
def Action.MayErase : Action → Prop
  | .gc _ | .reclaimUnit _ | .write _ => True
  | _ => False

/-- The action makes a pass that is refused. -/
def Interrupted (d : Device) : Action → Prop
  | .gc budget => ∃ cause, (d.gc budget).result = .error cause
  | .reclaimUnit u => ∃ cause, (d.reclaimUnit u).result = .error cause
  | .write w => d.PassRefused w
  | _ => False

/-- How an action leaves a unit, given whether a pass of it was refused. -/
structure Leaves (d : Device) (interrupted : Prop) (u : UnitId) (e : Device) : Prop where
  cut : interrupted → (e.RestedAt u ↔ d.RestedAt u ∧ ¬ (d.FullAt u ∧ d.ErasedFor e u))
  whole : ¬ interrupted → d.RestedAt u ∨ d.ErasedFor e u → e.RestedAt u

theorem leaves_collect (hd : d.Sound) (u : UnitId) :
    d.Leaves (∃ cause, (d.collect budget wanted).result = .error cause) u
      (d.collect budget wanted).state := by
  cases hpass : (d.pass budget wanted).result with
  | error cause =>
    rw [collect_of_error budget hpass]
    exact ⟨fun _ => restedAt_pass_iff _ _ u, fun h => absurd ⟨cause, rfl⟩ h⟩
  | ok erased =>
    refine ⟨fun ⟨cause, hcause⟩ => ?_, fun _ => restedAt_collect_of_ok hd hpass⟩
    rw [collect_of_ok budget hpass] at hcause
    cases hcause

theorem leaves_reclaimUnit (hd : d.Sound) (v u : UnitId) :
    d.Leaves (∃ cause, (d.reclaimUnit v).result = .error cause) u (d.reclaimUnit v).state := by
  simp only [result_reclaimUnit_eq_error_iff]
  exact leaves_collect hd u

/-- How the attempt of a placed write leaves a unit. -/
theorem leaves_attempt_of_places (hd : d.Sound) (hplaces : d.places w) (u : UnitId) :
    d.Leaves (d.PassRefused w) u (d.attempt w).outcome.state := by
  have hcourse := course_attempt hd w
  have hsettled := hcourse.settled_iff
  generalize d.attempt w = a at hcourse hsettled ⊢
  have hready := hd.tick.countForegroundPass
  cases hcourse with
  | placed _ hidle =>
    refine ⟨fun h => absurd h (hsettled.1 rfl), fun _ hrested => ?_⟩
    have hspared : ¬ d.tick.ErasedFor (d.routed d.tick w).state u :=
      (spares_routeOnce hd.tick _).not_erasedFor hd.tick
    exact restedAt_routeOnce hd.tick _ (hrested.resolve_right hspared)
  | @emptied v count h hpass =>
    refine ⟨fun h => absurd h (hsettled.1 rfl), fun _ hrested => ?_⟩
    have hspared : d.tick.countForegroundPass.ErasedFor (d.routed (d.emptying v).state w).state u ↔
        d.tick.countForegroundPass.ErasedFor (d.emptying v).state u :=
      (spares_routeOnce (hd.emptying v) _).erasedFor_iff (hd.emptying v)
    have hwhole : ¬ ∃ cause, (d.emptying v).result = .error cause := by simp [hpass]
    exact restedAt_routeOnce (hd.emptying v) _
      ((leaves_reclaimUnit hready v u).whole hwhole (hrested.imp_right hspared.1))
  | @stuck v cause h hpass =>
    have hleaves := leaves_reclaimUnit hready v u
    exact ⟨fun _ => hleaves.cut ⟨cause, hpass⟩,
      fun hwhole => absurd ⟨cause, .inl ⟨v, h, hpass⟩⟩ hwhole⟩
  | plain hplain => exact absurd (hplaces.symm.trans hplain) (by simp)
  | swept h => exact absurd (hplaces.symm.trans h.plain) (by simp)
  | unswept h => exact absurd (hplaces.symm.trans h.plain) (by simp)

/-- A sweep erases no line of a unit if the policy takes lines from its candidates only. -/
theorem not_erasedFor_sweeping (hc : d.collector.policy.Selects) (u : UnitId) :
    ¬ d.ErasedFor d.sweeping.state u := by
  obtain ⟨done, left, hvictims, hpool, -⟩ := d.countForegroundPass.exists_pass none unowned
  refine fun herased => ?_
  obtain ⟨id, hid, howner⟩ := (erasedFor_iff_of_erased hpool).1 herased
  have hmem : id ∈ d.countForegroundPass.collector.victims d.countForegroundPass.pool none
      unowned := by
    rw [hvictims]
    simpa using Or.inl hid
  obtain ⟨l, hline, -, hunowned⟩ := Collector.exists_of_mem_victims hc hmem
  have hl := (Pool.ownerOf_eq hline).symm.trans howner
  rw [(unowned_iff _).1 hunowned] at hl
  cases hl

/-- How the attempt of a plain write leaves a unit. No unit is opened again after a sweep, so it
matters that the sweep erases no line of one. -/
theorem leaves_attempt_of_plain (hd : d.Sound) (hplain : d.places w = false)
    (hc : ¬ d.PassRefused w → d.collector.policy.Selects) (u : UnitId) :
    d.Leaves (d.PassRefused w) u (d.attempt w).outcome.state := by
  have hcourse := course_attempt hd w
  have hsettled := hcourse.settled_iff
  generalize d.attempt w = a at hcourse hsettled ⊢
  have hready := hd.countForegroundPass
  have hpass : d.sweeping.state.RestedAt u ↔
      d.RestedAt u ∧ ¬ (d.FullAt u ∧ d.ErasedFor d.sweeping.state u) := restedAt_pass_iff _ _ u
  have hsame {e : Device} (he : e.Sound) : (d.plainRouted e w).state.RestedAt u ↔ e.RestedAt u := by
    have hspares : Spares (fun o => o = none) e (d.plainRouted e w).state := spares_plainOnce he
    obtain ⟨es, hadvances, -⟩ := hspares
    exact restedAt_iff_of_agree hadvances (by simp) he
  cases hcourse with
  | plain _ hidle =>
    refine ⟨fun h => absurd h (hsettled.1 rfl), fun _ hrested => ?_⟩
    have hspared : ¬ d.ErasedFor (d.plainRouted d w).state u :=
      (spares_plainOnce hd).not_erasedFor hd
    exact (hsame hd).2 (hrested.resolve_right hspared)
  | swept h hok =>
    have hwhole := hsettled.1 rfl
    have hspared : d.countForegroundPass.ErasedFor (d.plainRouted d.sweeping.state w).state u ↔
        d.countForegroundPass.ErasedFor d.sweeping.state u :=
      (spares_plainOnce hd.sweeping).erasedFor_iff hd.sweeping
    have hnone := not_erasedFor_sweeping (hc hwhole) u
    refine ⟨fun h => absurd h hwhole, fun _ hrested => ?_⟩
    have hbefore : d.RestedAt u := hrested.resolve_right fun herased => hnone (hspared.1 herased)
    exact (hsame hd.sweeping).2 (hpass.2 ⟨hbefore, fun h => hnone h.2⟩)
  | unswept h hrefused =>
    exact ⟨fun _ => hpass, fun hwhole => absurd ⟨_, .inr ⟨h, hrefused⟩⟩ hwhole⟩
  | placed hplaces => exact absurd (hplaces.symm.trans hplain) (by simp)
  | emptied h => exact absurd (h.places.symm.trans hplain) (by simp)
  | stuck h => exact absurd (h.places.symm.trans hplain) (by simp)

theorem leaves_write (hd : d.Sound) (w : WriteCommand)
    (hc : d.places w = false → ¬ d.PassRefused w → d.collector.policy.Selects) (u : UnitId) :
    d.Leaves (d.PassRefused w) u (d.write w).state := by
  have hattempt : d.Leaves (d.PassRefused w) u (d.attempt w).outcome.state := by
    cases hplaces : d.places w with
    | true => exact leaves_attempt_of_places hd hplaces u
    | false => exact leaves_attempt_of_plain hd hplaces (hc hplaces) u
  obtain ⟨a, hstate⟩ := exists_accounting_write d w
  rw [hstate]
  exact ⟨hattempt.cut, hattempt.whole⟩

theorem leaves_act (hd : d.Sound) {a : Action} (ha : a.MayErase)
    (hc : ¬ d.Interrupted a → ∀ w, a = .write w → d.places w = false → d.collector.policy.Selects)
    (u : UnitId) : d.Leaves (d.Interrupted a) u (d.act a) := by
  cases a with
  | gc budget => exact leaves_collect hd u
  | reclaimUnit v => exact leaves_reclaimUnit hd v u
  | write w => exact leaves_write hd w (fun hplain hwhole => hc hwhole w rfl hplain) u
  | read | resetAccounting | trace | enable | disable | install | nothing => exact absurd ha id

/-- A collection or a write opens every full unit again that it gave a line back to, unless a pass
of it is refused. Then it opens none, so that the units are left full that were full and got a
line back. The policy may name lines twice. Only for a plain write, which opens no unit, it
matters that it names none but its candidates. -/
theorem left_full_iff_of_interruption (hd : Reachable μ d) {a : Action} (ha : a.MayErase)
    (u : UnitId) :
    (d.Interrupted a →
        ((d.act a).RestedAt u ↔ d.RestedAt u ∧ ¬ (d.FullAt u ∧ d.ErasedFor (d.act a) u))) ∧
      (¬ d.Interrupted a →
        (∀ w, a = .write w → d.places w = false → d.collector.policy.Selects) →
          d.RestedAt u ∨ d.ErasedFor (d.act a) u → (d.act a).RestedAt u) :=
  ⟨fun hcut => (leaves_act hd.sound ha (fun hwhole => absurd hcut hwhole) u).cut hcut,
    fun hwhole hc => (leaves_act hd.sound ha (fun _ => hc) u).whole hwhole⟩

/-- A policy that names its oldest line twice. With a budget of one line the pass never gets to the
second time, and the unit is opened again. -/
theorem left_full_iff_of_interruption_within_budget :
    ∃ fresh, build ⟨4, 2, 6, 1, by decide⟩ { handles := 2 } (.steady 0 1) = .ok fresh ∧
      let d := fresh.run ([.enable, .write (.placed 0 23 0), .install { policy := .repeating }] :
        List (Request Host.Window))
      let a : Action := .gc (some 1)
      Reachable Host.Window d ∧ a.MayErase ∧ ¬ d.Interrupted a ∧ d.RestedAt 0 ∧
        (d.act a).RestedAt 0 := by
  have hbuild : build ⟨4, 2, 6, 1, by decide⟩ { handles := 2 } (.steady 0 1) = .ok _ := rfl
  refine ⟨_, hbuild, ?_⟩
  intro d a
  have hreach : Reachable Host.Window d := ⟨_, _, _, _, hbuild, _, rfl⟩
  have hwhole : ¬ d.Interrupted a := by
    rintro ⟨cause, hcause⟩
    have hok : (d.gc (some 1)).result = .ok [⟨0, some 0⟩] := by decide +kernel
    rw [hok] at hcause
    cases hcause
  have hfree : d.pool.freeLines (some 0) = [] := by decide +kernel
  have hrested : d.RestedAt 0 := fun _ _ _ => hfree
  have hwanted : ∀ w, a = .write w → d.places w = false → d.collector.policy.Selects :=
    fun w h => Action.noConfusion h
  exact ⟨hreach, trivial, hwhole, hrested,
    (left_full_iff_of_interruption hreach (a := a) trivial 0).2 hwhole hwanted (.inl hrested)⟩

/-- Without the budget the pass is refused at its second line, and the unit is left full with the
first one in its list. -/
theorem left_full_of_refused_pass :
    ∃ fresh, build ⟨4, 2, 6, 1, by decide⟩ { handles := 2 } (.steady 0 1) = .ok fresh ∧
      let d := fresh.run ([.enable, .write (.placed 0 23 0), .install { policy := .repeating }] :
        List (Request Host.Window))
      let e := (d.gc none).state
      Reachable Host.Window d ∧ d.collector.policy.Selects ∧
        (d.gc none).result = .error (.notReclaimable 0) ∧
        (e.configuration.unit? 0).map (·.state) = some .full ∧
        d.pool.freeLines (some 0) = [] ∧ e.pool.freeLines (some 0) = [0] := by
  have hbuild : build ⟨4, 2, 6, 1, by decide⟩ { handles := 2 } (.steady 0 1) = .ok _ := rfl
  refine ⟨_, hbuild, ?_⟩
  intro d e
  have hreach : Reachable Host.Window d := ⟨_, _, _, _, hbuild, _, rfl⟩
  exact ⟨hreach, VictimPolicy.selects_repeating, by decide +kernel⟩

/-! ### Runs -/

/-- The request installs no policy that names lines other than its candidates. -/
def Request.Selective (r : Request μ) : Prop :=
  ∀ collector, r = .install collector → collector.policy.Selects

theorem rested_act_of_uninterrupted (hd : d.Sound) (hc : d.collector.policy.Selects)
    (hrested : d.Rested) {a : Action} (hwhole : ¬ d.Interrupted a) : (d.act a).Rested := by
  have herasing (ha : a.MayErase) : (d.act a).Rested := fun u =>
    (leaves_act hd ha (fun _ _ _ _ => hc) u).whole hwhole (.inl (hrested u))
  cases a with
  | gc | reclaimUnit | write => exact herasing trivial
  | enable => exact rested_enable hd hrested
  | disable =>
    obtain ⟨hchanges, hoff, -⟩ := changes_disable hd
    exact rested_of_off hchanges.sound hoff
  | read | resetAccounting | trace | install | nothing => exact rested_congr rfl rfl hrested

/-- As long as no pass is refused, no unit is full that has a free line. -/
theorem rested_run_of_uninterrupted (hd : d.Sound) (hc : d.collector.policy.Selects)
    (hrested : d.Rested) {rs : List (Request μ)} (hrs : ∀ r ∈ rs, r.Selective)
    (hwhole : ∀ before r later, rs = before ++ r :: later →
      ¬ (d.run before).Interrupted r.action) : (d.run rs).Rested := by
  induction rs generalizing d with
  | nil => exact hrested
  | cons r rs ih =>
    obtain ⟨hr, hrest⟩ := List.forall_mem_cons.1 hrs
    have hafter : (d.after r).Rested := by
      rw [after_eq_act]
      exact rested_act_of_uninterrupted hd hc hrested (hwhole [] r rs rfl)
    refine ih (changes_after hd r).sound (policy_after hd hc hr) hafter hrest ?_
    intro before r' later hlater
    exact hwhole (r :: before) r' later (congrArg (r :: ·) hlater)

/-- No pass is refused of a policy that reorders its candidates. -/
theorem not_interrupted_of_reorders (hd : d.Sound) (hc : d.collector.policy.Reorders) (a : Action) :
    ¬ d.Interrupted a := by
  have hpass (budget : Option Nat) (wanted : Candidate → Bool) :
      ¬ ∃ cause, (d.collect budget wanted).result = .error cause := by
    simp only [result_collect_eq_error_iff, refused_pass_iff_of_selects hd hc.selects, not_not]
    exact Collector.nodup_victims hc
  cases a with
  | gc budget => exact hpass budget _
  | reclaimUnit u =>
    simp only [Interrupted, result_reclaimUnit_eq_error_iff]
    exact hpass none _
  | write w =>
    rw [Interrupted, passRefused_iff_of_selects hd hc.selects]
    rintro (⟨u, -, htwice⟩ | ⟨-, htwice⟩) <;> exact htwice (Collector.nodup_victims hc)
  | read | resetAccounting | trace | enable | disable | install | nothing => exact id

/-- As long as all policies reorder, no unit is full that has a free line. -/
theorem rested_run (hd : d.Sound) (hc : d.collector.policy.Reorders) (hrested : d.Rested)
    {rs : List (Request μ)} (hrs : ∀ r ∈ rs, r.Orderly) : (d.run rs).Rested := by
  refine rested_run_of_uninterrupted hd hc.selects hrested
    (fun r hr collector hinstall => (hrs r hr collector hinstall).selects) ?_
  rintro before r later rfl
  have hbefore : ∀ r ∈ before, r.Orderly := fun r hr => hrs r (List.mem_append_left _ hr)
  exact not_interrupted_of_reorders (changes_run hd before).sound (reorders_run hd hc hbefore) _

end DataPlacement.Device
