import DataPlacement.Proofs.Device.Runs
import DataPlacement.Proofs.Pool.Candidates

namespace DataPlacement.Device

variable {d start : Device} {dist : Distribution} {μ : Type} [Host.Memory μ]

/-- The request installs no collector whose policy does more than reorder. -/
def Request.Orderly (r : Request μ) : Prop :=
  ∀ collector, r = .install collector → collector.policy.Reorders

/-- A device that a run of such requests leads to. -/
def Orderly (μ : Type) [Host.Memory μ] (d : Device) : Prop :=
  ∃ g params clock fresh, build g params clock = .ok fresh ∧
    ∃ rs : List (Request μ), (∀ r ∈ rs, r.Orderly) ∧ d = fresh.run rs

/-- The policy of a device stays one of a kind while only policies of that kind are installed. -/
theorem policy_after {P : VictimPolicy → Prop} (hd : d.Sound) (hc : P d.collector.policy)
    {r : Request μ} (hr : ∀ collector, r = .install collector → P collector.policy) :
    P (d.after r).collector.policy := by
  have heffect := effect_after hd r
  generalize d.after r = d' at heffect
  cases heffect with
  | advances h => rwa [h.policy]
  | enables => rwa [collector_enable]
  | disables => exact hc
  | installs collector hp => exact hr collector hp

theorem reorders_after (hd : d.Sound) (hc : d.collector.policy.Reorders) {r : Request μ}
    (hr : r.Orderly) : (d.after r).collector.policy.Reorders :=
  policy_after hd hc hr

theorem run_append (d : Device) (rs rs' : List (Request μ)) :
    d.run (rs ++ rs') = (d.run rs).run rs' :=
  List.foldl_append

theorem reorders_run (hd : d.Sound) (hc : d.collector.policy.Reorders) {rs : List (Request μ)}
    (hrs : ∀ r ∈ rs, r.Orderly) : (d.run rs).collector.policy.Reorders :=
  run_preserves (fun _ _ hd hc hr => reorders_after hd hc hr) hd hc hrs

/-- A device is built with the standard policy. -/
theorem reorders_build {g : Geometry} {params : Parameters} {clock : Clock}
    (h : build g params clock = .ok d) : d.collector.policy.Reorders := by
  rw [policy_build h]
  exact VictimPolicy.reorders_oldestFirst

namespace Orderly

theorem sound (h : Orderly μ d) : d.Sound := by
  obtain ⟨g, params, clock, fresh, hbuild, rs, -, rfl⟩ := h
  exact (changes_run (sound_build hbuild) rs).sound

theorem reorders (h : Orderly μ d) : d.collector.policy.Reorders := by
  obtain ⟨g, params, clock, fresh, hbuild, rs, hrs, rfl⟩ := h
  exact reorders_run (sound_build hbuild) (reorders_build hbuild) hrs

end Orderly

/-- The period that turning placement on begins: it gave out lines by `dist` and left the device
`start`, and placement is on since. -/
inductive Period (μ : Type) [Host.Memory μ] (dist : Distribution) (start : Device) :
    Device → Prop where
  | begins {d : Device} (hd : Orderly μ d) (henable : d.enable.result = .ok (some dist))
      (hstart : d.enable.state = start) : Period μ dist start start
  | continues {d : Device} (h : Period μ dist start d) (r : Request μ) (hr : r.Orderly)
      (hon : (d.after r).enabled) : Period μ dist start (d.after r)

/-- Placement is on, the units own the lines that they owned at the start, and these are as many as
they were given. -/
structure Granted (dist : Distribution) (start d : Device) : Prop where
  sound : d.Sound
  reorders : d.collector.policy.Reorders
  enabled : d.enabled
  owned : ∀ o, d.pool.owned o = start.pool.owned o
  units : d.configuration.units.size = start.configuration.units.size
  shares : ∀ u < start.configuration.units.size,
    dist.perUnit[u]? = some (start.pool.owned (some u)).card

theorem granted_enable (hd : Orderly μ d) (henable : d.enable.result = .ok (some dist)) :
    Granted dist d.enable.state d.enable.state := by
  have hpolicy := hd.reorders
  rw [← collector_enable] at hpolicy
  cases enableEnd hd.sound with
  | already hon hsame =>
    rw [hsame] at henable
    cases henable
  | refused hoff cause after notices hrefused =>
    rw [hrefused] at henable
    cases henable
  | dealt hoff given after notices hdone hchanges hon hquiet hshares =>
    rw [hdone] at henable hpolicy ⊢
    obtain rfl : given = dist := Option.some.inj (Except.ok.inj henable)
    have hsize := Configuration.size_units_eq_of_blank hchanges.blank
    exact ⟨hchanges.sound, hpolicy, hon, fun _ => rfl, rfl, fun u hu => hshares u (hsize ▸ hu)⟩

/-- A request that leaves placement on leaves every line with its owner. -/
theorem owned_after (hd : d.Sound) (hon : d.enabled) (r : Request μ) (hon' : (d.after r).enabled) :
    (∀ o, (d.after r).pool.owned o = d.pool.owned o) ∧
      (d.after r).configuration.units.size = d.configuration.units.size := by
  have heffect := effect_after hd r
  generalize d.after r = d' at heffect hon'
  cases heffect with
  | advances h => exact ⟨h.keeps.owned, Configuration.size_units_eq_of_blank h.blank⟩
  | enables =>
    rw [enable_of_on hon]
    exact ⟨fun _ => rfl, rfl⟩
  | disables =>
    rw [(changes_disable hd).2.1] at hon'
    cases hon'
  | installs => exact ⟨fun _ => rfl, rfl⟩

/-- All through a period the units own what they were given at its start. -/
theorem Period.granted (h : Period μ dist start d) : Granted dist start d := by
  induction h with
  | begins hd henable hstart =>
    subst hstart
    exact granted_enable hd henable
  | continues h r hr hon ih =>
    obtain ⟨howned, hunits⟩ := owned_after ih.sound ih.enabled r hon
    exact ⟨(changes_after ih.sound r).sound, reorders_after ih.sound ih.reorders hr, hon,
      fun o => (howned o).trans (ih.owned o), hunits.trans ih.units, ih.shares⟩

/-- If a request turns placement on, it begins a period. -/
theorem period_of_turned_on (hd : Orderly μ d) (hoff : d.enabled = false) (r : Request μ)
    (hon : (d.after r).enabled) : ∃ dist start, Period μ dist start (d.after r) := by
  have heffect := effect_after hd.sound r
  generalize d.after r = d' at heffect hon
  cases heffect with
  | advances h =>
    rw [h.enabled, hoff] at hon
    cases hon
  | enables =>
    cases enableEnd hd.sound with
    | already hbefore =>
      rw [hoff] at hbefore
      cases hbefore
    | refused _ cause after notices hrefused _ hafter =>
      rw [hrefused] at hon
      exact absurd (hafter.symm.trans hon) Bool.false_ne_true
    | dealt _ dist after notices hdone =>
      have hgiven : d.enable.result = .ok (some dist) := by
        rw [hdone]
        rfl
      exact ⟨dist, _, .begins hd hgiven rfl⟩
  | disables =>
    rw [(changes_disable hd.sound).2.1] at hon
    cases hon
  | installs =>
    exact absurd (hoff.symm.trans hon) Bool.false_ne_true

/-- While placement is on there is a period. -/
theorem Orderly.exists_period (h : Orderly μ d) (hon : d.enabled) :
    ∃ dist start, Period μ dist start d := by
  obtain ⟨g, params, clock, fresh, hbuild, rs, hrs, rfl⟩ := h
  induction rs using List.reverseRecOn with
  | nil =>
    have hoff := enabled_build hbuild
    exact absurd (hoff.symm.trans hon) Bool.false_ne_true
  | append_singleton rs r ih =>
    rw [run_append] at hon ⊢
    have hbefore : ∀ r ∈ rs, r.Orderly := fun r hr => hrs r (by simp [hr])
    cases hstate : (fresh.run rs).enabled with
    | false =>
      exact period_of_turned_on ⟨g, params, clock, fresh, hbuild, rs, hbefore, rfl⟩ hstate r hon
    | true =>
      obtain ⟨dist, start, hperiod⟩ := ih hbefore hstate
      exact ⟨dist, start, hperiod.continues r (hrs r (by simp)) hon⟩

end DataPlacement.Device
