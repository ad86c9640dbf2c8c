import DataPlacement.Proofs.Device.Attempts
import DataPlacement.Proofs.Pool.Candidates

namespace DataPlacement

/-- The policy chooses only lines of owners in `W`, whatever lines are full. -/
def Collector.Confined (c : Collector) (wanted : Candidate → Bool) (W : Option UnitId → Prop) :
    Prop :=
  ∀ p budget, ∀ id ∈ c.victims p budget wanted, W (p.ownerOf id)

/-- A policy that only reorders chooses lines of the owners that are wanted. -/
theorem Collector.confined_of_reorders {c : Collector} {wanted : Candidate → Bool}
    {W : Option UnitId → Prop} (hc : c.policy.Reorders)
    (hW : ∀ candidate, wanted candidate → W candidate.line.owner) : c.Confined wanted W := by
  intro p budget id hid
  obtain ⟨l, hline, -, hwanted⟩ := exists_of_mem_victims hc.selects hid
  rw [Pool.ownerOf_eq hline]
  exact hW ⟨id, l⟩ hwanted

namespace Device

open Allocation

variable {W : Option UnitId → Prop} {d : Device}

/-- One pass of the collector. -/
def pass (d : Device) (budget : Option Nat) (wanted : Candidate → Bool) :
    Outcome Device (List Reclaimed) :=
  d.onCollector fun c p => c.collect p budget wanted

section Pass

variable {wanted : Candidate → Bool} (budget : Option Nat)

theorem advances_pass (hW : d.collector.Confined wanted W) :
    Advances W d (erasures (d.pass budget wanted).notices) (d.pass budget wanted).state := by
  refine ⟨?_, rfl, ?_, rfl, rfl, id, fun _ _ => rfl⟩
  · have hsteps := steps_eraseLines (d.configuration.pointers d.path)
      (d.collector.victims d.pool budget wanted) d.pool (hW d.pool budget)
    rw [← d.collector.erasures_collect, ← d.collector.state_collect] at hsteps
    exact hsteps
  · change (d.collector.collect d.pool budget wanted).state.1.policy = d.collector.policy
    unfold Collector.collect
    dsimp only
    split <;> rfl

theorem advances_any_pass (d : Device) (budget : Option Nat) (wanted : Candidate → Bool) :
    Advances (fun _ => True) d (erasures (d.pass budget wanted).notices)
      (d.pass budget wanted).state :=
  advances_pass budget fun _ _ _ _ => trivial

/-- A pass erases lines of owners in `W` only. -/
theorem owner_of_mem_pass (hW : d.collector.Confined wanted W) {erased : List Reclaimed}
    (h : (d.pass budget wanted).result = .ok erased) {r : Reclaimed} (hr : r ∈ erased) :
    W r.owner := by
  have herased : (d.collector.collect d.pool budget wanted).result = .ok erased := h
  unfold Collector.collect at herased
  dsimp only at herased
  split at herased
  · cases herased
  · obtain rfl : _ = erased := Except.ok.inj herased
    obtain ⟨hmem, howner⟩ := Pool.owner_of_mem_erased hr
    rw [howner]
    exact hW d.pool budget r.line hmem

theorem Sound.erasable (hd : d.Sound) {id : LineId} {l : Line}
    (hline : d.pool.lines[id]? = some l) (hstate : l.state = .full) : d.pool.Erasable id := by
  have hlist := hd.housed id
  rw [Pool.ownerOf_eq hline] at hlist
  exact ⟨l, hline, hstate, hlist⟩

/-- Under a policy that only reorders, a pass erases all its victims and is not refused. -/
theorem pass_of_reorders (wanted : Candidate → Bool) (hd : d.Sound)
    (hc : d.collector.policy.Reorders) :
    let ids := d.collector.victims d.pool budget wanted
    (d.pass budget wanted).result = .ok (ids.map fun id => ⟨id, d.pool.ownerOf id⟩) ∧
      d.pool.Erased ids (d.pass budget wanted).state.pool ∧
      erasures (d.pass budget wanted).notices = ids.map .erased := by
  intro ids
  have hnodup : (d.collector.victims d.pool budget wanted).Nodup := Collector.nodup_victims hc
  have herasable : ∀ id ∈ d.collector.victims d.pool budget wanted, d.pool.Erasable id := by
    intro id hid
    obtain ⟨l, hline, hstate, -⟩ := Collector.exists_of_mem_victims hc.selects hid
    exact hd.erasable hline hstate
  obtain ⟨hrefusal, herased, hpool⟩ := Pool.eraseLines_of_erasable hnodup herasable
  refine ⟨?_, ?_, ?_⟩
  · change (d.collector.collect d.pool budget wanted).result = _
    simp only [Collector.collect, hrefusal, herased, Outcome.done]
    rfl
  · change d.pool.Erased ids (d.collector.collect d.pool budget wanted).state.2
    rw [Collector.state_collect]
    exact hpool
  · change erasures (d.collector.collect d.pool budget wanted).notices = _
    rw [Collector.erasures_collect, herased, List.map_map]
    rfl

end Pass

section Rearm

/-- A full unit that got a line back. -/
theorem advances_rearm (hd : d.Sound) {u : UnitId} (hu : W (some u)) (now : Nat) :
    let o := d.onUnits fun c p => c.rearm p u now
    Advances W d [] o.state ∧ erasures o.notices = [] := by
  simp only [onUnits_eq_mapState]
  obtain hsame | ⟨unit, id, rest, hunit, hfull, hfree, hrearm⟩ :=
    d.configuration.rearm_cases d.pool now u
  · rw [hsame]
    exact ⟨.refl d, rfl⟩
  · rw [hrearm]
    refine ⟨⟨?_, rfl, rfl, ?_, rfl, fun hc => ?_, fun v hv => ?_⟩, rfl⟩
    · have hclosed : d.allocation.pointer (some u) = .closed := by
        rw [← hd.pointer_of_full hunit hfull]
        exact Configuration.pointers_of_unit? d.path hunit
      have hopen := Traffic.opens (s := d.allocation) hu hclosed hfree
      have hpointers := Configuration.pointers_updateUnit d.path hunit (·.openOn id now)
      simp only [Outcome.mapState, Outcome.done, allocation, setUnits, hpointers]
      exact .single hopen
    · exact d.configuration.blank_updateUnit u fun _ => rfl
    · have henabled : d.configuration.enabled = true := by
        have hstate := hc u unit hunit
        cases henabled : d.configuration.enabled <;>
          simp [hfull, henabled, UnitState.ofPointer] at hstate ⊢
      refine Configuration.settled_updateUnit hc fun _ _ => ?_
      rw [henabled]
      rfl
    · have huv : u ≠ v := fun heq => hv (heq ▸ hu)
      simp [Outcome.mapState, Outcome.done, setUnits, Configuration.unit?_updateUnit, huv]

theorem advances_rearmOwners (hd : d.Sound) (now : Nat) {erased : List Reclaimed}
    (hW : ∀ r ∈ erased, W r.owner) :
    Advances W d [] (rearmOwners now erased d).1 ∧ erasures (rearmOwners now erased d).2 = [] := by
  induction erased generalizing d with
  | nil => exact ⟨.refl d, rfl⟩
  | cons r rest ih =>
    have hrest : ∀ r ∈ rest, W r.owner := fun r hr => hW r (by simp [hr])
    have hr := hW r (by simp)
    rw [rearmOwners]
    cases howner : r.owner with
    | none => exact ih hd hrest
    | some u =>
      rw [howner] at hr
      obtain ⟨hfirst, hquiet⟩ := advances_rearm hd hr now
      obtain ⟨hlater, hquiet'⟩ := ih (hfirst.sound hd) hrest
      exact ⟨hfirst.trans hlater, by simp only [erasures_append, hquiet, hquiet', List.append_nil]⟩

end Rearm

section Collect

variable {wanted : Candidate → Bool} (budget : Option Nat)

theorem collect_of_error {cause : Error} (h : (d.pass budget wanted).result = .error cause) :
    d.collect budget wanted =
      .refused cause (d.pass budget wanted).state (d.pass budget wanted).notices := by
  unfold pass at *
  unfold collect
  split <;> simp_all

/-- What a pass that was not refused leaves. -/
theorem collect_of_ok {erased : List Reclaimed} (h : (d.pass budget wanted).result = .ok erased) :
    d.collect budget wanted =
      let after := (d.pass budget wanted).state
      let rearmed := rearmOwners after.clock.now erased after.tick
      .done erased rearmed.1 ((d.pass budget wanted).notices ++ rearmed.2) := by
  unfold pass at *
  unfold collect
  split <;> simp_all

theorem advances_collect (hd : d.Sound) (hW : d.collector.Confined wanted W) :
    Advances W d (erasures (d.collect budget wanted).notices)
      (d.collect budget wanted).state := by
  have hpass := advances_pass (d := d) budget hW
  cases hresult : (d.pass budget wanted).result with
  | error cause =>
    rw [collect_of_error budget hresult]
    exact hpass
  | ok erased =>
    have hticked := hpass.trans (.tick (d.pass budget wanted).state)
    obtain ⟨hrearmed, hquiet⟩ := advances_rearmOwners (W := W) (hticked.sound hd)
      (d.pass budget wanted).state.clock.now fun r hr => owner_of_mem_pass budget hW hresult hr
    rw [collect_of_ok budget hresult]
    simp only [Outcome.done, erasures_append, hquiet]
    simpa using hticked.trans hrearmed

end Collect

end Device

end DataPlacement
