import DataPlacement.Proofs.Device.Counting
import DataPlacement.Proofs.Device.Courses
import DataPlacement.Proofs.Device.Reopening

namespace DataPlacement.Device

variable {d : Device} {u : UnitId} {w : WriteCommand} {budget : Option Nat}
  {wanted : Candidate → Bool} {μ : Type} [Host.Memory μ]

/-! ### Refused passes -/

/-- A pass is refused if and only if the policy names a line twice, or one that it was not given. -/
theorem refused_pass_iff : (∃ cause, (d.pass budget wanted).result = .error cause) ↔
    ¬ ((d.collector.victims d.pool budget wanted).Nodup ∧
      ∀ id ∈ d.collector.victims d.pool budget wanted, d.pool.Erasable id) := by
  rw [← Pool.refusal_eraseLines_eq_none_iff]
  change (∃ cause, (d.collector.collect d.pool budget wanted).result = .error cause) ↔ _
  simp only [Collector.collect]
  cases (d.pool.eraseLines (d.collector.victims d.pool budget wanted)).refusal <;>
    simp [Outcome.refused, Outcome.done]

/-- A policy that only takes lines from its candidates is refused where it names one twice. -/
theorem refused_pass_iff_of_selects (hd : d.Sound) (hc : d.collector.policy.Selects) :
    (∃ cause, (d.pass budget wanted).result = .error cause) ↔
      ¬ (d.collector.victims d.pool budget wanted).Nodup := by
  rw [refused_pass_iff, not_congr]
  refine and_iff_left_of_imp fun _ id hid => ?_
  obtain ⟨l, hline, hstate, -⟩ := Collector.exists_of_mem_victims hc hid
  exact hd.erasable hline hstate

theorem result_reclaimUnit_eq_error_iff {cause : Error} : (d.reclaimUnit u).result = .error cause ↔
    (d.collect none fun candidate => candidate.line.isOwnedBy u).result = .error cause := by
  rw [reclaimUnit]
  cases (d.collect none fun candidate => candidate.line.isOwnedBy u).result <;> simp [Except.map]

/-- A collection is refused if and only if its pass is. -/
theorem result_collect_eq_error_iff {cause : Error} :
    (d.collect budget wanted).result = .error cause ↔
      (d.pass budget wanted).result = .error cause := by
  cases hpass : (d.pass budget wanted).result with
  | error cause' => rw [collect_of_error budget hpass]; rfl
  | ok erased =>
    rw [collect_of_ok budget hpass]
    simp [Outcome.done]

/-- The pass of a write is refused where the policy names a line twice that the write is to erase.
-/
theorem passRefused_iff_of_selects (hd : d.Sound) (hc : d.collector.policy.Selects) :
    d.PassRefused w ↔
      (∃ u, d.Empties w u ∧
        ¬ (d.collector.victims d.pool none fun candidate => candidate.line.isOwnedBy u).Nodup) ∨
      d.Sweeps w ∧ ¬ (d.collector.victims d.pool none unowned).Nodup := by
  have hemptying (u : UnitId) : (∃ cause, (d.emptying u).result = .error cause) ↔
      ¬ (d.collector.victims d.pool none fun candidate => candidate.line.isOwnedBy u).Nodup := by
    simp only [emptying, result_reclaimUnit_eq_error_iff, result_collect_eq_error_iff]
    exact refused_pass_iff_of_selects hd.tick.countForegroundPass hc
  have hsweeping : (∃ cause, d.sweeping.result = .error cause) ↔
      ¬ (d.collector.victims d.pool none unowned).Nodup :=
    refused_pass_iff_of_selects hd.countForegroundPass hc
  simp only [← hemptying, ← hsweeping, PassRefused]
  constructor
  · rintro ⟨cause, ⟨u, hempties, hcause⟩ | ⟨hsweeps, hcause⟩⟩
    · exact .inl ⟨u, hempties, cause, hcause⟩
    · exact .inr ⟨hsweeps, cause, hcause⟩
  · rintro (⟨u, hempties, cause, hcause⟩ | ⟨hsweeps, cause, hcause⟩)
    · exact ⟨cause, .inl ⟨u, hempties, hcause⟩⟩
    · exact ⟨cause, .inr ⟨hsweeps, hcause⟩⟩

/-! ### Accounting -/

theorem writes_and_refused_of_commands {a b : Accounting} (h : b.commands = a.commands) :
    b.writes = a.writes ∧ b.refused = a.refused := by
  have hwrites := congrArg Accounting.writes h
  have hrefused := congrArg Accounting.refused h
  exact ⟨hwrites, hrefused⟩

theorem counts_account (o : Outcome Device WriteReport) (block bytes : Nat) :
    let before := o.state.accounting
    let after := (account o block bytes).state.accounting
    (∀ r, o.result = .ok r → after.writes = before.writes + 1 ∧ after.refused = before.refused) ∧
      ∀ cause, o.result = .error cause →
        after.writes = before.writes ∧ after.refused = before.refused + 1 := by
  cases hresult : o.result <;> simp [account, hresult]

/-- A write that is accepted is counted as accepted, and one that is refused as refused, except that
a write whose pass is refused is not counted at all. -/
theorem counts_of_write (hd : Reachable μ d) (w : WriteCommand) :
    let before := d.accounting
    let after := (d.write w).state.accounting
    (∀ r, (d.write w).result = .ok r →
        after.writes = before.writes + 1 ∧ after.refused = before.refused) ∧
      (∀ cause, (d.write w).result = .error cause → after.writes = before.writes ∧
        (¬ d.PassRefused w → after.refused = before.refused + 1)) ∧
      (d.PassRefused w → (∃ cause, (d.write w).result = .error cause) ∧
        after.refused = before.refused) := by
  intro before after
  obtain ⟨hwrites, hrefusals⟩ := writes_and_refused_of_commands (commands_attempt hd.sound w)
  have hcourse := course_attempt hd.sound w
  have hstate := congrArg (fun o => o.state.accounting) (write_eq d w)
  by_cases hrefused : d.PassRefused w
  · obtain ⟨cause, hcause⟩ := hcourse.exists_error hrefused
    have hsettled : ¬ (d.attempt w).settled = true := fun hs => hcourse.settled_iff.1 hs hrefused
    have hafter : after = (d.attempt w).outcome.state.accounting := by
      rw [if_neg hsettled] at hstate
      exact hstate
    rw [result_write, hcause, hafter]
    refine ⟨fun r hr => ?_, fun _ _ => ⟨hwrites, fun h => absurd hrefused h⟩,
      fun _ => ⟨⟨cause, rfl⟩, hrefusals⟩⟩
    cases hr
  · have hafter : after = (account (d.attempt w).outcome w.block
        (w.bytes d.geometry.blockSize)).state.accounting := by
      rw [if_pos (hcourse.settled_iff.2 hrefused)] at hstate
      exact hstate
    obtain ⟨hok, herror⟩ := counts_account (d.attempt w).outcome w.block
      (w.bytes d.geometry.blockSize)
    rw [hwrites, hrefusals] at hok herror
    rw [result_write, hafter]
    exact ⟨hok, fun cause hcause => ⟨(herror cause hcause).1, fun _ => (herror cause hcause).2⟩,
      fun h => absurd h hrefused⟩

/-- A full unit is to be emptied for a write, by a policy that names its oldest line twice. -/
theorem counts_of_write_of_refused_pass :
    ∃ fresh, build ⟨4, 2, 6, 1, by decide⟩ { handles := 2 } (.steady 0 1) = .ok fresh ∧
      let d := fresh.run ([.enable, .write (.placed 0 23 0), .install { policy := .repeating }] :
        List (Request Host.Window))
      let w : WriteCommand := .placed 24 3 0
      Reachable Host.Window d ∧ d.PassRefused w ∧ ∃ cause, (d.write w).result = .error cause ∧
        (d.write w).state.accounting.writes = d.accounting.writes ∧
        (d.write w).state.accounting.refused = d.accounting.refused := by
  have hbuild : build ⟨4, 2, 6, 1, by decide⟩ { handles := 2 } (.steady 0 1) = .ok _ := rfl
  refine ⟨_, hbuild, ?_⟩
  intro d w
  have hreach : Reachable Host.Window d := ⟨_, _, _, _, hbuild, _, rfl⟩
  have hempties : d.Empties w 0 :=
    ⟨by decide +kernel, by unfold IsWhole; decide +kernel, by unfold LeadsTo; decide +kernel,
      by decide +kernel, by decide +kernel⟩
  have hrefused : d.PassRefused w :=
    ⟨.notReclaimable 0, .inl ⟨0, hempties, by decide +kernel⟩⟩
  obtain ⟨-, herror, hstuck⟩ := counts_of_write hreach w
  obtain ⟨⟨cause, hcause⟩, hcount⟩ := hstuck hrefused
  exact ⟨hreach, hrefused, cause, hcause, (herror cause hcause).1, hcount⟩

/-- The plain path wrote both lines of the device, so that the next write is to erase them. The
policy names the first one twice, and the write is refused without being counted. -/
theorem uncounted_write_of_refused_pass :
    ∃ fresh, build ⟨4, 2, 2, 1, by decide⟩ {} (.steady 0 1) = .ok fresh ∧
      let d := fresh.run ([.write (.plain 0 15), .install { policy := .repeating }] :
        List (Request Host.Window))
      let w : WriteCommand := .plain 16 3
      Reachable Host.Window d ∧ d.collector.policy.Selects ∧
        (d.write w).result = .error (.notReclaimable 0) ∧
        d.accounting = ⟨1, 16, 0, 0, 0⟩ ∧ (d.write w).state.accounting = ⟨1, 16, 0, 0, 1⟩ := by
  have hbuild : build ⟨4, 2, 2, 1, by decide⟩ {} (.steady 0 1) = .ok _ := rfl
  refine ⟨_, hbuild, ?_⟩
  intro d w
  have hreach : Reachable Host.Window d := ⟨_, _, _, _, hbuild, _, rfl⟩
  exact ⟨hreach, VictimPolicy.selects_repeating, by decide +kernel⟩

end DataPlacement.Device
