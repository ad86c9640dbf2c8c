import DataPlacement.Host.Transfer
import DataPlacement.Proofs.Device.Posting
import DataPlacement.Proofs.Device.Repetition

namespace DataPlacement

open Journal

/-! ### Accounting -/

namespace Accounting

/-- The counts after one more entry of the journal. -/
def enter (a : Accounting) : Entry → Accounting
  | .wrote _ bytes => { a with writes := a.writes + 1, bytes := advance 64 a.bytes bytes }
  | .refused => { a with refused := a.refused + 1 }
  | .read => { a with reads := a.reads + 1 }
  | .accountingReset => {}
  | .switchedOn | .switchedOff => a

/-- The counts are those of the entries since the last reset, bytes in 64 bits. -/
structure Tells (a : Accounting) (j : List Entry) : Prop where
  writes : a.writes = ((since .accountingReset j).filterMap Entry.bytes?).length
  bytes : a.bytes = lowBits 64 ((since .accountingReset j).filterMap Entry.bytes?).sum
  reads : a.reads = (since .accountingReset j).count .read
  refused : a.refused = (since .accountingReset j).count .refused

theorem Tells.enter {a : Accounting} {j : List Entry} (h : a.Tells j) (x : Entry) :
    (a.enter x).Tells (j ++ [x]) := by
  by_cases hreset : x = .accountingReset
  · subst hreset
    constructor <;> rw [since_mark] <;> rfl
  · have hsince := since_other hreset j
    cases x with
    | accountingReset => exact absurd rfl hreset
    | wrote | refused | read | switchedOn | switchedOff =>
      constructor <;> rw [hsince] <;>
        simp [Accounting.enter, h.writes, h.bytes, h.reads, h.refused, Entry.bytes?,
          List.filterMap_cons, advance_lowBits]

theorem commands_enter (a : Accounting) (x : Entry) :
    (a.commands.enter x).commands = (a.enter x).commands := by
  cases x <;> rfl

/-- The counts after an action that may have made an entry. -/
def enter? (a : Accounting) : Option Entry → Accounting
  | none => a
  | some x => a.enter x

/-- Switching placement is not accounted for. -/
theorem enter?_ofSwitch? (a : Accounting) (before after : Bool) :
    a.enter? (Entry.ofSwitch? before after) = a := by
  cases before <;> cases after <;> rfl

theorem Tells.enter? {a : Accounting} {j : List Entry} (h : a.Tells j) (x : Option Entry) :
    (a.enter? x).Tells (j ++ x.toList) := by
  cases x with
  | none => simpa [Accounting.enter?] using h
  | some x => exact h.enter x

end Accounting

namespace Device

variable {μ : Type} [Host.Memory μ] {d d' fresh : Device}

/-- Under a policy that only reorders no pass is refused, so every write is accounted for. -/
theorem settled_attempt (hd : d.Sound) (hc : d.collector.policy.Reorders) (w : WriteCommand) :
    (d.attempt w).settled = true := by
  unfold attempt
  split
  · obtain honce | ⟨u, hu, hlong, hfit⟩ := writePlaced_cases w.block hd (d.placementOf w)
      (w.bytes d.geometry.blockSize)
    · rw [honce]
    · have hpass := (reclaimUnit_of_reorders hd.tick.countForegroundPass hc u).1
      rw [writePlaced_of_hopeful (d := d) w.block hu hlong hfit, hpass]
  · obtain honce | ⟨⟨hzero, hwhole⟩, hlong⟩ := writePlain_cases w.block hd
      (w.bytes d.geometry.blockSize)
    · rw [honce]
    · have hpass := (pass_of_reorders none unowned hd.countForegroundPass hc).1
      rw [writePlain_of_exhausted w.block hzero hwhole hlong, hpass]

/-- What is written to the pool is not accounted for yet. -/
theorem commands_attempt (hd : d.Sound) (w : WriteCommand) :
    (d.attempt w).outcome.state.accounting.commands = d.accounting.commands := by
  cases attemptEnd hd w with
  | refused cause hkept hresult => exact hkept.commands
  | routed e u unit r now hkept hplaces htargets hfits hunit hreport hresult hstate =>
    rw [hstate]
    exact hkept.commands
  | plain e r hkept hplaces hwhole hfits hreport hresult hstate =>
    rw [hstate]
    exact hkept.commands

theorem accounting_write (hd : d.Sound) (hc : d.collector.policy.Reorders) (w : WriteCommand) :
    (d.write w).state.accounting.commands =
      (d.accounting.enter? (d.entryOf (.write w))).commands := by
  have hcommands := commands_attempt hd w
  simp only [entryOf, result_write]
  rw [write_eq, settled_attempt hd hc w, if_pos rfl]
  generalize (d.attempt w).outcome = o at hcommands ⊢
  cases hresult : o.result with
  | ok report =>
    simp only [account, hresult, Accounting.enter?]
    rw [← Accounting.commands_enter, ← hcommands, Accounting.commands_enter]
    rfl
  | error cause =>
    simp only [account, hresult, Accounting.enter?]
    rw [← Accounting.commands_enter, ← hcommands, Accounting.commands_enter]
    rfl

theorem accounting_disable (d : Device) : d.disable.state.accounting = d.accounting := by
  cases henabled : d.enabled with
  | false => rw [disable_of_off henabled]; rfl
  | true => rw [disable_of_on henabled]; rfl

theorem accounting_enable (hd : d.Sound) : d.enable.state.accounting = d.accounting := by
  cases hoff : d.enabled with
  | true => rw [enable_of_on hoff, Outcome.done]
  | false =>
    obtain ⟨p, -, -, ⟨u, notices, -, henable⟩ | ⟨dist, c, q, notices, -, -, -, henable⟩⟩ :=
      enable_cases hd hoff
    · rw [henable]
      exact accounting_disable _
    · rw [henable]
      rfl

/-- Accounting follows the entries that actions make. -/
theorem accounting_act (hd : d.Sound) (hc : d.collector.policy.Reorders) (action : Action) :
    (d.act action).accounting.commands = (d.accounting.enter? (d.entryOf action)).commands := by
  have hswitch : ∀ d' : Device, d'.accounting = d.accounting → d'.accounting.commands =
      (d.accounting.enter? (Entry.ofSwitch? d.enabled d'.enabled)).commands := by
    intro d' hsame
    rw [Accounting.enter?_ofSwitch?, hsame]
  cases action with
  | write w => exact accounting_write hd hc w
  | read | resetAccounting => rfl
  | enable => exact hswitch _ (accounting_enable hd)
  | disable => exact hswitch _ (accounting_disable d)
  | gc budget => exact hswitch _ (accounting_collect d budget _)
  | reclaimUnit u => exact hswitch _ (accounting_collect d none _)
  | trace | install | nothing => exact hswitch _ rfl

/-- Writes that were accounted for, accepted or refused. -/
def accountedWrites (d : Device) : Nat := d.accounting.writes + d.accounting.refused

/-- A write is accounted for once, and nothing else is accounted for as a write. -/
theorem accountedWrites_act (hd : d.Sound) (hc : d.collector.policy.Reorders) (action : Action) :
    (d.act action).accountedWrites =
      match action with
      | .write _ => d.accountedWrites + 1
      | .resetAccounting => 0
      | _ => d.accountedWrites := by
  have hcommands := accounting_act hd hc action
  have hwrites := congrArg Accounting.writes hcommands
  have hrefused := congrArg Accounting.refused hcommands
  simp only [Accounting.commands] at hwrites hrefused
  rw [accountedWrites, hwrites, hrefused]
  cases action with
  | write w =>
    simp only [entryOf, accountedWrites]
    split <;> simp only [Accounting.enter?, Accounting.enter] <;> omega
  | read | resetAccounting => rfl
  | enable | disable | gc | reclaimUnit | trace | install | nothing =>
    simp only [entryOf, Accounting.enter?_ofSwitch?, accountedWrites]

/-! ### Runs -/

end Device

end DataPlacement
