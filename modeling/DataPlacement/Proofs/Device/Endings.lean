import DataPlacement.Proofs.Device.Books

namespace DataPlacement

/-- The counts of commands, without that of the passes that writes started. -/
def Accounting.commands (a : Accounting) : Accounting := { a with foregroundPasses := 0 }

namespace Device

variable {d e : Device} {w : WriteCommand}

/-! ### Housekeeping -/

/-- What a device does to make room. -/
inductive Upkeep : Device → Device → Prop where
  | refl (d : Device) : Upkeep d d
  | ticks (d : Device) : Upkeep d d.tick
  | countsPass (d : Device) : Upkeep d d.countForegroundPass
  | collects (d : Device) (budget : Option Nat) (wanted : Candidate → Bool) :
      Upkeep d (d.collect budget wanted).state
  | sweeps (d : Device) : Upkeep d (d.pass none unowned).state
  | trans {d e e' : Device} (h : Upkeep d e) (h' : Upkeep e e') : Upkeep d e'

theorem accounting_rearmOwners (now : Nat) (erased : List Reclaimed) (d : Device) :
    (rearmOwners now erased d).1.accounting = d.accounting := by
  induction erased generalizing d with
  | nil => rfl
  | cons r rest ih =>
    rw [rearmOwners]
    cases r.owner with
    | none => exact ih d
    | some u => exact ih _

theorem accounting_collect (d : Device) (budget : Option Nat) (wanted : Candidate → Bool) :
    (d.collect budget wanted).state.accounting = d.accounting := by
  have hpass : (d.pass budget wanted).state.accounting = d.accounting := rfl
  cases hresult : (d.pass budget wanted).result with
  | error cause =>
    rw [collect_of_error budget hresult]
    exact hpass
  | ok erased =>
    rw [collect_of_ok budget hresult]
    exact (accounting_rearmOwners _ erased _).trans hpass

namespace Upkeep

theorem advances (h : Upkeep d e) (hd : d.Sound) : ∃ es, Advances (fun _ => True) d es e := by
  induction h with
  | refl d => exact ⟨_, .refl d⟩
  | ticks d => exact ⟨_, .tick d⟩
  | countsPass d => exact ⟨_, .countForegroundPass d⟩
  | collects d budget wanted => exact ⟨_, advances_collect budget hd fun _ _ _ _ => trivial⟩
  | sweeps d => exact ⟨_, advances_any_pass d none unowned⟩
  | trans h h' ih ih' =>
    obtain ⟨es, hfirst⟩ := ih hd
    obtain ⟨fs, hlater⟩ := ih' (hfirst.sound hd)
    exact ⟨es ++ fs, hfirst.trans hlater⟩

theorem sound (h : Upkeep d e) (hd : d.Sound) : e.Sound := by
  obtain ⟨es, hadvances⟩ := h.advances hd
  exact hadvances.sound hd

theorem books (h : Upkeep d e) (hd : d.Sound) : e.books = d.books := by
  induction h with
  | refl d => rfl
  | ticks d => rfl
  | countsPass d => rfl
  | collects d budget wanted => exact books_collect hd budget wanted
  | sweeps d => rfl
  | trans h h' ih ih' => exact (ih' (h.sound hd)).trans (ih hd)

theorem commands (h : Upkeep d e) : e.accounting.commands = d.accounting.commands := by
  induction h with
  | refl d => rfl
  | ticks d => rfl
  | countsPass d => rfl
  | collects d budget wanted => rw [accounting_collect]
  | sweeps d => rfl
  | trans h h' ih ih' => exact ih'.trans ih

end Upkeep

/-! ### One try -/

section Once

variable {placement : Placement} {bytes : Nat} (block now : Nat)

/-- A try at a unit changes nothing, or fills the unit. -/
theorem routeOnce_cases (hd : d.Sound) (placement : Placement) (bytes : Nat) :
    (∃ cause notices, d.routeOnce placement block bytes now = .refused cause d notices) ∨
      ∃ u unit r notices, d.configuration.Targets placement bytes u ∧
        bytes / d.configuration.pageSize ≤ d.configuration.availablePages d.pool u ∧
        d.configuration.unit? u = some unit ∧ r.unit = some u ∧
        d.routeOnce placement block bytes now = .done r (d.filled u unit bytes now) notices := by
  by_cases htargets : ∃ u, d.configuration.Targets placement bytes u
  · obtain ⟨u, hu⟩ := htargets
    by_cases hfits : bytes / d.configuration.pageSize ≤ d.configuration.availablePages d.pool u
    · obtain ⟨unit, hunit, hroute⟩ := routeOnce_of_fits block now hd hu hfits
      exact .inr ⟨u, unit, _, _, hu, hfits, hunit, rfl, hroute⟩
    · exact .inl ⟨_, _, routeOnce_of_exhausted block now hu (Nat.lt_of_not_le hfits)⟩
  · obtain ⟨cause, hroute, -⟩ := routeOnce_of_not_targets block now (not_exists.1 htargets)
    exact .inl ⟨cause, _, hroute⟩

/-- A try at the plain path changes nothing, or fills the path. -/
theorem plainOnce_cases (hd : d.Sound) (bytes : Nat) :
    (∃ cause, d.plainOnce block bytes = .refused cause d) ∨
      ∃ r, bytes ≠ 0 ∧ bytes % d.geometry.pageSize = 0 ∧
        bytes / d.geometry.pageSize ≤ d.path.availablePages d.pool ∧ r.unit = none ∧
        d.plainOnce block bytes = .done r (d.plainFilled bytes) := by
  by_cases hlength : bytes = 0 ∨ bytes % d.geometry.pageSize ≠ 0
  · exact .inl ⟨_, plainOnce_of_invalid block hlength⟩
  · rw [not_or, not_not] at hlength
    obtain ⟨hzero, hwhole⟩ := hlength
    by_cases hfits : bytes / d.geometry.pageSize ≤ d.path.availablePages d.pool
    · exact .inr ⟨_, hzero, hwhole, hfits, rfl, plainOnce_of_fits block hd hzero hwhole hfits⟩
    · exact .inl ⟨_, plainOnce_of_exhausted block hzero hwhole (Nat.lt_of_not_le hfits)⟩

end Once

/-! ### The command -/

/-- How the attempt of a write ends, after housekeeping that leads to `e`. -/
inductive AttemptEnd (d : Device) (w : WriteCommand) (o : Outcome Device WriteReport) : Prop where
  /-- Nothing is written. -/
  | refused (cause : Error) (hkept : Upkeep d o.state) (hresult : o.result = .error cause)
  /-- The unit that the placement leads to has room. -/
  | routed (e : Device) (u : UnitId) (unit : ReclaimUnit) (r : WriteReport) (now : Nat)
      (hkept : Upkeep d e) (hplaces : d.places w)
      (htargets : d.configuration.Targets (d.placementOf w) (w.bytes d.geometry.blockSize) u)
      (hfits : w.bytes d.geometry.blockSize / e.configuration.pageSize ≤
        e.configuration.availablePages e.pool u)
      (hunit : e.configuration.unit? u = some unit) (hreport : r.unit = some u)
      (hresult : o.result = .ok r)
      (hstate : o.state = e.filled u unit (w.bytes d.geometry.blockSize) now)
  /-- The plain path has room. -/
  | plain (e : Device) (r : WriteReport) (hkept : Upkeep d e) (hplaces : d.places w = false)
      (hwhole : w.bytes d.geometry.blockSize % e.geometry.pageSize = 0)
      (hfits : w.bytes d.geometry.blockSize / e.geometry.pageSize ≤
        e.path.availablePages e.pool)
      (hreport : r.unit = none) (hresult : o.result = .ok r)
      (hstate : o.state = e.plainFilled (w.bytes d.geometry.blockSize))

/-- A try at a unit that follows some housekeeping. -/
theorem attemptEnd_of_route (hd : d.Sound) (hkept : Upkeep d e) (hplaces : d.places w)
    {o : Outcome Device WriteReport} {now : Nat}
    (hresult : o.result = (e.routeOnce (d.placementOf w) w.block
      (w.bytes d.geometry.blockSize) now).result)
    (hstate : o.state = (e.routeOnce (d.placementOf w) w.block
      (w.bytes d.geometry.blockSize) now).state) :
    AttemptEnd d w o := by
  obtain ⟨es, hadvances⟩ := hkept.advances hd
  obtain ⟨cause, notices, hroute⟩ | ⟨u, unit, r, notices, hu, hfits, hunit, hreport, hroute⟩ :=
    routeOnce_cases w.block now (hkept.sound hd) (d.placementOf w)
      (w.bytes d.geometry.blockSize)
  · rw [hroute] at hresult hstate
    have hsame : o.state = e := hstate
    exact .refused cause (hsame ▸ hkept) hresult
  · rw [hroute] at hresult hstate
    have hu' := (Configuration.targets_of_blank hadvances.blank hadvances.enabled _ _ u).1 hu
    exact .routed e u unit r now hkept hplaces hu' hfits hunit hreport hresult hstate

/-- A try at the plain path that follows some housekeeping. -/
theorem attemptEnd_of_plain (hd : d.Sound) (hkept : Upkeep d e) (hplaces : d.places w = false)
    {o : Outcome Device WriteReport}
    (hresult : o.result = (e.plainOnce w.block (w.bytes d.geometry.blockSize)).result)
    (hstate : o.state = (e.plainOnce w.block (w.bytes d.geometry.blockSize)).state) :
    AttemptEnd d w o := by
  obtain ⟨cause, honce⟩ | ⟨r, hzero, hwhole, hfits, hreport, honce⟩ :=
    plainOnce_cases w.block (hkept.sound hd) (w.bytes d.geometry.blockSize)
  · rw [honce] at hresult hstate
    have hsame : o.state = e := hstate
    exact .refused cause (hsame ▸ hkept) hresult
  · rw [honce] at hresult hstate
    exact .plain e r hkept hplaces hwhole hfits hreport hresult hstate

theorem attemptEnd_of_places (hd : d.Sound) (hplaces : d.places w) :
    AttemptEnd d w (d.attempt w).outcome := by
  rw [attempt_of_places hplaces]
  obtain honce | ⟨u, hu, hlong, hfit⟩ := writePlaced_cases w.block hd (d.placementOf w)
    (w.bytes d.geometry.blockSize)
  · rw [honce]
    exact attemptEnd_of_route hd (.ticks d) hplaces rfl rfl
  · have hkept : Upkeep d (d.tick.countForegroundPass.reclaimUnit u).state :=
      (Upkeep.ticks d).trans ((Upkeep.countsPass d.tick).trans (.collects _ none _))
    rw [writePlaced_of_hopeful (d := d) w.block hu hlong hfit]
    split
    · exact .refused _ hkept rfl
    · exact attemptEnd_of_route hd hkept hplaces rfl rfl

theorem attemptEnd_of_not_places (hd : d.Sound) (hplaces : d.places w = false) :
    AttemptEnd d w (d.attempt w).outcome := by
  rw [attempt_of_not_places hplaces]
  obtain honce | ⟨⟨hzero, hwhole⟩, hlong⟩ := writePlain_cases w.block hd
    (w.bytes d.geometry.blockSize)
  · rw [honce]
    exact attemptEnd_of_plain hd (.refl d) hplaces rfl rfl
  · have hkept : Upkeep d (d.countForegroundPass.pass none unowned).state :=
      (Upkeep.countsPass d).trans (.sweeps _)
    rw [writePlain_of_exhausted w.block hzero hwhole hlong]
    split
    · exact .refused _ hkept rfl
    · exact attemptEnd_of_plain hd hkept hplaces rfl rfl

theorem attemptEnd (hd : d.Sound) (w : WriteCommand) : AttemptEnd d w (d.attempt w).outcome := by
  cases hplaces : d.places w with
  | true => exact attemptEnd_of_places hd hplaces
  | false => exact attemptEnd_of_not_places hd hplaces

end Device

end DataPlacement
