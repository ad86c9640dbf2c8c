import DataPlacement.Host.Transfer
import DataPlacement.Proofs.Configuration.Identifiers
import DataPlacement.Proofs.Device.Endings
import DataPlacement.Proofs.Device.Runs

namespace DataPlacement.Device

variable {μ : Type} [Host.Memory μ] {d fresh : Device} {g : Geometry} {params : Parameters}
  {clock : Clock}

/-- The placement of an accepted placed write leads to the unit that the write reports. -/
theorem exists_unit_of_accepted (hd : d.Sound) {w : WriteCommand} (hplaces : d.places w)
    {r : WriteReport} (haccepted : (d.write w).result = .ok r) :
    ∃ u, d.configuration.resolve (d.placementOf w) = .ok u ∧ r.unit = some u := by
  rw [result_write] at haccepted
  cases attemptEnd hd w with
  | refused cause hkept hresult =>
    rw [hresult] at haccepted
    cases haccepted
  | routed e u unit report now hkept hplaces' htargets hfits hunit hreport hresult =>
    rw [hresult] at haccepted
    obtain rfl : report = r := Except.ok.inj haccepted
    exact ⟨u, htargets.2.2.2, hreport⟩
  | plain e report hkept hplain =>
    rw [hplain] at hplaces
    cases hplaces

theorem unit_of_accepted (hd : d.Sound) {w : WriteCommand} (hplaces : d.places w) {u : UnitId}
    (hresolve : d.configuration.resolve (d.placementOf w) = .ok u) {r : WriteReport}
    (haccepted : (d.write w).result = .ok r) : r.unit = some u := by
  obtain ⟨v, hv, hunit⟩ := exists_unit_of_accepted hd hplaces haccepted
  obtain rfl : u = v := Except.ok.inj (hresolve.symm.trans hv)
  exact hunit

/-- Whatever happened to a device, its configuration has the shape that it was built in. -/
theorem shaped_run (hbuild : build g params clock = .ok fresh) (rs : List (Request μ)) :
    (fresh.run rs).configuration.Shaped ∧
      ((fresh.run rs).configuration.HandlesFit ↔
        params.handles ≤ bitRange (16 - Configuration.bitsFor params.groups)) := by
  have hblank := (changes_run (sound_build hbuild) rs).blank
  obtain ⟨c, hc, rfl⟩ := exists_of_build hbuild
  have hshaped := (Configuration.shaped_build hc).of_blank hblank
  obtain ⟨-, -, rfl⟩ := Configuration.build_eq_ok_iff.1 hc
  have hhandles := congrArg Configuration.handles hblank
  have hbits := congrArg Configuration.groupBits hblank
  refine ⟨hshaped, ?_⟩
  simp only [Configuration.blank] at hhandles hbits
  rw [Configuration.HandlesFit, hhandles, hbits]
  rfl

/-- The identifiers that a device reports lead back to their units, and are distinct, if and only if
its handles fit into the bits that the group leaves. If they do, an accepted write with the
identifier of a unit is a write to that unit. -/
theorem identifiers_lead_back_iff (hbuild : build g params clock = .ok fresh)
    (rs : List (Request μ)) :
    let d := fresh.run rs
    let fits := params.handles ≤ bitRange (16 - Configuration.bitsFor params.groups)
    (d.configuration.RoutesBack ↔ fits) ∧ (d.configuration.identifiers.Nodup ↔ fits) ∧
      (fits → ∀ u unit, d.configuration.unit? u = some unit → ∀ w, d.places w →
        w.identifier = d.configuration.identifierOf unit →
          ∀ r, (d.write w).result = .ok r → r.unit = some unit.id) := by
  intro d fits
  obtain ⟨hshaped, hfits⟩ := shaped_run hbuild rs
  refine ⟨hshaped.routesBack_iff.trans hfits, hshaped.nodup_identifiers_iff.trans hfits, ?_⟩
  intro hnarrow u unit hunit w hplaces hidentifier r haccepted
  have hsound : d.Sound := (changes_run (sound_build hbuild) rs).sound
  have hroute := hshaped.routesBack_of_handlesFit (hfits.2 hnarrow) u unit hunit
  rw [← hidentifier] at hroute
  exact unit_of_accepted hsound hplaces hroute haccepted

/-- Two groups of two units each, where the upper bit of an identifier is the group. -/
theorem identifiers_lead_back_of_two_groups :
    ∃ fresh, build ⟨4, 2, 6, 1, by decide⟩ { groups := 2, handles := 2 } (.steady 0 1) = .ok fresh ∧
      let d := fresh.run ([.enable, .write (.placed 0 3 0x8001)] : List (Request Host.Window))
      d.configuration.identifiers = [0, 1, 0x8000, 0x8001] ∧ d.configuration.RoutesBack ∧
        d.configuration.identifiers.Nodup := by
  have hbuild : build ⟨4, 2, 6, 1, by decide⟩ { groups := 2, handles := 2 } (.steady 0 1) =
    .ok _ := rfl
  refine ⟨_, hbuild, by decide +kernel, ?_⟩
  obtain ⟨hback, hnodup, -⟩ := identifiers_lead_back_iff hbuild
    ([.enable, .write (.placed 0 3 0x8001)] : List (Request Host.Window))
  exact ⟨hback.2 (by decide), hnodup.2 (by decide)⟩

/-- With 513 groups six bits are left for 65 handles: the last unit of the first group reports the
identifier of the first unit of the second group, which is where a write with it goes. -/
theorem shared_identifier_of_wide_handles :
    ∃ c, Configuration.build {} { groups := 513, handles := 65 } = .ok c ∧
      ∃ unit other, c.unit? 64 = some unit ∧ unit.id = 64 ∧ c.unit? 65 = some other ∧
        c.identifierOf unit = c.identifierOf other ∧
        c.resolve (c.placementOf (c.identifierOf unit)) = .ok 65 := by
  have haccepted : Parameters.Accepted { groups := 513, handles := 65 } :=
    ⟨by decide, by decide, by decide, by decide⟩
  have hbuild := Configuration.build_eq_ok_iff.2 ⟨(by decide : ({} : Geometry).validate = .ok ()),
    haccepted, rfl⟩
  have hshaped := Configuration.shaped_build hbuild
  refine ⟨_, hbuild, _, _, Configuration.unit?_built (by decide), rfl,
    Configuration.unit?_built (by decide), by decide +kernel, ?_⟩
  exact hshaped.resolve (by decide : 1 < 513) (by decide : 0 < 65)

end DataPlacement.Device
