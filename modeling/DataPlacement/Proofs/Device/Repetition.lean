import DataPlacement.Proofs.Device.Admission
import DataPlacement.Proofs.Device.Journal

namespace DataPlacement.Device

variable {d : Device} {u : UnitId} {w : WriteCommand} {μ : Type} [Host.Memory μ]

/-- The write leads to the unit, whose lines have room for it on whichever of their pages the unit
stands. -/
structure RoomFor (d : Device) (w : WriteCommand) (u : UnitId) : Prop where
  placed : d.places w
  whole : w.bytes d.geometry.blockSize % d.geometry.pageSize = 0
  leads : d.configuration.resolve (d.placementOf w) = .ok u
  unit : u < d.configuration.units.size
  room : w.bytes d.geometry.blockSize / d.geometry.pageSize + d.geometry.pagesPerLine ≤
    d.geometry.pagesPerLine * (d.pool.owned (some u)).card

instance (d : Device) (w : WriteCommand) (u : UnitId) : Decidable (d.RoomFor w u) :=
  decidable_of_iff
    (d.places w ∧ w.bytes d.geometry.blockSize % d.geometry.pageSize = 0 ∧
      d.configuration.resolve (d.placementOf w) = .ok u ∧ u < d.configuration.units.size ∧
      w.bytes d.geometry.blockSize / d.geometry.pageSize + d.geometry.pagesPerLine ≤
        d.geometry.pagesPerLine * (d.pool.owned (some u)).card)
    ⟨fun ⟨hplaced, hwhole, hleads, hunit, hroom⟩ => ⟨hplaced, hwhole, hleads, hunit, hroom⟩,
      fun h => ⟨h.placed, h.whole, h.leads, h.unit, h.room⟩⟩

/-- The device can carry out the write to the unit again and again. -/
structure Sustains (d : Device) (w : WriteCommand) (u : UnitId) : Prop where
  sound : d.Sound
  reorders : d.collector.policy.Reorders
  roomFor : d.RoomFor w u

namespace Sustains

theorem accepts (h : d.Sustains w u) : d.Accepts w := by
  obtain ⟨unit, hunit⟩ : ∃ unit, d.configuration.unit? u = some unit :=
    ⟨_, Array.getElem?_eq_getElem h.roomFor.unit⟩
  have hpage := h.sound.page_lt hunit
  rw [h.sound.pagesPerLine] at hpage
  have hfits : d.pagesOf w ≤ d.geometry.pagesPerLine * (d.pool.owned (some u)).card -
      unit.pointer.page := Nat.le_sub_of_add_le (Nat.le_trans (Nat.add_le_add_left hpage.le _)
        h.roomFor.room)
  exact (accepts_placed_iff h.sound h.reorders h.roomFor.placed).2
    ⟨h.roomFor.whole, u, _, h.roomFor.leads, hunit, hfits⟩

/-- No write changes anything of what it or another one depends on. -/
theorem write (h : d.Sustains w u) (w' : WriteCommand) : (d.write w').state.Sustains w u := by
  have hwrite := advances_any_write h.sound w'
  have hplacement : (d.write w').state.placementOf w = d.placementOf w :=
    Configuration.placementOf_eq_of_blank hwrite.blank w.identifier
  refine ⟨hwrite.sound h.sound, hwrite.policy ▸ h.reorders, ?_⟩
  constructor
  · rw [places, hwrite.enabled]
    exact h.roomFor.placed
  · rw [hwrite.geometry]
    exact h.roomFor.whole
  · rw [hplacement, Configuration.resolve_eq_of_blank hwrite.blank]
    exact h.roomFor.leads
  · rw [Configuration.size_units_eq_of_blank hwrite.blank]
    exact h.roomFor.unit
  · rw [hwrite.geometry, hwrite.keeps.owned]
    exact h.roomFor.room

end Sustains

/-- All of the requests are writes of so many bytes to the unit, for which its lines have room. -/
def SustainsAll (d : Device) (rs : List (Request μ)) (u : UnitId) (bytes : Nat) : Prop :=
  ∀ r ∈ rs, ∃ w, r.action = .write w ∧ d.Sustains w u ∧ w.bytes d.geometry.blockSize = bytes

namespace SustainsAll

variable {r : Request μ} {rs : List (Request μ)} {bytes : Nat}

theorem after (h : d.SustainsAll (r :: rs) u bytes) : (d.after r).SustainsAll rs u bytes := by
  obtain ⟨⟨w, hr, hw, -⟩, hrest⟩ := List.forall_mem_cons.1 h
  have hafter : d.after r = (d.write w).state := by
    rw [after_eq_act, hr]
    rfl
  intro r' hr'
  obtain ⟨w', hw', hsustains, hbytes⟩ := hrest r' hr'
  rw [hafter, (advances_any_write hw.sound w).geometry]
  exact ⟨w', hw', hsustains.write w, hbytes⟩

end SustainsAll

end DataPlacement.Device
