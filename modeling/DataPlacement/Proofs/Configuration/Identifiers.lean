import DataPlacement.Proofs.Command.Dwords
import DataPlacement.Proofs.Configuration.Building
import Mathlib.Data.List.Nodup

namespace DataPlacement.Configuration

theorem groups_le_bitRange (groups : Nat) : groups ≤ bitRange (bitsFor groups) := by
  unfold bitsFor
  split
  · simpa [bitRange]
  · have hlast : groups - 1 < 2 ^ ((groups - 1).log2 + 1) := Nat.lt_log2_self
    rw [bitRange_eq_two_pow]
    omega

theorem bitsFor_le {groups width : Nat} (h : groups ≤ bitRange width) :
    bitsFor groups ≤ width := by
  unfold bitsFor
  split
  · exact Nat.zero_le _
  · next hmany =>
    have hlast : (groups - 1).log2 < width := by
      rw [Nat.log2_lt (by omega)]
      rw [bitRange_eq_two_pow] at h
      omega
    exact hlast

/-! ### Packing -/

section Packing

variable {groupBits group handle : Nat}

/-- A handle that fits stands below the group and does not reach into it. -/
theorem packIdentifier_eq_add (hbits : groupBits ≤ 16) (hgroup : group < bitRange groupBits)
    (hhandle : handle < bitRange (16 - groupBits)) :
    packIdentifier groupBits group handle = group * bitRange (16 - groupBits) + handle := by
  unfold packIdentifier
  split
  · next hzero =>
    subst hzero
    obtain rfl : group = 0 := Nat.lt_one_iff.1 hgroup
    rw [Nat.zero_mul, Nat.zero_add]
  · have hshift : group <<< (16 - groupBits) = group * bitRange (16 - groupBits) := by
      rw [bitRange_eq_two_pow, Nat.shiftLeft_eq]
    have hnarrow : group <<< (16 - groupBits) < bitRange 16 := by
      calc group <<< (16 - groupBits)
        _ = group * bitRange (16 - groupBits) := hshift
        _ < bitRange groupBits * bitRange (16 - groupBits) :=
            Nat.mul_lt_mul_of_pos_right hgroup (bitRange_pos _)
        _ = bitRange 16 := by rw [← bitRange_add, Nat.add_sub_cancel' hbits]
    rw [lowBits, Nat.mod_eq_of_lt hnarrow, ← Nat.shiftLeft_add_eq_or_of_lt, hshift]
    rwa [bitRange_eq_two_pow] at hhandle

/-- Unpacking gives back the group and the handle of an identifier. -/
theorem placementOf_add {c : Configuration}
    (hgroup : group < bitRange c.groupBits) (hhandle : handle < bitRange (16 - c.groupBits)) :
    c.placementOf (group * bitRange (16 - c.groupBits) + handle) = ⟨group, handle⟩ := by
  unfold placementOf
  split
  · next hzero =>
    rw [hzero] at hgroup
    obtain rfl : group = 0 := Nat.lt_one_iff.1 hgroup
    rw [Nat.zero_mul, Nat.zero_add]
  · have hhigh : (group * bitRange (16 - c.groupBits) + handle) >>> (16 - c.groupBits) = group := by
      rw [Nat.shiftRight_eq_div_pow, ← Nat.one_shiftLeft, ← bitRange,
        Nat.mul_comm, Nat.mul_add_div (bitRange_pos _), Nat.div_eq_of_lt hhandle, Nat.add_zero]
    have hlow : lowBits (16 - c.groupBits) (group * bitRange (16 - c.groupBits) + handle) =
        handle := by
      rw [lowBits, Nat.mul_comm, Nat.mul_add_mod, Nat.mod_eq_of_lt hhandle]
    simp only [hhigh, hlow]

/-- What a configuration reads out of the identifier of a group and a handle. Bits of the group
beyond its width are lost, and bits of the handle beyond its own reach into the group. -/
def reading (c : Configuration) (group handle : Nat) : Placement where
  group := group % bitRange c.groupBits ||| handle / bitRange (16 - c.groupBits)
  handle := handle % bitRange (16 - c.groupBits)

theorem placementOf_packIdentifier {c : Configuration} (hbits : c.groupBits ≤ 16)
    (hhandle : handle < bitRange 16) :
    c.placementOf (lowBits 16 (packIdentifier c.groupBits group handle)) =
      c.reading group handle := by
  have hwidth : bitRange c.groupBits * bitRange (16 - c.groupBits) = bitRange 16 := by
    rw [← bitRange_add, Nat.add_sub_cancel' hbits]
  unfold placementOf packIdentifier reading
  split
  · next hzero =>
    have hgroup : group % bitRange c.groupBits = 0 := by simp [hzero, bitRange, Nat.mod_one]
    rw [lowBits, Nat.mod_eq_of_lt hhandle, hgroup, hzero, Nat.div_eq_of_lt hhandle,
      Nat.mod_eq_of_lt hhandle]
    rfl
  · have hgroup : lowBits 16 (group <<< (16 - c.groupBits)) =
        group % bitRange c.groupBits * 2 ^ (16 - c.groupBits) := by
      rw [lowBits, ← hwidth, Nat.shiftLeft_eq, bitRange_eq_two_pow (16 - c.groupBits),
        Nat.mul_mod_mul_right]
    have hpacked : lowBits 16 (group <<< (16 - c.groupBits)) ||| handle < 2 ^ 16 := by
      rw [bitRange_eq_two_pow] at hhandle
      refine Nat.or_lt_two_pow ?_ hhandle
      rw [lowBits, bitRange_eq_two_pow]
      exact Nat.mod_lt _ (Nat.two_pow_pos 16)
    rw [lowBits, bitRange_eq_two_pow 16, Nat.mod_eq_of_lt hpacked, hgroup]
    simp only [lowBits, bitRange_eq_two_pow, Nat.shiftRight_eq_div_pow, Nat.or_div_two_pow,
      Nat.or_mod_two_pow, Nat.mul_div_cancel _ (Nat.two_pow_pos _), Nat.mul_mod_left, Nat.zero_or]

/-- A group and a handle are read back if and only if each of them fits. -/
theorem reading_eq_iff {c : Configuration} :
    c.reading group handle = ⟨group, handle⟩ ↔
      group < bitRange c.groupBits ∧ handle < bitRange (16 - c.groupBits) := by
  rw [reading, Placement.mk.injEq]
  constructor
  · rintro ⟨hgroup, hhandle⟩
    have hfits : handle < bitRange (16 - c.groupBits) :=
      hhandle ▸ Nat.mod_lt handle (bitRange_pos _)
    rw [Nat.div_eq_of_lt hfits, Nat.or_zero] at hgroup
    exact ⟨hgroup ▸ Nat.mod_lt group (bitRange_pos _), hfits⟩
  · rintro ⟨hgroup, hhandle⟩
    rw [Nat.div_eq_of_lt hhandle, Nat.or_zero]
    exact ⟨Nat.mod_eq_of_lt hgroup, Nat.mod_eq_of_lt hhandle⟩

end Packing

/-! ### Routing back -/

variable {c : Configuration} {u v : UnitId} {unit other : ReclaimUnit}

/-- Every handle fits into the bits of an identifier that the group leaves. -/
def HandlesFit (c : Configuration) : Prop := c.handles ≤ bitRange (16 - c.groupBits)

instance : Decidable c.HandlesFit := inferInstanceAs (Decidable (_ ≤ _))

/-- The identifier of every unit leads to that unit. -/
def RoutesBack (c : Configuration) : Prop :=
  ∀ u unit, c.unit? u = some unit → c.resolve (c.placementOf (c.identifierOf unit)) = .ok unit.id

/-- The placement identifiers that are reported, in unit order. -/
def identifiers (c : Configuration) : List Nat := c.units.toList.map c.identifierOf

namespace Shaped

theorem groupBits_le (h : c.Shaped) : c.groupBits ≤ 16 := by
  have hgroups : c.groups ≤ bitRange 16 :=
    Nat.le_trans (Nat.le_mul_of_pos_right _ h.handles) (Nat.le_of_lt h.count)
  exact h.groupBits ▸ bitsFor_le hgroups

theorem lt_bitRange_groupBits (h : c.Shaped) {group : Nat} (hgroup : group < c.groups) :
    group < bitRange c.groupBits :=
  h.groupBits ▸ Nat.lt_of_lt_of_le hgroup (groups_le_bitRange c.groups)

/-- Whatever the number of groups, the first group that does not fit is read as the first group that
there is. -/
theorem resolve_reading_of_wide_group (h : c.Shaped) :
    c.resolve ⟨bitRange c.groupBits, 0⟩ = .error (.invalidGroup (bitRange c.groupBits)) ∧
      c.resolve (c.reading (bitRange c.groupBits) 0) = .ok 0 := by
  have hbeyond : c.groups ≤ bitRange c.groupBits := h.groupBits ▸ groups_le_bitRange c.groups
  have hread : c.reading (bitRange c.groupBits) 0 = ⟨0, 0⟩ := by
    simp [reading]
  constructor
  · rw [Configuration.resolve, if_pos hbeyond]
  · rw [hread, h.resolve h.groups h.handles, Nat.zero_mul]

theorem placementOf_identifierOf (h : c.Shaped) (hunit : c.unit? u = some unit)
    (hfits : unit.handle < bitRange (16 - c.groupBits)) :
    c.placementOf (c.identifierOf unit) = ⟨unit.group, unit.handle⟩ := by
  have hgroup := h.lt_bitRange_groupBits (h.lt_of_unit hunit).1
  rw [identifierOf, packIdentifier_eq_add h.groupBits_le hgroup hfits,
    placementOf_add hgroup hfits]

theorem routesBack_of_handlesFit (h : c.Shaped) (hfits : c.HandlesFit) : c.RoutesBack := by
  intro u unit hunit
  have hhandle := Nat.lt_of_lt_of_le (h.lt_of_unit hunit).2 hfits
  rw [h.placementOf_identifierOf hunit hhandle, h.resolve_of_unit hunit,
    (h.numbered u unit hunit).1]

/-- If handles do not fit, some unit of the first group has the identifier of the first unit of
the second group. -/
theorem exists_shared_identifier (h : c.Shaped) (hwide : ¬ c.HandlesFit) :
    ∃ unit other, c.unit? (bitRange (16 - c.groupBits)) = some unit ∧
      c.unit? c.handles = some other ∧ bitRange (16 - c.groupBits) < c.handles ∧
      c.identifierOf unit = c.identifierOf other ∧
      c.resolve (c.placementOf (c.identifierOf other)) = .ok c.handles := by
  have hlong : bitRange (16 - c.groupBits) < c.handles := Nat.lt_of_not_le hwide
  have hsecond : 1 < c.groups := by
    by_contra hsingle
    have hbits : c.groupBits = 0 := by
      rw [h.groupBits, bitsFor, if_pos (Nat.le_of_not_lt hsingle)]
    rw [hbits] at hlong
    exact absurd (Nat.lt_of_lt_of_le hlong h.table) (by decide)
  have hbits : c.groupBits ≠ 0 := by
    intro hzero
    rw [hzero] at hlong
    exact absurd (Nat.lt_of_lt_of_le hlong h.table) (by decide)
  obtain ⟨unit, hunit, hgroup, hhandle⟩ := h.exists_unit h.groups hlong
  obtain ⟨other, hother, hgroup', hhandle'⟩ := h.exists_unit hsecond h.handles
  rw [Nat.zero_mul, Nat.zero_add] at hunit
  rw [Nat.one_mul, Nat.add_zero] at hother
  have hfits : other.handle < bitRange (16 - c.groupBits) := hhandle' ▸ bitRange_pos _
  have hplain : c.identifierOf unit = bitRange (16 - c.groupBits) := by
    simp [identifierOf, packIdentifier, hbits, hgroup, hhandle, lowBits]
  have hpacked : c.identifierOf other = bitRange (16 - c.groupBits) := by
    have hrange := h.lt_bitRange_groupBits (h.lt_of_unit hother).1
    rw [identifierOf, packIdentifier_eq_add h.groupBits_le hrange hfits, hgroup', hhandle',
      Nat.one_mul, Nat.add_zero]
  refine ⟨unit, other, hunit, hother, hlong, hplain.trans hpacked.symm, ?_⟩
  rw [h.placementOf_identifierOf hother hfits, h.resolve_of_unit hother]

theorem routesBack_iff (h : c.Shaped) : c.RoutesBack ↔ c.HandlesFit := by
  refine ⟨fun hback => ?_, h.routesBack_of_handlesFit⟩
  by_contra hwide
  obtain ⟨unit, other, hunit, -, hlong, hshared, hroute⟩ := h.exists_shared_identifier hwide
  have hown := hback _ unit hunit
  rw [hshared, hroute, (h.numbered _ unit hunit).1] at hown
  exact absurd (Except.ok.inj hown) (Nat.ne_of_gt hlong)

/-- The reported identifiers are distinct if and only if they lead back to their units. -/
theorem nodup_identifiers_iff (h : c.Shaped) : c.identifiers.Nodup ↔ c.HandlesFit := by
  have hlisted : ∀ u, c.identifiers[u]? = (c.unit? u).map c.identifierOf := by
    intro u
    simp [identifiers, unit?]
  have hlength : c.identifiers.length = c.units.size := by simp [identifiers]
  rw [List.nodup_iff_getElem?_ne_getElem?]
  constructor
  · intro hdistinct
    by_contra hwide
    obtain ⟨unit, other, hunit, hother, hlong, hshared, -⟩ := h.exists_shared_identifier hwide
    have hbound : c.handles < c.identifiers.length := by
      rw [hlength]
      exact (Array.getElem?_eq_some_iff.1 hother).1
    apply hdistinct _ _ hlong hbound
    rw [hlisted, hlisted, hunit, hother, Option.map_some, Option.map_some, hshared]
  · intro hfits u v huv hv heq
    rw [hlength] at hv
    have hunit : c.unit? u = some c.units[u] := Array.getElem?_eq_getElem (Nat.lt_trans huv hv)
    have hother : c.unit? v = some c.units[v] := Array.getElem?_eq_getElem hv
    have hroute := h.routesBack_of_handlesFit hfits u _ hunit
    have hroute' := h.routesBack_of_handlesFit hfits v _ hother
    rw [hlisted, hlisted, hunit, hother, Option.map_some, Option.map_some,
      Option.some.injEq] at heq
    rw [heq, hroute', (h.numbered u _ hunit).1, (h.numbered v _ hother).1] at hroute
    exact absurd (Except.ok.inj hroute) (Nat.ne_of_gt huv)

end Shaped

end DataPlacement.Configuration
