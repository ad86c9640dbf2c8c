import DataPlacement.Proofs.Device.Posting
import Mathlib.Algebra.BigOperators.Group.Finset.Piecewise
import Mathlib.Algebra.Order.BigOperators.Group.List

namespace DataPlacement

open Journal

variable {pageSize pagesPerLine : Nat}

/-- The meter stands behind so many bytes, for lines of `pagesPerLine` pages of `pageSize` bytes.
Its page tells how far it is in the last line; of the lines before, it knows the number in 32 bits.
-/
def Meter.StandsBehind (m : Meter) (pageSize pagesPerLine bytes : Nat) : Prop :=
  ∃ lines, m.linesConsumed = lowBits 32 lines ∧ (lines * pagesPerLine + m.page) * pageSize = bytes

theorem Meter.StandsBehind.post {m : Meter} {total : Nat}
    (h : m.StandsBehind pageSize pagesPerLine total) {bytes retired page : Nat}
    (hwhole : bytes % pageSize = 0)
    (hpages : retired * pagesPerLine + page = m.page + bytes / pageSize) :
    (m.post bytes retired page).StandsBehind pageSize pagesPerLine (total + bytes) := by
  obtain ⟨lines, hlines, htotal⟩ := h
  have hbytes : bytes / pageSize * pageSize = bytes :=
    Nat.div_mul_cancel (Nat.dvd_of_mod_eq_zero hwhole)
  refine ⟨lines + retired, by rw [Meter.post, hlines, advance_lowBits], ?_⟩
  calc ((lines + retired) * pagesPerLine + page) * pageSize
    _ = (lines * pagesPerLine + (retired * pagesPerLine + page)) * pageSize := by
        rw [Nat.add_mul lines, Nat.add_assoc]
    _ = (lines * pagesPerLine + m.page + bytes / pageSize) * pageSize := by
        rw [hpages, Nat.add_assoc]
    _ = total + bytes := by rw [Nat.add_mul, htotal, hbytes]

/-- Every meter stands behind the bytes that the journal tells for its unit, and the journal tells
of units that have a meter. -/
structure Books.Metered (b : Books) (pageSize pagesPerLine : Nat) (on : Bool) (j : List Entry) :
    Prop where
  meters : ∀ (u : UnitId) (m : Meter), b.meters[u]? = some m →
    m.StandsBehind pageSize pagesPerLine ((period on j).filterMap (Entry.bytesTo? u)).sum
  units : ∀ u ∈ j.filterMap Entry.unit?, u < b.meters.length

namespace Books.Metered

variable {b : Books} {on : Bool} {j : List Entry}

theorem post (h : b.Metered pageSize pagesPerLine true j) {u : UnitId} {m : Meter}
    (hm : b.meters[u]? = some m) {bytes retired page : Nat} (hwhole : bytes % pageSize = 0)
    (hpages : retired * pagesPerLine + page = m.page + bytes / pageSize) :
    (b.post u bytes retired page).Metered pageSize pagesPerLine true
      (j ++ [.wrote (some u) bytes]) where
  meters v after hafter := by
    have hperiod : period true (j ++ [.wrote (some u) bytes]) =
        period true j ++ [.wrote (some u) bytes] := since_other (by simp) j
    rw [Books.post, List.getElem?_modify] at hafter
    obtain ⟨before, hbefore, rfl⟩ := Option.map_eq_some_iff.1 hafter
    have hstands := h.meters v before hbefore
    rw [hperiod, List.filterMap_append]
    by_cases huv : u = v
    · subst huv
      obtain rfl : m = before := Option.some.inj (hm.symm.trans hbefore)
      simpa [Entry.bytesTo?] using hstands.post hwhole hpages
    · simpa [Entry.bytesTo?, huv] using hstands
  units v hv := by
    have hu : u < b.meters.length := (List.getElem?_eq_some_iff.1 hm).1
    have hsize : (b.post u bytes retired page).meters.length = b.meters.length :=
      List.length_modify _ _ _
    rw [List.filterMap_append, List.mem_append] at hv
    rw [hsize]
    rcases hv with hv | hv
    · exact h.units v hv
    · obtain rfl : v = u := by simpa [Entry.unit?] using hv
      exact hu

/-- An entry that concerns no unit leaves the meters where they are. -/
theorem concat (h : b.Metered pageSize pagesPerLine on j) {x : Entry} (hmark : x ≠ .switchedOn)
    (hunit : x.unit? = none) (hto : ∀ u, x.bytesTo? u = none) :
    b.Metered pageSize pagesPerLine on (j ++ [x]) where
  meters u m hm := by
    rw [filterMap_period_concat hmark (hto u)]
    exact h.meters u m hm
  units u hu := by
    rw [List.filterMap_append, List.filterMap_cons_none hunit, List.filterMap_nil,
      List.append_nil] at hu
    exact h.units u hu

theorem quiet (h : b.Metered pageSize pagesPerLine on j) {x : Entry} (hx : x.isQuiet) :
    b.Metered pageSize pagesPerLine on (j ++ [x]) := by
  cases x with
  | wrote | switchedOn | switchedOff => cases hx
  | refused | read | accountingReset => exact h.concat (by simp) rfl fun _ => rfl

theorem postPlain (h : b.Metered pageSize pagesPerLine on j) (bytes : Nat) :
    (b.postPlain bytes).Metered pageSize pagesPerLine on (j ++ [.wrote none bytes]) :=
  have hsame : b.Metered pageSize pagesPerLine on (j ++ [.wrote none bytes]) :=
    h.concat (by simp) rfl fun _ => rfl
  ⟨hsame.meters, hsame.units⟩

theorem switchOn (h : b.Metered pageSize pagesPerLine false j) :
    b.Metered pageSize pagesPerLine true (j ++ [.switchedOn]) where
  meters u m hm := by
    have hempty : period true (j ++ [.switchedOn]) = [] := since_mark .switchedOn j
    rw [hempty]
    exact h.meters u m hm
  units u hu := h.units u (by simpa [Entry.unit?] using hu)

theorem switchOff (h : b.Metered pageSize pagesPerLine true j) :
    b.clear.Metered pageSize pagesPerLine false (j ++ [.switchedOff]) where
  meters u m hm := by
    rw [Books.clear, List.getElem?_map] at hm
    obtain ⟨before, -, rfl⟩ := Option.map_eq_some_iff.1 hm
    exact ⟨0, rfl, by simp [period]⟩
  units u hu := by
    simpa [Books.clear] using h.units u (by simpa [Entry.unit?] using hu)

end Books.Metered

namespace Device

variable {μ : Type} {d d' fresh : Device}

/-- A write that is called for directly has a block count of 16 bits, as those from dwords have. -/
def Request.Sized (r : Request μ) : Prop := ∀ w, r = .write w → w.blocks < bitRange 16

theorem blocks_ofDwords (block dword12 dword13 : Nat) :
    (WriteCommand.ofDwords block dword12 dword13).blocks < bitRange 16 :=
  Nat.mod_lt _ (by decide)

theorem ofToggle_ne_write (t : Toggle) (w : WriteCommand) : Action.ofToggle t ≠ .write w := by
  cases t <;> simp [Action.ofToggle]

theorem ofCode_ne_write (code : Nat) (w : WriteCommand) : Action.ofCode code ≠ .write w := by
  unfold Action.ofCode
  split
  · simp
  · exact ofToggle_ne_write _ w

theorem Request.Sized.blocks {r : Request μ} (hr : r.Sized) {w : WriteCommand}
    (hw : r.action = .write w) : w.blocks < bitRange 16 := by
  cases r with
  | toggle code => exact absurd hw (ofCode_ne_write code w)
  | apply t => exact absurd hw (ofToggle_ne_write t w)
  | write w' =>
    obtain rfl : w' = w := Action.write.inj hw
    exact hr w' rfl
  | submitWrite block dword12 dword13 =>
    obtain rfl : _ = w := Action.write.inj hw
    exact blocks_ofDwords _ _ _
  | submitAdministrative memory opcode dword10 dword11 =>
    simp only [action] at hw
    split at hw
    · exact absurd hw (ofCode_ne_write dword10 w)
    · cases hw
  | submitIo memory opcode dword10 dword11 dword12 dword13 =>
    simp only [action] at hw
    split at hw
    · obtain rfl : _ = w := Action.write.inj hw
      exact blocks_ofDwords _ _ _
    · cases hw
    · cases hw
  | enable | disable | read | gc | reclaimUnit | install => cases hw

/-- A write takes at most one page per block, since blocks are no larger than pages. -/
theorem pages_le_blocks (hd : d.Sound) (w : WriteCommand) :
    w.bytes d.geometry.blockSize / d.geometry.pageSize ≤ w.blocks + 1 := by
  obtain ⟨hpage, -, hblock⟩ := Geometry.pos_of_validate hd.geometry
  have hfits : d.geometry.blockSize ≤ d.geometry.pageSize :=
    Nat.le_of_dvd hpage (Geometry.dvd_of_validate hd.geometry)
  calc w.bytes d.geometry.blockSize / d.geometry.pageSize
    _ ≤ (w.blocks + 1) * d.geometry.pageSize / d.geometry.pageSize :=
        Nat.div_le_div_right (Nat.mul_le_mul_left _ hfits)
    _ = w.blocks + 1 := Nat.mul_div_cancel _ hpage

/-- The pages of such a write are counted exactly. -/
theorem pageCounter_of_blocks (hd : d.Sound) {w : WriteCommand} (hblocks : w.blocks < bitRange 16) :
    pageCounter (w.bytes d.geometry.blockSize / d.geometry.pageSize) =
      w.bytes d.geometry.blockSize / d.geometry.pageSize := by
  have hrange : w.blocks + 1 < bitRange 32 := Nat.lt_of_le_of_lt hblocks (by decide)
  exact Nat.mod_eq_of_lt (Nat.lt_of_le_of_lt (pages_le_blocks hd w) hrange)

/-- The books of the device are metered for its geometry, by the journal so far. -/
def Metered (d : Device) (j : List Entry) : Prop :=
  d.books.Metered d.geometry.pageSize d.geometry.pagesPerLine d.enabled j

/-- The counters of a device have run over, so that they do not agree with each other any more. -/
inductive Overrun (d : Device) (j : List Entry) : Prop where
  /-- A unit filled up more lines in this period than 32 bits count, and the bytes in those that
  went uncounted do not vanish in 64 bits. -/
  | lines {u : UnitId} (hu : u < d.configuration.units.size)
      (h : let bytes := ((period d.enabled j).filterMap (Entry.bytesTo? u)).sum
        ¬ bitRange 32 ∣ bytes / d.geometry.lineBytes / bitRange 32 * d.geometry.lineBytes)
  /-- In 64 bits, all that was ever written to units is less than what was in this period. -/
  | bytes (h : lowBits 64 (j.filterMap Entry.routedBytes?).sum <
      lowBits 64 ((period d.enabled j).filterMap Entry.routedBytes?).sum)

/-- Every entry keeps the books metered, provided that the pages of a write were counted exactly. -/
theorem Posting.metered {entry : Option Entry} {j : List Entry} (h : Posting d entry d')
    (hgeometry : d'.geometry = d.geometry) (hd : d.Metered j)
    (hcounted : ∀ o bytes, entry = some (.wrote o bytes) →
      pageCounter (bytes / d.geometry.pageSize) = bytes / d.geometry.pageSize) :
    d'.Metered (j ++ entry.toList) := by
  unfold Metered at hd ⊢
  rw [hgeometry]
  cases h with
  | quiet hentry hbooks hswitch =>
    rw [hbooks, hswitch]
    cases entry with
    | none => simpa using hd
    | some x => exact hd.quiet (hentry x rfl)
  | routed u m bytes retired page hmeter hwhole hpages hbooks hon hswitch =>
    rw [hcounted _ bytes rfl] at hpages
    rw [hbooks, hswitch]
    rw [hon] at hd ⊢
    exact hd.post hmeter hwhole hpages
  | plain bytes hbooks hswitch =>
    rw [hbooks, hswitch]
    exact hd.postPlain bytes
  | on hbooks hoff hon =>
    rw [hoff] at hd
    rw [hbooks, hon]
    exact hd.switchOn
  | off hbooks hon hoff =>
    rw [hon] at hd
    rw [hbooks, hoff]
    exact hd.switchOff

end Device

end DataPlacement
