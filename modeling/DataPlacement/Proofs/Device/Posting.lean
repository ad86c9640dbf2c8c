import DataPlacement.Proofs.Device.Journal
import DataPlacement.Proofs.Device.Periods
import Mathlib.Data.List.DropRight

namespace DataPlacement

namespace Entry

/-- The bytes of an accepted write. -/
def bytes? : Entry → Option Nat
  | .wrote _ bytes => some bytes
  | _ => none

/-- The unit of an accepted write that went to a unit. -/
def unit? : Entry → Option UnitId
  | .wrote unit _ => unit
  | _ => none

/-- The bytes of an accepted write to a unit, any one. -/
def routedBytes? : Entry → Option Nat
  | .wrote (some _) bytes => some bytes
  | _ => none

/-- The bytes of an accepted write to the plain path. -/
def plainBytes? : Entry → Option Nat
  | .wrote none bytes => some bytes
  | _ => none

/-- The bytes of an accepted write to this unit. -/
def bytesTo? (u : UnitId) : Entry → Option Nat
  | .wrote (some v) bytes => if v = u then some bytes else none
  | _ => none

end Entry

namespace Journal

variable {j : List Entry} {x mark : Entry}

/-- The entries after the last one of a kind, or all of them. -/
def since (mark : Entry) (j : List Entry) : List Entry := j.rtakeWhile (· ≠ mark)

theorem since_mark (mark : Entry) (j : List Entry) : since mark (j ++ [mark]) = [] :=
  List.rtakeWhile_concat_neg _ _ _ (by simp)

theorem since_other (h : x ≠ mark) (j : List Entry) : since mark (j ++ [x]) = since mark j ++ [x] :=
  List.rtakeWhile_concat_pos _ _ _ (by simpa using h)

/-- The unit of the last write to a unit in the period that is running. -/
def lastUnit? (j : List Entry) : Option UnitId :=
  ((since .switchedOn j).filterMap Entry.unit?).getLast?

/-- The entry is a write to a unit, and the write to a unit before it in the same period went to
another one. -/
def leaves (j : List Entry) (x : Entry) : Bool :=
  match x.unit?, lastUnit? j with
  | some u, some last => last ≠ u
  | _, _ => false

/-- How many writes went to another unit than the write to a unit before them. -/
def switches (j : List Entry) : Nat :=
  (List.range j.length).countP fun i => j[i]?.any (leaves (j.take i))

theorem switches_concat (j : List Entry) (x : Entry) :
    switches (j ++ [x]) = switches j + if leaves j x then 1 else 0 := by
  have hbefore : (List.range j.length).countP
      (fun i => (j ++ [x])[i]?.any (leaves ((j ++ [x]).take i))) = switches j := by
    apply List.countP_congr
    intro i hi
    rw [List.mem_range] at hi
    rw [List.getElem?_append_left hi, List.take_append_of_le_length (Nat.le_of_lt hi)]
  rw [switches, List.length_append, List.length_singleton, List.range_succ, List.countP_append,
    hbefore]
  simp

theorem lastUnit?_concat_of_routed (j : List Entry) (u : UnitId) (bytes : Nat) :
    lastUnit? (j ++ [.wrote (some u) bytes]) = some u := by
  rw [lastUnit?, since_other (by simp)]
  simp [Entry.unit?]

theorem lastUnit?_concat_of_other (hmark : x ≠ .switchedOn) (hunit : x.unit? = none) :
    lastUnit? (j ++ [x]) = lastUnit? j := by
  rw [lastUnit?, since_other hmark]
  simp [hunit, lastUnit?]

end Journal

open Journal

/-! ### Books -/

/-- The meter counts the writes with these lengths and their bytes, in 64 bits. -/
structure Meter.Counts (m : Meter) (lengths : List Nat) : Prop where
  hostBytes : m.hostBytes = lowBits 64 lengths.sum
  mediaBytes : m.mediaBytes = lowBits 64 lengths.sum
  writes : m.writes = lowBits 64 lengths.length

theorem Meter.Counts.post {m : Meter} {lengths : List Nat} (h : m.Counts lengths)
    (bytes retired page : Nat) : (m.post bytes retired page).Counts (lengths ++ [bytes]) where
  hostBytes := by simp [Meter.post, h.hostBytes, advance_lowBits]
  mediaBytes := by simp [Meter.post, h.mediaBytes, advance_lowBits]
  writes := by simp [Meter.post, h.writes, advance_lowBits]

/-- The entries that count for the units: those of the period that is running, if there is one. -/
def Journal.period (on : Bool) (j : List Entry) : List Entry :=
  if on then since .switchedOn j else []

/-- An entry that neither begins a period nor writes to the unit tells it nothing. -/
theorem Journal.filterMap_period_concat {on : Bool} {j : List Entry} {x : Entry} {u : UnitId}
    (hmark : x ≠ .switchedOn) (hto : x.bytesTo? u = none) :
    (period on (j ++ [x])).filterMap (Entry.bytesTo? u) =
      (period on j).filterMap (Entry.bytesTo? u) := by
  cases on with
  | false => rfl
  | true =>
    change (since .switchedOn (j ++ [x])).filterMap _ = (since .switchedOn j).filterMap _
    rw [since_other hmark]
    simp [hto]

/-- The books hold what the journal tells in 64 bits, with placement on or off at its end. -/
structure Books.Tells (b : Books) (on : Bool) (j : List Entry) : Prop where
  meters : ∀ (u : UnitId) (m : Meter), b.meters[u]? = some m →
    m.Counts ((period on j).filterMap (Entry.bytesTo? u))
  hostBytes : b.totals.hostBytes = lowBits 64 (j.filterMap Entry.routedBytes?).sum
  mediaBytes : b.totals.mediaBytes = lowBits 64 (j.filterMap Entry.routedBytes?).sum
  writes : b.totals.writes = lowBits 64 (j.filterMap Entry.routedBytes?).length
  switches : b.totals.unitSwitches = lowBits 64 (switches j)
  lastUnit : b.lastUnit = if on then lastUnit? j else none
  plainBytes : b.plainBytes = lowBits 64 (j.filterMap Entry.plainBytes?).sum
  plainWrites : b.plainWrites = lowBits 64 (j.filterMap Entry.plainBytes?).length

namespace Books.Tells

variable {b : Books} {on : Bool} {j : List Entry}

theorem leaves_eq (h : b.Tells true j) (u : UnitId) (bytes : Nat) :
    b.leaves u = Journal.leaves j (.wrote (some u) bytes) := by
  rw [Books.leaves, h.lastUnit]
  simp only [Journal.leaves, Entry.unit?, if_true]
  cases lastUnit? j <;> rfl

/-- A write to a unit is told by its entry. -/
theorem post (h : b.Tells true j) (u : UnitId) (bytes retired page : Nat) :
    (b.post u bytes retired page).Tells true (j ++ [.wrote (some u) bytes]) where
  meters v m hm := by
    have hperiod : period true (j ++ [.wrote (some u) bytes]) =
        period true j ++ [.wrote (some u) bytes] := since_other (by simp) j
    rw [Books.post, List.getElem?_modify] at hm
    obtain ⟨before, hbefore, rfl⟩ := Option.map_eq_some_iff.1 hm
    have hcounts := h.meters v before hbefore
    rw [hperiod, List.filterMap_append]
    by_cases huv : u = v
    · subst huv
      simpa [Entry.bytesTo?] using hcounts.post bytes retired page
    · simpa [Entry.bytesTo?, huv] using hcounts
  hostBytes := by simp [Books.post, h.hostBytes, Entry.routedBytes?, advance_lowBits]
  mediaBytes := by simp [Books.post, h.mediaBytes, Entry.routedBytes?, advance_lowBits]
  writes := by simp [Books.post, h.writes, Entry.routedBytes?, advance_lowBits]
  switches := by
    dsimp only [Books.post]
    rw [switches_concat, h.switches, h.leaves_eq u bytes, advance_lowBits]
  lastUnit := (lastUnit?_concat_of_routed j u bytes).symm
  plainBytes := by simp [Books.post, h.plainBytes, Entry.plainBytes?, List.filterMap_cons]
  plainWrites := by simp [Books.post, h.plainWrites, Entry.plainBytes?, List.filterMap_cons]

/-- An entry that concerns no unit changes nothing for the units. -/
theorem concat (h : b.Tells on j) {x : Entry} (hmark : x ≠ .switchedOn) (hunit : x.unit? = none)
    (hrouted : x.routedBytes? = none) (hto : ∀ u, x.bytesTo? u = none) {bytes writes : Nat}
    (hbytes : bytes = lowBits 64 ((j ++ [x]).filterMap Entry.plainBytes?).sum)
    (hwrites : writes = lowBits 64 ((j ++ [x]).filterMap Entry.plainBytes?).length) :
    Books.Tells { b with plainBytes := bytes, plainWrites := writes } on (j ++ [x]) where
  meters u m hm := by
    rw [filterMap_period_concat hmark (hto u)]
    exact h.meters u m hm
  hostBytes := by simp [h.hostBytes, hrouted]
  mediaBytes := by simp [h.mediaBytes, hrouted]
  writes := by simp [h.writes, hrouted]
  switches := by simp [switches_concat, h.switches, Journal.leaves, hunit]
  lastUnit := by rw [lastUnit?_concat_of_other hmark hunit, h.lastUnit]
  plainBytes := hbytes
  plainWrites := hwrites

theorem quiet (h : b.Tells on j) {x : Entry} (hx : x.isQuiet) : b.Tells on (j ++ [x]) := by
  have hbytes : b.plainBytes = lowBits 64 ((j ++ [x]).filterMap Entry.plainBytes?).sum := by
    cases x <;> simp_all [Entry.isQuiet, Entry.plainBytes?, List.filterMap_cons, h.plainBytes]
  have hwrites : b.plainWrites = lowBits 64 ((j ++ [x]).filterMap Entry.plainBytes?).length := by
    cases x <;> simp_all [Entry.isQuiet, Entry.plainBytes?, List.filterMap_cons, h.plainWrites]
  cases x with
  | wrote | switchedOn | switchedOff => cases hx
  | refused | read | accountingReset =>
    exact h.concat (by simp) rfl rfl (fun _ => rfl) hbytes hwrites

theorem postPlain (h : b.Tells on j) (bytes : Nat) :
    (b.postPlain bytes).Tells on (j ++ [.wrote none bytes]) :=
  h.concat (by simp) rfl rfl (fun _ => rfl)
    (by simp [Entry.plainBytes?, h.plainBytes, advance_lowBits])
    (by simp [Entry.plainBytes?, h.plainWrites, advance_lowBits])

/-- Turning placement on begins a period without writes. -/
theorem switchOn (h : b.Tells false j) : b.Tells true (j ++ [.switchedOn]) where
  meters u m hm := by
    have hempty : period true (j ++ [.switchedOn]) = [] := since_mark .switchedOn j
    rw [hempty]
    exact h.meters u m hm
  hostBytes := by simp [h.hostBytes, Entry.routedBytes?, List.filterMap_cons]
  mediaBytes := by simp [h.mediaBytes, Entry.routedBytes?, List.filterMap_cons]
  writes := by simp [h.writes, Entry.routedBytes?, List.filterMap_cons]
  switches := by simp [switches_concat, h.switches, Journal.leaves, Entry.unit?]
  lastUnit := by
    have hnone : b.lastUnit = none := h.lastUnit
    rw [hnone, if_pos rfl, lastUnit?, since_mark]
    rfl
  plainBytes := by simp [h.plainBytes, Entry.plainBytes?, List.filterMap_cons]
  plainWrites := by simp [h.plainWrites, Entry.plainBytes?, List.filterMap_cons]

/-- Turning placement off clears what belongs to the period. -/
theorem switchOff (h : b.Tells true j) : b.clear.Tells false (j ++ [.switchedOff]) where
  meters u m hm := by
    rw [Books.clear, List.getElem?_map] at hm
    obtain ⟨before, -, rfl⟩ := Option.map_eq_some_iff.1 hm
    exact ⟨rfl, rfl, rfl⟩
  hostBytes := by simp [Books.clear, h.hostBytes, Entry.routedBytes?, List.filterMap_cons]
  mediaBytes := by simp [Books.clear, h.mediaBytes, Entry.routedBytes?, List.filterMap_cons]
  writes := by simp [Books.clear, h.writes, Entry.routedBytes?, List.filterMap_cons]
  switches := by simp [Books.clear, switches_concat, h.switches, Journal.leaves, Entry.unit?]
  lastUnit := rfl
  plainBytes := by simp [Books.clear, h.plainBytes, Entry.plainBytes?, List.filterMap_cons]
  plainWrites := by simp [Books.clear, h.plainWrites, Entry.plainBytes?, List.filterMap_cons]

end Books.Tells

/-! ### Runs -/

namespace Device

variable {μ : Type} [Host.Memory μ] {d d' fresh : Device} {j : List Entry}

end Device

end DataPlacement
