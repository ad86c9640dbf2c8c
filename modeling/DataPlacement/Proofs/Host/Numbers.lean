import DataPlacement.Proofs.Host.Backends
import DataPlacement.Proofs.Host.Reading
import Mathlib.Order.CompletePartialOrder
import Mathlib.Order.Interval.Set.Disjoint

namespace DataPlacement.Host

/-! ### Bytes of a number -/

theorem drop_littleEndian (width k n : Nat) :
    (littleEndian width n).drop k = littleEndian (width - k) (n / 256 ^ k) := by
  induction k generalizing width n with
  | zero => rw [List.drop_zero, Nat.sub_zero, Nat.pow_zero, Nat.div_one]
  | succ k ih =>
    cases width with
    | zero => rw [Nat.zero_sub, littleEndian, littleEndian, List.drop_nil]
    | succ width =>
      rw [littleEndian, List.drop_succ_cons, ih, Nat.div_div_eq_div_mul, ← Nat.pow_succ',
        Nat.succ_sub_succ]

theorem take_littleEndian {width count : Nat} (h : count ≤ width) (n : Nat) :
    (littleEndian width n).take count = littleEndian count n := by
  induction count generalizing width n with
  | zero => rfl
  | succ count ih =>
    cases width with
    | zero => omega
    | succ width =>
      rw [littleEndian, littleEndian, List.take_succ_cons, ih (Nat.le_of_succ_le_succ h)]

/-- Some of the bytes of a number stand for the bits that they hold. -/
theorem ofLittleEndian_part {width k count : Nat} (h : k + count ≤ width) (n : Nat) :
    ofLittleEndian (((littleEndian width n).drop k).take count) =
      bitField (8 * k) (8 * count) n := by
  have hshift : 2 ^ (8 * k) = 256 ^ k := by rw [Nat.pow_mul]
  rw [drop_littleEndian, take_littleEndian (by omega), ofLittleEndian_littleEndian_eq_mod, bitField,
    Nat.shiftRight_eq_div_pow, hshift]

/-! ### Places in a buffer -/

namespace Window

variable {w : Window} {bytes data : List UInt8} {offset start count : Nat}

/-- What lies at a place of a buffer after some of it was replaced. -/
theorem getElem?_overlay (h : offset + data.length ≤ bytes.length) (i : Nat) :
    (overlay bytes offset data)[i]? =
      if i ∈ Set.Ico offset (offset + data.length) then data[i - offset]? else bytes[i]? := by
  have hfront : (bytes.take offset).length = offset := by
    rw [List.length_take]
    omega
  rw [overlay, List.append_assoc]
  by_cases hbefore : i < offset
  · have hout : i ∉ Set.Ico offset (offset + data.length) := fun hi => Nat.not_lt.2 hi.1 hbefore
    rw [if_neg hout, List.getElem?_append_left (by omega), List.getElem?_take_of_lt hbefore]
  · rw [List.getElem?_append_right (by omega), hfront]
    by_cases hbehind : offset + data.length ≤ i
    · have hout : i ∉ Set.Ico offset (offset + data.length) := fun hi => Nat.not_lt.2 hbehind hi.2
      have hplace : offset + data.length + (i - offset - data.length) = i := by omega
      rw [if_neg hout, List.getElem?_append_right (by omega), List.getElem?_drop, hplace]
    · have hin : i ∈ Set.Ico offset (offset + data.length) := ⟨by omega, by omega⟩
      rw [if_pos hin, List.getElem?_append_left (by omega)]

/-- Bytes that were put in place are found there, all of them or some. -/
theorem take_drop_overlay_inside (h : offset + data.length ≤ bytes.length) {k : Nat}
    (hinside : k + count ≤ data.length) :
    ((overlay bytes offset data).drop (offset + k)).take count = (data.drop k).take count := by
  apply List.ext_getElem?
  intro i
  rw [List.getElem?_take, List.getElem?_take, List.getElem?_drop, List.getElem?_drop]
  split
  · have hin : offset + k + i ∈ Set.Ico offset (offset + data.length) := ⟨by omega, by omega⟩
    have hplace : offset + k + i - offset = k + i := by omega
    rw [getElem?_overlay h, if_pos hin, hplace]
  · rfl

/-- What lies elsewhere stays. -/
theorem take_drop_overlay_of_disjoint (h : offset + data.length ≤ bytes.length)
    (hapart : Disjoint (Set.Ico offset (offset + data.length)) (Set.Ico start (start + count))) :
    ((overlay bytes offset data).drop start).take count = (bytes.drop start).take count := by
  apply List.ext_getElem?
  intro i
  rw [List.getElem?_take, List.getElem?_take, List.getElem?_drop, List.getElem?_drop]
  split
  · have hread : start + i ∈ Set.Ico start (start + count) := ⟨by omega, by omega⟩
    have hout : start + i ∉ Set.Ico offset (offset + data.length) :=
      Set.disjoint_right.1 hapart hread
    rw [getElem?_overlay h, if_neg hout]
  · rfl

/-! ### Reads after a write -/

theorem writeAt_eq_ok_iff :
    (w.writeAt offset data).1 = .ok () ↔ offset + data.length ≤ w.limit := by
  refine ⟨fun h => (writeAt_of_ok h).1, fun h => ?_⟩
  rw [writeAt, dif_pos h]

theorem writeAt_of_lt (h : w.limit < offset + data.length) :
    w.writeAt offset data = (.error .outOfBounds, w) := by
  rw [writeAt, dif_neg (by omega)]

theorem readAt_of_le (h : start + count ≤ w.limit) :
    (w.readAt start count).1 = .ok ((w.bytes.drop start).take count) := by
  rw [readAt, if_pos h]

theorem readAt_inside_of_written (h : offset + data.length ≤ w.limit) {k : Nat}
    (hinside : k + count ≤ data.length) :
    ((w.writeAt offset data).2.readAt (offset + k) count).1 = .ok ((data.drop k).take count) := by
  obtain ⟨-, hlimit, hbytes⟩ := writeAt_of_ok (writeAt_eq_ok_iff.2 h)
  rw [readAt_of_le (by rw [hlimit]; omega), hbytes,
    take_drop_overlay_inside (Nat.le_trans h w.limit_le) hinside]

/-- A read that shares no byte with a write answers the same after it, also if it is refused. -/
theorem readAt_of_disjoint
    (hapart : Disjoint (Set.Ico offset (offset + data.length)) (Set.Ico start (start + count))) :
    ((w.writeAt offset data).2.readAt start count).1 = (w.readAt start count).1 := by
  by_cases h : offset + data.length ≤ w.limit
  · obtain ⟨-, hlimit, hbytes⟩ := writeAt_of_ok (writeAt_eq_ok_iff.2 h)
    rw [readAt, readAt, hlimit, hbytes,
      take_drop_overlay_of_disjoint (Nat.le_trans h w.limit_le) hapart]
    split <;> rfl
  · rw [writeAt_of_lt (by omega)]

end Window

open Memory

/-- A number is written if and only if all of its bytes have places within the limit, and otherwise
nothing is. Where it was written, any of its bytes are read as the bits of the number that they
hold, and a read of other bytes answers what it did before. The end of a place is the sum of its
offset and its width, however large, so that no place is taken for one at the start of the buffer.
-/
theorem numbers_read_back (w : Window) (width offset n : Nat) :
    let written := writeNumber w width offset n
    (written.1 = .ok () ↔ offset + width ≤ w.limit) ∧
      (written.1 ≠ .ok () → written = (.error .outOfBounds, w)) ∧
      (written.1 = .ok () →
        (∀ k count, k + count ≤ width →
          (readNumber written.2 count (offset + k)).1 = .ok (bitField (8 * k) (8 * count) n)) ∧
        ∀ start count, Disjoint (Set.Ico offset (offset + width)) (Set.Ico start (start + count)) →
          (readAt written.2 start count).1 = (readAt w start count).1) := by
  intro written
  have hlength := length_littleEndian width n
  have hwritten : written = w.writeAt offset (littleEndian width n) := rfl
  have hiff : written.1 = .ok () ↔ offset + width ≤ w.limit := by
    rw [hwritten, Window.writeAt_eq_ok_iff, hlength]
  refine ⟨hiff, fun hrefused => ?_,
    fun hok => ⟨fun k count hinside => ?_, fun start count hapart => ?_⟩⟩
  · rw [Ne, hiff, Nat.not_le] at hrefused
    rw [hwritten, Window.writeAt_of_lt (by rwa [hlength])]
  · have hread : (Memory.readAt written.2 (offset + k) count).1 =
        .ok (((littleEndian width n).drop k).take count) :=
      Window.readAt_inside_of_written (by rw [hlength]; exact hiff.1 hok) (by rwa [hlength])
    rw [readNumber]
    simp only [hread, Except.map, ofLittleEndian_part hinside]
  · exact Window.readAt_of_disjoint (by rwa [hlength])

/-- Four bytes in a window on six of eight: two of them are read back, and the byte behind them is
what it was. A place that ends past the largest offset of 64 bits is out of bounds. -/
theorem numbers_read_back_of_four_bytes :
    let w := Window.exposing [1, 2, 3, 4, 5, 6, 7, 8] 6
    let written := writeNumber w 4 1 0xa1b2c3d4
    let beyond := writeNumber w 4 (bitRange 64 - 2) 0xa1b2c3d4
    written.1 = .ok () ∧ 1 + 2 ≤ 4 ∧
      (readNumber written.2 2 (1 + 1)).1 = .ok 0xb2c3 ∧
      Disjoint (Set.Ico 1 (1 + 4)) (Set.Ico 5 (5 + 1)) ∧
      (readAt written.2 5 1).1 = .ok [6] ∧
      beyond.1 ≠ .ok () ∧ beyond = (.error .outOfBounds, w) := by
  intro w written beyond
  obtain ⟨hiff, -, hread⟩ := numbers_read_back w 4 1 0xa1b2c3d4
  obtain ⟨hiff', hrefused, -⟩ := numbers_read_back w 4 (bitRange 64 - 2) 0xa1b2c3d4
  have hok : written.1 = .ok () := hiff.2 (by decide)
  have hbeyond : beyond.1 ≠ .ok () := fun h => absurd (hiff'.1 h) (by decide)
  have hapart : Disjoint (Set.Ico 1 (1 + 4)) (Set.Ico 5 (5 + 1)) := Set.Ico_disjoint_Ico_same
  obtain ⟨hinside, helsewhere⟩ := hread hok
  exact ⟨hok, by decide, hinside 1 2 (by decide), hapart, (helsewhere 5 1 hapart).trans rfl,
    hbeyond, hrefused hbeyond⟩

end DataPlacement.Host
