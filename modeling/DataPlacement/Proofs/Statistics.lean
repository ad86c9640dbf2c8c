import DataPlacement.Page
import DataPlacement.Proofs.Host.Reading

namespace DataPlacement

namespace Page

open Host (length_littleEndian)

theorem length_words {α : Type} (value : α → Nat) (items : List α) :
    (items.map fun item => Host.littleEndian 8 (value item)).flatten.length = 8 * items.length :=
  Host.length_flatten_map (fun item => length_littleEndian 8 (value item)) items

theorem length_statisticsTable (units : List ReclaimUnit) (value : ReclaimUnit → Nat) :
    (statisticsTable units value).length = 8 * statisticsSlots := by
  simp only [statisticsTable, List.length_append, length_words, zeroBytes, List.length_replicate,
    List.length_take]
  omega

/-- A table has the number of each of the first units at its place. -/
theorem word_of_statisticsTable {units : List ReclaimUnit} (value : ReclaimUnit → Nat)
    {u : UnitId} {unit : ReclaimUnit} (hslot : u < statisticsSlots)
    (hunit : units[u]? = some unit) :
    ((statisticsTable units value).drop (8 * u)).take 8 = Host.littleEndian 8 (value unit) := by
  have hshown : (units.take statisticsSlots)[u]? = some unit := by
    rw [List.getElem?_take_of_lt hslot, hunit]
  obtain ⟨hu, hunit⟩ := List.getElem?_eq_some_iff.1 hshown
  have hsplit : units.take statisticsSlots =
      (units.take statisticsSlots).take u ++ unit :: (units.take statisticsSlots).drop (u + 1) := by
    rw [← hunit, List.getElem_cons_drop, List.take_append_drop]
  have hskipped : 8 * ((units.take statisticsSlots).take u).length = 8 * u := by
    rw [List.length_take_of_le (Nat.le_of_lt hu)]
  rw [statisticsTable, hsplit, List.map_append, List.flatten_append, List.append_assoc,
    List.drop_left' ((length_words value _).trans hskipped), List.map_cons, List.flatten_cons,
    List.append_assoc, List.take_left' (length_littleEndian 8 _)]

/-- Behind the units that there are, a table has zeros. -/
theorem word_of_statisticsTable_of_le {units : List ReclaimUnit} (value : ReclaimUnit → Nat)
    {u : Nat} (hslot : u < statisticsSlots) (hunused : units.length ≤ u) :
    ((statisticsTable units value).drop (8 * u)).take 8 = zeroBytes 8 := by
  have hshown : units.take statisticsSlots = units :=
    List.take_of_length_le (Nat.le_trans hunused (Nat.le_of_lt hslot))
  have hbehind : 8 * units.length ≤ 8 * u := Nat.mul_le_mul_left 8 hunused
  have hroom : 8 * u + 8 ≤ 8 * statisticsSlots := by
    have hnext := Nat.mul_le_mul_left 8 (Nat.succ_le_of_lt hslot)
    omega
  simp only [statisticsTable, hshown]
  rw [List.drop_append, List.drop_of_length_le (by rwa [length_words]), List.nil_append,
    length_words, zeroBytes, List.drop_replicate, List.take_replicate, zeroBytes]
  congr 1
  omega

/-- What the tables of the statistics page count, in their order. Reads are not counted. -/
def counters (p : Pool) : List (ReclaimUnit → Nat) :=
  [(·.hostBytes), (·.mediaBytes), (·.writes), fun _ => 0, fun u => p.wearOf u.id]

theorem statistics_eq_flatten (c : Configuration) (p : Pool) :
    statistics c p = ((counters p).map (statisticsTable c.units.toList)).flatten := by
  simp [statistics, counters]

theorem length_statistics (c : Configuration) (p : Pool) : (statistics c p).length = 640 := by
  simp only [statistics, List.length_append, length_statisticsTable, statisticsSlots]

/-- Blocks of one width stand one behind the other, and a part of a block is found at its place. -/
theorem take_drop_flatten {blocks : List (List UInt8)} {width : Nat}
    (hwidth : ∀ block ∈ blocks, block.length = width) {k : Nat} {block : List UInt8}
    (hblock : blocks[k]? = some block) {offset count : Nat} (hinside : offset + count ≤ width) :
    (blocks.flatten.drop (width * k + offset)).take count = (block.drop offset).take count := by
  induction blocks generalizing k with
  | nil => cases hblock
  | cons first rest ih =>
    obtain ⟨hfirst, hrest⟩ := List.forall_mem_cons.1 hwidth
    cases k with
    | zero =>
      obtain rfl : first = block := Option.some.inj hblock
      rw [Nat.mul_zero, Nat.zero_add, List.flatten_cons, List.drop_append_of_le_length (by omega),
        List.take_append_of_le_length (by rw [List.length_drop]; omega)]
    | succ k =>
      have hplace : width * (k + 1) + offset = width + (width * k + offset) := by
        rw [Nat.mul_add, Nat.mul_one]
        omega
      rw [hplace, ← List.drop_drop, List.flatten_cons, List.drop_left' hfirst]
      exact ih hrest hblock

/-- Each table has its words at its own place on the statistics page. -/
theorem word_of_table (c : Configuration) (p : Pool) {k u : Nat} {value : ReclaimUnit → Nat}
    (hvalue : (counters p)[k]? = some value) (hslot : u < statisticsSlots) :
    ((statistics c p).drop (128 * k + 8 * u)).take 8 =
      ((statisticsTable c.units.toList value).drop (8 * u)).take 8 := by
  have hinside : 8 * u + 8 ≤ 128 := by
    unfold statisticsSlots at hslot
    omega
  rw [statistics_eq_flatten]
  refine take_drop_flatten (fun table htable => ?_) (by rw [List.getElem?_map, hvalue]; rfl) hinside
  obtain ⟨value, -, rfl⟩ := List.mem_map.1 htable
  exact length_statisticsTable _ value

end Page

end DataPlacement
