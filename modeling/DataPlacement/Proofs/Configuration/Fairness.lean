import DataPlacement.Configuration.Distribution
import Mathlib.Algebra.GroupWithZero.Nat
import Mathlib.Algebra.Order.BigOperators.Group.List
import Mathlib.Algebra.Order.Group.Nat

namespace DataPlacement.Distribution

variable {free units : Nat}

/-! ### The shares -/

theorem length_shares (free units : Nat) : (shares free units).length = units := by
  simp [shares]

theorem sum_shares (free units : Nat) :
    (shares free units).sum = free / units * units + min units (free % units) := by
  have hsum : ∀ n,
      ((List.range n).map fun i => free / units + if i < free % units then 1 else 0).sum
        = free / units * n + min n (free % units) := by
    intro n
    induction n with
    | zero => simp
    | succ n ih =>
      simp only [List.range_succ, List.map_append, List.sum_append, ih, List.map_cons,
        List.map_nil, List.sum_singleton, Nat.mul_succ]
      split <;> omega
  exact hsum units

/-- The shares are no more than what there is to share. -/
theorem sum_shares_le (free units : Nat) : (shares free units).sum ≤ free := by
  have hdiv := Nat.div_add_mod' free units
  have hle := Nat.min_le_right units (free % units)
  rw [sum_shares]
  omega

/-- Where there are units, the shares are all that there is to share. -/
theorem sum_shares_of_pos (free : Nat) (hunits : 0 < units) : (shares free units).sum = free := by
  have hdiv := Nat.div_add_mod' free units
  have hrest := Nat.mod_lt free hunits
  rw [sum_shares]
  omega

/-- A share is the quotient or one more. -/
theorem bounds_of_mem_shares {count : Nat} (h : count ∈ shares free units) :
    free / units ≤ count ∧ count ≤ free / units + 1 := by
  obtain ⟨i, -, rfl⟩ := List.mem_map.1 h
  constructor
  · exact Nat.le_add_right _ _
  · split <;> omega

/-- The units that get one line more come first. -/
theorem descending_shares (free units : Nat) : (shares free units).Pairwise (· ≥ ·) := by
  rw [shares, List.pairwise_map]
  refine List.pairwise_lt_range.imp fun {earlier later} hlt => ?_
  by_cases hextra : later < free % units
  · rw [if_pos hextra, if_pos (hlt.trans hextra)]
  · rw [if_neg hextra]
    exact Nat.add_le_add_left (Nat.zero_le _) _

/-- No share is empty if there is something for every unit. -/
theorem findIdx?_shares_of_ample (hmany : units ≤ free) :
    (shares free units).findIdx? (· = 0) = none := by
  simp only [List.findIdx?_eq_none_iff, decide_eq_false_iff_not]
  intro count hcount
  have hunits : 0 < units := by
    rw [← length_shares free units]
    exact List.length_pos_of_mem hcount
  have hquotient := Nat.div_pos hmany hunits
  obtain ⟨hlower, -⟩ := bounds_of_mem_shares hcount
  omega

/-- Of fewer lines than units the first units get one each, and the next one is the first without.
-/
theorem findIdx?_shares_of_scarce (hfew : free < units) :
    (shares free units).findIdx? (· = 0) = some free := by
  have hshare : ∀ i, free / units + (if i < free % units then 1 else 0) =
      if i < free then 1 else 0 := by
    intro i
    rw [Nat.div_eq_of_lt hfew, Nat.mod_eq_of_lt hfew, Nat.zero_add]
  rw [List.findIdx?_eq_some_iff_getElem]
  refine ⟨by simpa [shares] using hfew, ?_, fun i hi => ?_⟩
  · simp [shares, hshare]
  · simp [shares, hshare, hi]

/-! ### Fair shares -/

/-- The counts give all free lines to the units, to no unit more than to an earlier one, and the
largest of them and the smallest differ by at most one. -/
structure Fair (free units : Nat) (counts : List Nat) : Prop where
  length : counts.length = units
  sum : counts.sum = free
  descending : counts.Pairwise (· ≥ ·)
  even : ∀ largest ∈ counts.max?, ∀ smallest ∈ counts.min?, largest ≤ smallest + 1

instance (free units : Nat) (counts : List Nat) : Decidable (Fair free units counts) :=
  decidable_of_iff
    (counts.length = units ∧ counts.sum = free ∧ counts.Pairwise (· ≥ ·) ∧
      ∀ largest ∈ counts.max?, ∀ smallest ∈ counts.min?, largest ≤ smallest + 1)
    ⟨fun ⟨hlength, hsum, hdescending, heven⟩ => ⟨hlength, hsum, hdescending, heven⟩,
      fun h => ⟨h.length, h.sum, h.descending, h.even⟩⟩

/-- No count is above an earlier one, nor more than one below it. The tail of a level list is level,
which the bound on the largest and the smallest count does not show as directly. -/
def Level (counts : List Nat) : Prop :=
  counts.Pairwise fun earlier later => later ≤ earlier ∧ earlier ≤ later + 1

variable {first first' : Nat} {counts counts' rest rest' : List Nat}

theorem Fair.level (h : Fair free units counts) : Level counts := by
  refine h.descending.imp_of_mem fun {earlier later} hearlier hlater hle => ⟨hle, ?_⟩
  obtain ⟨largest, hlargest⟩ :=
    Option.isSome_iff_exists.1 (List.isSome_max?_of_mem hearlier)
  obtain ⟨smallest, hsmallest⟩ :=
    Option.isSome_iff_exists.1 (List.isSome_min?_of_mem hlater)
  calc
    earlier ≤ largest := (List.max?_eq_some_iff.1 hlargest).2 earlier hearlier
    _ ≤ smallest + 1 := h.even largest hlargest smallest hsmallest
    _ ≤ later + 1 := Nat.succ_le_succ ((List.min?_eq_some_iff.1 hsmallest).2 later hlater)

/-- Of two level lists of one length the one with the higher start has the larger sum: no count of
it is below the start of the other, and no count of the other is above. -/
theorem Level.head_le_of_sum_le (h : Level (first :: rest)) (h' : Level (first' :: rest'))
    (hlength : rest.length = rest'.length) (hsum : (first :: rest).sum ≤ (first' :: rest').sum) :
    first ≤ first' := by
  by_contra hhigher
  have habove : ∀ count ∈ rest, first' ≤ count := by
    intro count hcount
    have hlevel := List.rel_of_pairwise_cons h hcount
    omega
  have hbelow : ∀ count ∈ rest', count ≤ first' := by
    intro count hcount
    exact (List.rel_of_pairwise_cons h' hcount).1
  have hfloor : rest.length * first' ≤ rest.sum := List.card_nsmul_le_sum rest first' habove
  have hceiling : rest'.sum ≤ rest'.length * first' := List.sum_le_card_nsmul rest' first' hbelow
  rw [List.sum_cons, List.sum_cons] at hsum
  rw [hlength] at hfloor
  omega

/-- A level list is determined by its length and its sum. -/
theorem Level.eq_of_sum_eq (h : Level counts) (h' : Level counts')
    (hlength : counts.length = counts'.length) (hsum : counts.sum = counts'.sum) :
    counts = counts' := by
  induction counts generalizing counts' with
  | nil => exact (List.length_eq_zero_iff.1 hlength.symm).symm
  | cons first rest ih =>
    cases counts' with
    | nil => exact absurd hlength (Nat.succ_ne_zero _)
    | cons first' rest' =>
      have hrest : rest.length = rest'.length := Nat.succ.inj hlength
      -- The starts are equal, since neither list can start higher; what is left has one sum too.
      obtain rfl : first = first' :=
        Nat.le_antisymm (h.head_le_of_sum_le h' hrest hsum.le)
          (h'.head_le_of_sum_le h hrest.symm hsum.ge)
      rw [List.sum_cons, List.sum_cons, Nat.add_right_inj] at hsum
      rw [ih h.of_cons h'.of_cons hrest hsum]

theorem Fair.unique (h : Fair free units counts) (h' : Fair free units counts') :
    counts = counts' :=
  h.level.eq_of_sum_eq h'.level (h.length.trans h'.length.symm) (h.sum.trans h'.sum.symm)

/-- Order and evenness are both needed for this. -/
example : Fair 10 4 [3, 3, 2, 2] ∧ ¬ Fair 10 4 [3, 2, 3, 2] ∧ ¬ Fair 10 4 [4, 2, 2, 2] := by
  decide

theorem fair_shares (free : Nat) (hunits : 0 < units) : Fair free units (shares free units) where
  length := length_shares free units
  sum := sum_shares_of_pos free hunits
  descending := descending_shares free units
  even largest hlargest smallest hsmallest := by
    obtain ⟨-, hupper⟩ := bounds_of_mem_shares (List.max?_mem hlargest)
    obtain ⟨hlower, -⟩ := bounds_of_mem_shares (List.min?_mem hsmallest)
    omega

/-- Where there is a unit at all, the shares are fair and no other list of counts is. A unit is left
without a line if and only if there are fewer lines than units, and the first such unit is then the
one whose number is the number of lines. -/
theorem only_shares_are_fair (free : Nat) (hunits : 0 < units) :
    (∀ counts, Fair free units counts ↔ counts = shares free units) ∧
      (shares free units).findIdx? (· = 0) = if free < units then some free else none := by
  have hfair := fair_shares free hunits
  constructor
  · intro counts
    constructor
    · intro h
      exact h.unique hfair
    · rintro rfl
      exact hfair
  · by_cases hfew : free < units
    · rw [if_pos hfew, findIdx?_shares_of_scarce hfew]
    · rw [if_neg hfew, findIdx?_shares_of_ample (Nat.le_of_not_lt hfew)]

/-- Of ten lines the first two of four units get one more than the others; of three lines the last
unit gets none. -/
theorem only_shares_are_fair_to_four :
    0 < 4 ∧ (∀ counts, Fair 10 4 counts ↔ counts = [3, 3, 2, 2]) ∧
      (shares 10 4).findIdx? (· = 0) = none ∧
      (∀ counts, Fair 3 4 counts ↔ counts = [1, 1, 1, 0]) ∧
      (shares 3 4).findIdx? (· = 0) = some 3 := by
  have hunits : 0 < 4 := by decide
  obtain ⟨hten, hserved⟩ := only_shares_are_fair 10 hunits
  obtain ⟨hthree, hstarved⟩ := only_shares_are_fair 3 hunits
  exact ⟨hunits, hten, hserved, hthree, hstarved⟩

end DataPlacement.Distribution
