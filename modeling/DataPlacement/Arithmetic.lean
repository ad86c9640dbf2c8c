namespace DataPlacement

/-! ### Numbers of a fixed number of bits -/

/-- How many numbers have at most `width` bits, which is the least number that has more. -/
def bitRange (width : Nat) : Nat := 1 <<< width

/-- The field of `width` bits whose lowest bit is the bit `low` of a number. -/
def bitField (low width n : Nat) : Nat := (n >>> low) % bitRange width

/-- The low `width` bits of a number. -/
def lowBits (width n : Nat) : Nat := n % bitRange width

theorem bitRange_pos (width : Nat) : 0 < bitRange width := by
  rw [bitRange, Nat.one_shiftLeft]
  exact Nat.two_pow_pos width

theorem bitRange_add (low high : Nat) : bitRange (low + high) = bitRange low * bitRange high := by
  simp only [bitRange, Nat.one_shiftLeft, Nat.pow_add]

theorem lowBits_lt (width n : Nat) : lowBits width n < bitRange width :=
  Nat.mod_lt _ (bitRange_pos width)

theorem lowBits_of_lt {width n : Nat} (h : n < bitRange width) : lowBits width n = n :=
  Nat.mod_eq_of_lt h

/-! ### Counters -/

/-- A counter of `width` bits after `amount` more. Past its largest value it starts over at 0. -/
def advance (width counter amount : Nat) : Nat := lowBits width (counter + amount)

theorem advance_of_lt {width counter amount : Nat} (h : counter + amount < bitRange width) :
    advance width counter amount = counter + amount :=
  lowBits_of_lt h

theorem advance_lt (width counter amount : Nat) : advance width counter amount < bitRange width :=
  lowBits_lt width _

/-- A counter that started at 0 holds the low bits of what it counted. -/
theorem advance_lowBits (width n amount : Nat) :
    advance width (lowBits width n) amount = lowBits width (n + amount) :=
  Nat.mod_add_mod _ _ _

/-- Two advances are one by the sum of the amounts. -/
@[simp]
theorem advance_advance (width counter amount more : Nat) :
    advance width (advance width counter amount) more = advance width counter (amount + more) := by
  change advance width (lowBits width (counter + amount)) more = _
  rw [advance_lowBits, Nat.add_assoc]
  rfl

/-- Whatever a counter holds, one more changes it, and so does every amount below its range. -/
theorem advance_ne {width counter amount : Nat} (hpos : 0 < amount)
    (hamount : amount < bitRange width) : advance width counter amount ≠ counter := by
  intro hsame
  have hsmall : counter < bitRange width := hsame ▸ advance_lt width counter amount
  rcases Nat.lt_or_ge (counter + amount) (bitRange width) with hfits | hover
  · rw [advance_of_lt hfits] at hsame
    omega
  · rw [advance, lowBits, Nat.mod_eq_sub_mod hover, Nat.mod_eq_of_lt (by omega)] at hsame
    omega

/-! ### Sums over lists -/

/-- The sum of a quantity over the items of a list. -/
def sumOf {α : Type} (quantity : α → Nat) (items : List α) : Nat :=
  items.foldr (fun item sum => quantity item + sum) 0

@[simp]
theorem sumOf_nil {α : Type} (quantity : α → Nat) : sumOf quantity [] = 0 := rfl

@[simp]
theorem sumOf_cons {α : Type} (quantity : α → Nat) (item : α) (items : List α) :
    sumOf quantity (item :: items) = quantity item + sumOf quantity items := rfl

end DataPlacement
