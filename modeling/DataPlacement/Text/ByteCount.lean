import DataPlacement.Arithmetic

namespace DataPlacement.Text

/-- The nearest multiple of `unit`, divided by `unit`; a tie goes to the even quotient. -/
def roundDivEven (n unit : Nat) : Nat :=
  let quotient := n / unit
  let twice := 2 * (n % unit)
  if unit < twice ∨ (twice = unit ∧ quotient % 2 = 1) then quotient + 1 else quotient

/-- The nearest number with at most 53 significant bits; a tie goes to the even one. -/
def toSignificant (n : Nat) : Nat :=
  let unit := bitRange (n.log2 + 1 - 53)
  roundDivEven n unit * unit

/-- A count of `size` bytes per unit in tenths, rounded, with a point before the last digit. -/
def oneDecimal (n size : Nat) (unit : String) : String :=
  let tenths := roundDivEven (10 * n) size
  s!"{tenths / 10}.{tenths % 10} {unit}"

/-- The count in the first of the units that leaves it under 1024, or in the last one. A unit
has `size` bytes and each larger one 1024 times as many as the one before. -/
def inUnits (n size : Nat) (unit : String) : List String → String
  | [] => oneDecimal n size unit
  | larger :: rest =>
    if n < 1024 * size then oneDecimal n size unit else inUnits n (1024 * size) larger rest

/-- A byte count for people: whole bytes below 1024, else one decimal place and a unit, as in
`40.0 KiB`. That the count is rounded to a binary fraction first matters from 2 ^ 53 on. -/
def byteCount (n : Nat) : String :=
  let binary := toSignificant n
  if binary < 1024 then s!"{n} B" else inUnits binary 1024 "KiB" ["MiB", "GiB", "TiB"]

end DataPlacement.Text
