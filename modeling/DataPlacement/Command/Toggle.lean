namespace DataPlacement

inductive Toggle where
  | resetAccounting
  | startTrace
  | stopTrace
  | enablePlacement
  | disablePlacement
  deriving DecidableEq

namespace Toggle

/-- The code in command dword 10. -/
def code : Toggle → Nat
  | resetAccounting => 5
  | startTrace => 6
  | stopTrace => 7
  | enablePlacement => 8
  | disablePlacement => 9

def all : List Toggle :=
  [resetAccounting, startTrace, stopTrace, enablePlacement, disablePlacement]

/-- The toggle with a code. -/
def ofCode? (n : Nat) : Option Toggle := all.find? (·.code = n)

end Toggle

end DataPlacement
