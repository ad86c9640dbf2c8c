import DataPlacement.Arithmetic

namespace DataPlacement.Text

/-! ### White space at the ends of a text -/

/-- The ranges of the Unicode property White_Space. -/
def blankRanges : List (Nat × Nat) :=
  [(0x0009, 0x000d), (0x0020, 0x0020), (0x0085, 0x0085), (0x00a0, 0x00a0), (0x1680, 0x1680),
    (0x2000, 0x200a), (0x2028, 0x2029), (0x202f, 0x202f), (0x205f, 0x205f), (0x3000, 0x3000)]

def isBlank (c : Char) : Bool :=
  blankRanges.any fun (first, last) => first ≤ c.toNat && c.toNat ≤ last

/-- The text without white space at its two ends. -/
def trim (text : List Char) : List Char :=
  ((text.dropWhile isBlank).reverse.dropWhile isBlank).reverse

/-! ### Numbers -/

/-- The value of decimal digits. -/
def digitsValue (digits : List Char) : Nat :=
  digits.foldl (fun n c => 10 * n + (c.toNat - '0'.toNat)) 0

/-- A number below 2^64: one or more decimal digits, after a plus sign or not. -/
def number? (text : List Char) : Option Nat :=
  let digits := match text with
    | '+' :: rest => rest
    | _ => text
  if digits.isEmpty || !digits.all Char.isDigit then none
  else
    let n := digitsValue digits
    if n < bitRange 64 then some n else none

/-! ### Columns and lists -/

/-- The text followed by blanks up to `width` characters; a longer text stays whole. -/
def padRight (width : Nat) (text : String) : String :=
  text.pushn ' ' (width - text.length)

/-- The text after blanks that fill it up to `width` characters; a longer text stays whole. -/
def padLeft (width : Nat) (text : String) : String :=
  "".pushn ' ' (width - text.length) ++ text

/-- A number in a column of `width` characters, at its right end. -/
def column (width n : Nat) : String :=
  padLeft width (toString n)

/-- The items in square brackets, separated by a comma and a blank. -/
def bracketed (items : List String) : String :=
  "[" ++ ", ".intercalate items ++ "]"

/-! ### Colours -/

inductive Colour where
  | red
  | green
  | yellow
  | dimmed
  deriving DecidableEq

/-- The code that starts the colour. -/
def Colour.code : Colour → String
  | red => "31"
  | green => "32"
  | yellow => "33"
  | dimmed => "2"

/-- The text in a colour where colours are shown, and as it is elsewhere. -/
def paint (shown : Bool) (colour : Colour) (text : String) : String :=
  if shown then "\x1b[" ++ colour.code ++ "m" ++ text ++ "\x1b[0m" else text

end DataPlacement.Text
