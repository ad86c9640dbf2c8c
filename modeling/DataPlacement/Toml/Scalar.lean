import DataPlacement.Toml.Lexeme

namespace DataPlacement.Toml

def digitsIn (base : Nat) (digits : List Char) : Nat :=
  digits.foldl (fun n c => base * n + (hexDigit? c).getD 0) 0

def isDigitIn (base : Nat) (c : Char) : Bool := (hexDigit? c).any (· < base)

/-- The text without its underscores, each of which must have a digit on either side. What
stands before the text counts as a digit or not. -/
def ungrouped? (isDigit : Char → Bool) : (afterDigit : Bool) → Rest → Option (List Char)
  | _, [] => some []
  | afterDigit, '_' :: cs =>
    if afterDigit && cs.head?.any isDigit then ungrouped? isDigit false cs else none
  | _, c :: cs => (ungrouped? isDigit (isDigit c) cs).map (c :: ·)

/-- One decimal digit or more. -/
def digits? (cs : Rest) : Option (List Char) :=
  if cs.isEmpty || !cs.all (isDigitIn 10) then none else some cs

/-- A sign if there is one, which may be the negative one, and the text behind it. -/
def sign : Rest → Option Bool × Rest
  | '-' :: cs => (some true, cs)
  | '+' :: cs => (some false, cs)
  | cs => (none, cs)

def signed (sign : Option Bool) (n : Nat) : Int := if sign = some true then -n else n

/-- A number of several digits starts with a zero. -/
def hasLeadingZero (cs : Rest) : Bool :=
  match cs with
  | '0' :: c :: _ => c = '_' || isDigitIn 10 c
  | _ => false

/-- A decimal number `mantissa * 10 ^ (exponent - scale)` is in the range of a double: it is
below the midpoint between the largest double and 2^1024. -/
def fitsDouble (mantissa : List Char) (scale : Nat) (exponent : Int) : Bool :=
  let digits := mantissa.dropWhile (· = '0')
  let shift := exponent - scale
  let magnitude := shift + digits.length
  let limit := Nat.pow 2 1024 - Nat.pow 2 970
  if digits.isEmpty || magnitude < 300 then true
  else if 320 < magnitude then false
  else if 0 ≤ shift then digitsIn 10 digits * Nat.pow 10 shift.toNat < limit
  else digitsIn 10 digits < limit * Nat.pow 10 (-shift).toNat

/-- An exponent behind its mark. -/
def exponent? (cs : Rest) : Option Int :=
  let (sign, cs) := sign cs
  (digits? cs).map fun ds => signed sign (digitsIn 10 ds)

/-- A number with a point or an exponent, without its sign and its underscores; answers whether
a double can hold it. -/
def fraction? (cs : Rest) : Option Bool := do
  let isMark (c : Char) : Bool := c = 'e' || c = 'E'
  let mantissa := cs.takeWhile (!isMark ·)
  let whole ← digits? (mantissa.takeWhile (· ≠ '.'))
  let behindPoint ← match mantissa.dropWhile (· ≠ '.') with
    | [] => some []
    | _ :: ds => digits? ds
  let exponent ← match cs.dropWhile (!isMark ·) with
    | [] => some 0
    | _ :: cs => exponent? cs
  return fitsDouble (whole ++ behindPoint) behindPoint.length exponent

/-- The value of exactly `count` decimal digits, and the text behind them. -/
def fixedDigits? (count : Nat) (cs : Rest) : Option (Nat × Rest) :=
  let digits := cs.take count
  if digits.length = count && digits.all (isDigitIn 10) then
    some (digitsIn 10 digits, cs.drop count)
  else none

/-- Days of a month, by the Gregorian calendar. -/
def daysOf (year month : Nat) : Nat :=
  if month = 2 then
    if year % 4 = 0 && (year % 100 ≠ 0 || year % 400 = 0) then 29 else 28
  else if month ∈ [4, 6, 9, 11] then 30
  else 31

/-- The text behind a date. -/
def date? (cs : Rest) : Option Rest := do
  let (year, cs) ← fixedDigits? 4 cs
  let '-' :: cs := cs | none
  let (month, cs) ← fixedDigits? 2 cs
  let '-' :: cs := cs | none
  let (day, cs) ← fixedDigits? 2 cs
  if 1 ≤ month ∧ month ≤ 12 ∧ 1 ≤ day ∧ day ≤ daysOf year month then some cs else none

/-- The text behind the fraction of a second, if there is one. -/
def secondFraction? : Rest → Option Rest
  | '.' :: cs =>
    if (cs.takeWhile (isDigitIn 10)).isEmpty then none else some (cs.dropWhile (isDigitIn 10))
  | cs => some cs

/-- The text behind the seconds of a time, which may be left out. A leap second is allowed. -/
def seconds? : Rest → Option Rest
  | ':' :: cs => do
    let (second, cs) ← fixedDigits? 2 cs
    if 60 < second then none else secondFraction? cs
  | cs => some cs

/-- The text behind a time of the day. -/
def time? (cs : Rest) : Option Rest := do
  let (hour, cs) ← fixedDigits? 2 cs
  let ':' :: cs := cs | none
  let (minute, cs) ← fixedDigits? 2 cs
  if 23 < hour ∨ 59 < minute then none else seconds? cs

/-- A difference to universal time ends a date with time, or nothing does. -/
def isOffset : Rest → Bool
  | [] => true
  | ['Z'] => true
  | ['z'] => true
  | c :: cs =>
    (c = '+' || c = '-') &&
      match fixedDigits? 2 cs with
      | some (hours, ':' :: cs) =>
        match fixedDigits? 2 cs with
        | some (minutes, []) => hours ≤ 23 && minutes ≤ 59
        | _ => false
      | _ => false

/-- A date, a time, or a date with a time and perhaps an offset. -/
def isMoment (cs : Rest) : Bool :=
  match date? cs with
  | some [] => true
  | some (c :: rest) =>
    (c = 'T' || c = 't' || c = ' ') && (time? rest).any isOffset
  | none => time? cs = some []

/-- Characters that end a value without quotes. -/
def endsScalar (c : Char) : Bool :=
  ['=', ',', '[', ']', '\x7b', '\x7d', '#', '\r', '\n'].contains c

/-- A word that goes on with a value starts here. -/
def startsWord : Rest → Bool
  | [] => false
  | c :: _ => !(endsScalar c || c = '.' || c = '\x22' || c = '\x27')

/-- The text of a value without quotes. Blanks belong to it if a word follows them. -/
def scalarText : Rest → List Char × Rest
  | [] => ([], [])
  | c :: cs =>
    if endsScalar c || (isSpace c && !startsWord (skipSpaces cs)) then ([], c :: cs)
    else
      let (text, rest) := scalarText cs
      (c :: text, rest)

/-- The digits of a whole number behind the mark of its base. -/
def inBase? (base : Nat) (cs : Rest) : Option Value := do
  let ds ← ungrouped? (isDigitIn base) false cs
  if !ds.all (isDigitIn base) then none
  if ds.isEmpty then return .unreadable else return .integer (digitsIn base ds)

/-- A date, a time or a number in base 10. An underscore may also follow the sign, and zeros may
follow that underscore. What stands between the underscores of a whole number must start and end
like a hexadecimal number, but has a value only if all of it is decimal. -/
def decimal? (sign : Option Bool) (cs : Rest) : Option Value := do
  let behind := cs.dropWhile (isDigitIn 10)
  if behind.head? = some '-' || behind.head? = some ':' then
    if sign.isNone && isMoment cs then return .moment else none
  if behind.contains ' ' || hasLeadingZero cs then none
  if behind.any fun c => c = '.' || c = 'e' || c = 'E' then
    return .fraction (← fraction? (← ungrouped? (isDigitIn 10) sign.isSome cs))
  if !behind.isEmpty && behind.head? ≠ some '_' then none
  let text ← ungrouped? (isDigitIn 16) sign.isSome cs
  if text.isEmpty then none
  match digits? text with
  | some ds => return .integer (signed sign (digitsIn 10 ds))
  | none => return .unreadable

/-- The value of a text without quotes. -/
def ofScalar? (cs : Rest) : Option Value :=
  match cs with
  | ['t', 'r', 'u', 'e'] => some (.boolean true)
  | ['f', 'a', 'l', 's', 'e'] => some (.boolean false)
  | '0' :: 'x' :: cs => inBase? 16 cs
  | '0' :: 'o' :: cs => inBase? 8 cs
  | '0' :: 'b' :: cs => inBase? 2 cs
  | _ =>
    let (sign, cs) := sign cs
    if cs = ['i', 'n', 'f'] ∨ cs = ['n', 'a', 'n'] then some (.fraction true)
    else decimal? sign cs

/-- A value that is neither a string nor bracketed. -/
def scalar? (cs : Rest) : Option (Value × Rest) :=
  let (text, rest) := scalarText cs
  (ofScalar? text).map fun v => (v, rest)

end DataPlacement.Toml
