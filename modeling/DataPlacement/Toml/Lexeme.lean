import DataPlacement.Toml.Value

namespace DataPlacement.Toml

/-- Text that is left to read. Readers answer what they read and the text behind it. -/
abbrev Rest := List Char

def isSpace (c : Char) : Bool := c = ' ' || c = '\t'

def skipSpaces (cs : Rest) : Rest := cs.dropWhile isSpace

/-- Control characters, which neither comments nor strings of one line may hold. -/
def isControl (c : Char) : Bool := (c.toNat < 0x20 && c ≠ '\t') || c.toNat = 0x7f

/-- The rest behind a line end. -/
def newline? : Rest → Option Rest
  | '\n' :: cs => some cs
  | '\r' :: '\n' :: cs => some cs
  | _ => none

/-- The rest behind a comment, if there is one, at the end of its line. -/
def skipComment : Rest → Rest
  | '#' :: cs => cs.dropWhile (!isControl ·)
  | cs => cs

/-- The rest behind the end of a line that holds no more than a comment. -/
def lineEnd? (cs : Rest) : Option Rest :=
  match skipComment (skipSpaces cs) with
  | [] => some []
  | cs => newline? cs

/-- The rest behind blanks, comments and line ends. A comment must be free of control
characters. -/
def skipLines (inComment : Bool) : Rest → Option Rest
  | [] => some []
  | '\n' :: cs => skipLines false cs
  | '\r' :: '\n' :: cs => skipLines false cs
  | c :: cs =>
    if inComment then if isControl c then none else skipLines true cs
    else if c = '#' then skipLines true cs
    else if isSpace c then skipLines false cs
    else some (c :: cs)

/-- The value of a hexadecimal digit. -/
def hexDigit? (c : Char) : Option Nat :=
  if '0' ≤ c ∧ c ≤ '9' then some (c.toNat - '0'.toNat)
  else if 'a' ≤ c ∧ c ≤ 'f' then some (c.toNat - 'a'.toNat + 10)
  else if 'A' ≤ c ∧ c ≤ 'F' then some (c.toNat - 'A'.toNat + 10)
  else none

/-- A character from `count` hexadecimal digits. Surrogates are no characters. -/
def codePoint? (count : Nat) (cs : Rest) : Option (Char × Rest) := do
  let digits := cs.take count
  if digits.length < count then none
  let n ← digits.foldlM (fun n c => (hexDigit? c).map (16 * n + ·)) 0
  if n.isValidChar then return (Char.ofNat n, cs.drop count) else none

/-- A character from an escape, behind its backslash. -/
def escape? : Rest → Option (Char × Rest)
  | 'b' :: cs => some ('\x08', cs)
  | 't' :: cs => some ('\t', cs)
  | 'n' :: cs => some ('\n', cs)
  | 'f' :: cs => some ('\x0c', cs)
  | 'r' :: cs => some ('\r', cs)
  | 'e' :: cs => some ('\x1b', cs)
  | '\x22' :: cs => some ('\x22', cs)
  | '\\' :: cs => some ('\\', cs)
  | 'x' :: cs => codePoint? 2 cs
  | 'u' :: cs => codePoint? 4 cs
  | 'U' :: cs => codePoint? 8 cs
  | _ => none

/-- The rest of a basic string of one line, behind its opening quote. -/
def basic? : (steps : Nat) → Rest → Option (List Char × Rest)
  | 0, _ => none
  | _, [] => none
  | steps + 1, c :: cs =>
    if c = '\x22' then some ([], cs)
    else if c = '\\' then do
      let (c, cs) ← escape? cs
      let (text, cs) ← basic? steps cs
      return (c :: text, cs)
    else if isControl c then none
    else do
      let (text, cs) ← basic? steps cs
      return (c :: text, cs)

/-- The rest of a literal string of one line, behind its opening quote. -/
def literal? : Rest → Option (List Char × Rest)
  | [] => none
  | c :: cs =>
    if c = '\x27' then some ([], cs)
    else if isControl c then none
    else do
      let (text, cs) ← literal? cs
      return (c :: text, cs)

/-- The quotes at the end of a string of several lines: three close it, and up to two before
them belong to the text. -/
def closing? (quote : Char) (cs : Rest) : Option (List Char × Rest) :=
  let run := min (cs.takeWhile (· = quote)).length 5
  if run < 3 then none else some (List.replicate (run - 3) quote, cs.drop run)

/-- The rest behind blanks and line ends. A carriage return alone ends no line. -/
def skipGap : Rest → Rest
  | ' ' :: cs => skipGap cs
  | '\t' :: cs => skipGap cs
  | '\n' :: cs => skipGap cs
  | '\r' :: '\n' :: cs => skipGap cs
  | cs => cs

/-- The text behind a backslash at the end of a line: blanks and line ends are skipped, and
there must be at least one line end. -/
def continuation? (cs : Rest) : Option Rest := (newline? (skipSpaces cs)).map skipGap

/-- The rest of a string of several lines. Only the basic kind, quoted by `"`, has escapes. -/
def multiline? (quote : Char) : (steps : Nat) → Rest → Option (List Char × Rest)
  | 0, _ => none
  | _, [] => none
  | steps + 1, c :: cs =>
    match closing? quote (c :: cs) with
    | some close => some close
    | none =>
      if c = '\\' && quote = '\x22' then
        match continuation? cs with
        | some cs => multiline? quote steps cs
        | none => do
          let (c, cs) ← escape? cs
          let (text, cs) ← multiline? quote steps cs
          return (c :: text, cs)
      else if c = '\r' then
        match cs with
        | '\n' :: cs => do
          let (text, cs) ← multiline? quote steps cs
          return ('\r' :: '\n' :: text, cs)
        | _ => none
      else if isControl c && c ≠ '\n' then none
      else do
        let (text, cs) ← multiline? quote steps cs
        return (c :: text, cs)

/-- A line end that follows the opening quotes at once is no part of the text. -/
def afterOpening (cs : Rest) : Rest := (newline? cs).getD cs

/-- A string of one line. -/
def shortString? : Rest → Option (List Char × Rest)
  | '\x22' :: cs => basic? (cs.length + 1) cs
  | '\x27' :: cs => literal? cs
  | _ => none

/-- A string of any kind. -/
def string? : Rest → Option (List Char × Rest)
  | '\x22' :: '\x22' :: '\x22' :: cs => multiline? '\x22' (cs.length + 1) (afterOpening cs)
  | '\x27' :: '\x27' :: '\x27' :: cs => multiline? '\x27' (cs.length + 1) (afterOpening cs)
  | cs => shortString? cs

def isBareKey (c : Char) : Bool := c.isAlphanum || c = '_' || c = '-'

/-- One part of a key: a string of one line or a bare word. -/
def simpleKey? (cs : Rest) : Option (String × Rest) :=
  match shortString? cs with
  | some (text, cs) => some (String.ofList text, cs)
  | none =>
    let word := cs.takeWhile isBareKey
    if word.isEmpty then none else some (String.ofList word, cs.dropWhile isBareKey)

/-- A key of at most `limit` parts, the last one apart. Blanks are allowed around the points. -/
def parts? : (limit : Nat) → Rest → Option (List String × String × Rest)
  | 0, _ => none
  | limit + 1, cs => do
    let (part, cs) ← simpleKey? (skipSpaces cs)
    match skipSpaces cs with
    | '.' :: cs =>
      let (path, last, cs) ← parts? limit cs
      return (part :: path, last, cs)
    | cs => return ([], part, cs)

/-- How deep tables, arrays and keys may be nested. -/
def maxDepth : Nat := 80

/-- A key, with its last part apart. -/
def key? (cs : Rest) : Option (List String × String × Rest) := parts? maxDepth cs

end DataPlacement.Toml
