namespace DataPlacement.Text

/-- Lower-case hexadecimal digits, with zeros in front up to `width` digits. -/
def hexadecimal (width n : Nat) : String :=
  let digits := Nat.toDigits 16 n
  String.ofList (List.replicate (width - digits.length) '0' ++ digits)

/-- The two digits of a byte. -/
def hexByte (b : UInt8) : String :=
  hexadecimal 2 b.toNat

/-- Bytes without separators. -/
def hexBytes (bytes : List UInt8) : String :=
  bytes.foldl (fun text b => text ++ hexByte b) ""

/-- Bytes in one row of a dump. -/
def bytesPerRow : Nat := 16

/-- The rows of a dump that starts at `offset`: six digits of the offset, two blanks, and the
bytes of the row separated by blanks. -/
def hexRowsFrom (offset : Nat) (bytes : List UInt8) : List String :=
  match bytes with
  | [] => []
  | b :: rest =>
    let row := b :: rest.take (bytesPerRow - 1)
    let text := hexadecimal 6 offset ++ "  " ++ " ".intercalate (row.map hexByte)
    text :: hexRowsFrom (offset + bytesPerRow) (rest.drop (bytesPerRow - 1))
termination_by bytes.length
decreasing_by simp only [List.length_drop, List.length_cons]; omega

/-- The rows of a dump. -/
def hexRows (bytes : List UInt8) : List String :=
  hexRowsFrom 0 bytes

end DataPlacement.Text
