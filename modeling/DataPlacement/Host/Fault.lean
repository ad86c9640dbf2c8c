namespace DataPlacement.Host

/-- What a failing file access reports. -/
inductive FileFault where
  | notFound
  | permissionDenied
  | unexpectedEnd
  | invalidInput
  | writeZero
  | noSpace
  | uncategorized
  deriving DecidableEq

def FileFault.text : FileFault → String
  | .notFound => "entity not found"
  | .permissionDenied => "permission denied"
  | .unexpectedEnd => "unexpected end of file"
  | .invalidInput => "invalid input parameter"
  | .writeZero => "write zero"
  | .noSpace => "no storage space"
  | .uncategorized => "uncategorized error"

/-- `outOfBounds` is an access past the bytes that the host made available. -/
inductive Fault where
  | described (reason : String)
  | outOfBounds
  | unsupported
  | file (fault : FileFault)
  deriving DecidableEq

namespace Fault

/-- The cause without its details. -/
def message : Fault → String
  | described reason => reason
  | outOfBounds => "Transfer out of bounds"
  | unsupported => "Unsupported operation"
  | file _ => "Host file I/O error"

/-- The cause with its details. -/
def text (f : Fault) : String :=
  match f with
  | file fault => f.message ++ " (" ++ fault.text ++ ")"
  | _ => f.message

end Fault

end DataPlacement.Host
