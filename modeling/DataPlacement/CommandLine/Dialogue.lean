import DataPlacement.Host.Fault
import DataPlacement.Session.Message

namespace DataPlacement.CommandLine

open Session (Printed)

/-- Why a file cannot be used. -/
inductive AccessFault where
  | notFound
  | permissionDenied
  | notDirectory
  | isDirectory
  | nameTooLong
  /-- No name holds a zero byte. -/
  | zeroByte
  /-- The bytes of the file are no text. -/
  | notText
  /-- The file has no end. -/
  | endless
  | other (reason : String)
  deriving DecidableEq

def AccessFault.text : AccessFault → String
  | notFound => "No such file or directory (os error 2)"
  | permissionDenied => "Permission denied (os error 13)"
  | notDirectory => "Not a directory (os error 20)"
  | isDirectory => "Is a directory (os error 21)"
  | nameTooLong => "File name too long (os error 36)"
  | zeroByte => "file name contained an unexpected NUL byte"
  | notText => "stream did not contain valid UTF-8"
  | endless => "out of memory"
  | other reason => reason

/-- Why bytes cannot be stored in a file that is there: it does not take them, or it cannot be
cut to their length. -/
inductive StoreFault where
  | refused (fault : Host.FileFault)
  | uncut (fault : Host.FileFault)
  deriving DecidableEq

/-- What a command does to the world around it, and how it goes on with the answer. The same command
can be run on real files or on a folder in memory. -/
inductive Dialogue where
  /-- The end, with an exit code. -/
  | done (code : Nat)
  | print (shown : List Printed) (next : Dialogue)
  | readText (path : String) (next : Except AccessFault String → Dialogue)
  /-- Empties a file, or creates it if there is none. -/
  | create (path : String) (next : Except AccessFault Unit → Dialogue)
  /-- Writes bytes to the start of a file and cuts the file behind them. -/
  | store (path : String) (bytes : List UInt8) (next : Except StoreFault Unit → Dialogue)
  /-- Reads the time in milliseconds. -/
  | time (next : Nat → Dialogue)

end DataPlacement.CommandLine
