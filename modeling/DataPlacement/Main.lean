import DataPlacement.CommandLine.Program

namespace DataPlacement.CommandLine

/-- The fault behind an error of the system. -/
def AccessFault.ofError : IO.Error → AccessFault
  | .noFileOrDirectory .. => .notFound
  | .permissionDenied .. => .permissionDenied
  | .inappropriateType _ code _ => if code = 21 then .isDirectory else .notDirectory
  | .invalidArgument _ code _ =>
    if code = 36 then .nameTooLong else .other "Invalid argument (os error 22)"
  | .userError _ => .notText
  | e => .other (toString e)

/-- The fault behind an error of an opened file. -/
def fileFault : IO.Error → Host.FileFault
  | .permissionDenied .. => .permissionDenied
  | .invalidArgument .. => .invalidInput
  | .resourceExhausted .. => .noSpace
  | _ => .uncategorized

/-- The result of an action, with its error as a fault. -/
def attempt {α ε : Type} (fault : IO.Error → ε) (action : IO α) : IO (Except ε α) := do
  try return .ok (← action)
  catch e => return .error (fault e)

/-- Writes bytes to the start of a file and cuts the file behind them. -/
def store (path : String) (bytes : List UInt8) : IO (Except StoreFault Unit) := do
  let written ← attempt (.refused ∘ fileFault) do
    let file ← IO.FS.Handle.mk path .readWrite
    file.write ⟨bytes.toArray⟩
    file.flush
    return file
  match written with
  | .error fault => return .error fault
  | .ok file => attempt (.uncut ∘ fileFault) file.truncate

def showPrinted (p : Session.Printed) : IO Unit :=
  match p.stream with
  | .output => IO.print p.text
  | .diagnostics => IO.eprint p.text

/-- Plays a dialogue and answers its exit code. -/
def Dialogue.perform : Dialogue → IO UInt32
  | done code => return code.toUInt32
  | print shown next => do
    shown.forM showPrinted
    next.perform
  | readText path next => do (next (← attempt .ofError (IO.FS.readFile path))).perform
  | create path next => do
    (next (← attempt .ofError (IO.FS.writeBinFile path .empty))).perform
  | store path bytes next => do (next (← CommandLine.store path bytes)).perform
  | time next => do (next (← IO.monoMsNow)).perform

end DataPlacement.CommandLine

open DataPlacement in
/-- Colours are shown on a terminal that does not ask for none. Units are stamped with the
nanoseconds at which the program began. -/
def main (arguments : List String) : IO UInt32 := do
  let colours := (← IO.getEnv "NO_COLOR").isNone && (← (← IO.getStdout).isTty)
  let clock := Clock.steady (← IO.monoNanosNow) 1
  (CommandLine.program colours clock arguments).perform
