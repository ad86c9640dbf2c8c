import DataPlacement.Audit.Report
import DataPlacement.Error

namespace DataPlacement.Scenario

/-- One constructor per cause; `inStep` tells at which step another cause arose. -/
inductive Failure where
  | notAligned (what : String) (size multiple : Nat)
  | tooLarge (step size : Nat)
  | invalidConfig (reason : String)
  | device (cause : Error)
  | toggleRefused (code : Nat) (status : Status)
  | checkFailed (report : Audit.Report)
  | emptyTransfer
  | transferTooLarge
  /-- A requested page was refused. -/
  | pageRefused (page : String) (status : Status)
  | inStep (index : Nat) (name : String) (cause : Failure)

namespace Failure

/-- The texts of a failure, the outermost first. -/
def chain : Failure → List String
  | notAligned what size multiple =>
    [s!"{what} of {size} bytes is not a multiple of {multiple}"]
  | tooLarge step size => [s!"step {step}: {size} bytes exceed one write command"]
  | invalidConfig reason => ["Invalid config: " ++ reason]
  | device cause => [cause.text]
  | toggleRefused code status => [s!"toggle {code} failed with status " ++ status.text]
  | checkFailed report => ["consistency check failed:\n" ++ report.text]
  | emptyTransfer => ["empty transfer"]
  | transferTooLarge =>
    ["write too large for one command", "out of range integral type conversion attempted"]
  | pageRefused page status => [page ++ " request failed with status " ++ status.text]
  | inStep index name cause => s!"step {index} ({name})" :: cause.chain

/-- The failure that started it all. -/
def root : Failure → Failure
  | inStep _ _ cause => cause.root
  | f => f

end Failure

end DataPlacement.Scenario
