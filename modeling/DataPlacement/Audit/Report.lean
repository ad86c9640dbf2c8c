import DataPlacement.Arithmetic
import DataPlacement.Text.Basic

namespace DataPlacement.Audit

inductive Severity where
  | info
  | warning
  | error
  deriving DecidableEq

def Severity.tag : Severity → String
  | info => "INFO"
  | warning => "WARN"
  | error => "ERR "

/-- One observation: a code to search for and a text to read. -/
structure Finding where
  severity : Severity
  code : String
  text : String
  deriving DecidableEq

/-- Findings in the order in which they were made. -/
structure Report where
  findings : List Finding := []

namespace Report

def hasError (r : Report) : Bool := r.findings.any (·.severity = .error)

def count (r : Report) (s : Severity) : Nat := r.findings.countP (·.severity = s)

/-- Codes of the error findings. -/
def errorCodes (r : Report) : List String :=
  (r.findings.filter (·.severity = .error)).map (·.code)

/-- One line per finding and a summary. -/
def text (r : Report) : String :=
  let lines := r.findings.map fun f =>
    f.severity.tag ++ ": " ++ Text.padRight 14 f.code ++ " " ++ f.text ++ "\n"
  String.join lines ++
    s!"Summary: errors={r.count .error}  warns={r.count .warning}  infos={r.count .info}"

end Report

/-- The four phases in the order in which they run. -/
inductive Phase where
  | partition
  | ownership
  | writePointers
  | counters
  deriving DecidableEq

namespace Phase

def all : List Phase := [partition, ownership, writePointers, counters]

/-- The bit that selects the phase. -/
def bit : Phase → Nat
  | partition => 0
  | ownership => 1
  | writePointers => 2
  | counters => 3

end Phase

/-- Which phases to run, as bits, and whether to stop after a phase with errors. -/
structure Options where
  phases : Nat := bitRange 32 - 1
  failFast : Bool := false

/-- Runs the selected ones of the phases in order. -/
def gather (findings : Phase → List Finding) (options : Options) : List Phase → Report → Report
  | [], r => r
  | phase :: rest, r =>
    if options.phases.testBit phase.bit then
      let r : Report := ⟨r.findings ++ findings phase⟩
      if options.failFast && r.hasError then r else gather findings options rest r
    else gather findings options rest r

/-- The report of a check, given the findings of each phase. -/
def report (findings : Phase → List Finding) (options : Options) : Report :=
  gather findings options Phase.all {}

end DataPlacement.Audit
