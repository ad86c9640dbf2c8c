import DataPlacement.Line
import DataPlacement.Text.ByteCount

namespace DataPlacement.Scenario

/-- One action. Sizes are in bytes and blocks are logical block addresses. -/
inductive Step where
  /-- Writes `size` bytes `count` times in a row. Without a handle the write carries no
  placement. -/
  | write (group : Nat) (handle : Option Nat) (size count block : Nat)
  | read (block size : Nat)
  | enable
  | disable
  /-- Collects up to `budget` lines; no budget stands for every full line. -/
  | gc (budget : Option Nat)
  /-- Collects the full lines of one reclaim unit. -/
  | reclaim (unit : UnitId)
  /-- Sends the toggle command with any code. -/
  | toggle (code : Nat)
  | resetAccounting
  | check
  | report
  deriving DecidableEq

namespace Step

def name : Step → String
  | write _ (some _) _ _ _ => "write"
  | write _ none _ _ _ => "plain write"
  | read _ _ => "read"
  | enable => "enable"
  | disable => "disable"
  | gc _ => "gc"
  | reclaim _ => "reclaim"
  | toggle _ => "flip"
  | resetAccounting => "reset_acct"
  | check => "check"
  | report => "report"

def text (s : Step) : String :=
  match s with
  | write group (some handle) size count _ =>
    "write " ++ Text.byteCount size ++ s!" x{count} to rg {group} ph {handle}"
  | write _ none size count _ => "plain write " ++ Text.byteCount size ++ s!" x{count}"
  | read _ size => "read " ++ Text.byteCount size
  | gc (some budget) => s!"gc (budget {budget})"
  | reclaim unit => "reclaim " ++ UnitId.text unit
  | toggle code => s!"flip {code}"
  | _ => s.name

end Step

end DataPlacement.Scenario
