import DataPlacement.Scenario.Basic
import DataPlacement.Scenario.Size
import DataPlacement.Toml.Document

namespace DataPlacement.Scenario

open Toml (Value Entries)

/-- The number has at most `width` bits, one of them for the sign if it is negative. -/
def hasWidth (width : Nat) : Int → Bool
  | .ofNat n => n < bitRange width
  | .negSucc n => n < bitRange (width - 1)

mutual

/-- Every number in the value can be read and has at most `width` bits, and every fraction is
finite. -/
def fits (width : Nat) : Value → Bool
  | .integer i => hasWidth width i
  | .unreadable => false
  | .fraction finite => finite
  | .array _ items => fitsAll width items
  | .table _ entries => fitsEntries width entries
  | .text _ => true
  | .boolean _ => true
  | .moment => true

def fitsAll (width : Nat) : List Value → Bool
  | [] => true
  | v :: rest => fits width v && fitsAll width rest

def fitsEntries (width : Nat) : List (String × Value) → Bool
  | [] => true
  | (_, v) :: rest => fits width v && fitsEntries width rest

end

/-- Values that may stand under an unknown key. -/
def ignorable (v : Value) : Bool := fits 128 v

/-- Values that may stand in a step. -/
def ignorableInStep (v : Value) : Bool := fits 64 v

/-- A number of at most `width` bits without a sign. -/
def unsigned? (width : Nat) : Value → Option Nat
  | .integer (.ofNat n) => if n < bitRange width then some n else none
  | _ => none

def boolean? : Value → Option Bool
  | .boolean b => some b
  | _ => none

def text? : Value → Option String
  | .text s => some s
  | _ => none

/-- A byte count, from text or from a number of 64 bits. -/
def size? : Value → Option Nat
  | .text s => (Size.ofText s).toOption
  | .integer i => if hasWidth 64 i then (Size.ofInteger i).toOption else none
  | _ => none

/-- Named fields in their order, from a table or from an array. -/
inductive Fields where
  | named (entries : Entries)
  | ordered (items : List Value)

namespace Fields

/-- The value of the field at a place, if it is given. -/
def find? (f : Fields) (place : Nat) (key : String) : Option Value :=
  match f with
  | named entries => entries.find? key
  | ordered items => items[place]?

/-- A field that stands for `fallback` if it is not given. -/
def optional {α : Type} (f : Fields) (place : Nat) (key : String) (read : Value → Option α)
    (fallback : α) : Option α :=
  match f.find? place key with
  | none => some fallback
  | some v => read v

/-- A field that must be given. -/
def required {α : Type} (f : Fields) (place : Nat) (key : String) (read : Value → Option α) :
    Option α :=
  (f.find? place key).bind read

/-- A field that may be left out of a table, though not of an array. -/
def maybe {α : Type} (f : Fields) (place : Nat) (key : String) (read : Value → Option α) :
    Option (Option α) :=
  match f, f.find? place key with
  | named _, none => some none
  | ordered _, none => none
  | _, some v => (read v).map some

/-- Values under keys other than the known ones satisfy the condition. -/
def othersFit (f : Fields) (known : List String) (fine : Value → Bool) : Bool :=
  match f with
  | named entries => entries.all fun e => known.contains e.1 || fine e.2
  | ordered _ => true

/-- An array has no more than `count` items. -/
def hasAtMost (f : Fields) (count : Nat) : Bool :=
  match f with
  | named _ => true
  | ordered items => items.length ≤ count

/-- The fields of a section. -/
def ofValue? : Value → Option Fields
  | .table _ entries => some (named entries)
  | .array _ items => some (ordered items)
  | .moment => some (named [])
  | _ => none

end Fields

def deviceSection? (v : Value) : Option DeviceSection := do
  let f ← Fields.ofValue? v
  let standard : DeviceSection := {}
  let pageSize ← f.optional 0 "page_size" size? standard.pageSize
  let lineSize ← f.optional 1 "line_size" size? standard.lineSize
  let lines ← f.optional 2 "lines" (unsigned? 32) standard.lines
  let blockSize ← f.optional 3 "lba_size" size? standard.blockSize
  if f.othersFit ["page_size", "line_size", "lines", "lba_size"] ignorable then
    return ⟨pageSize, lineSize, lines, blockSize⟩
  else none

def placementSection? (v : Value) : Option PlacementSection := do
  let f ← Fields.ofValue? v
  let standard : PlacementSection := {}
  let groups ← f.optional 0 "nrg" (unsigned? 16) standard.groups
  let handles ← f.optional 1 "nruh" (unsigned? 16) standard.handles
  let enabled ← f.optional 2 "enabled" boolean? standard.enabled
  let trace ← f.optional 3 "trace" boolean? standard.trace
  if f.othersFit ["nrg", "nruh", "enabled", "trace"] ignorable then
    return ⟨groups, handles, enabled, trace⟩
  else none

/-- The number of fields of the step with a name; `none` for a name without a step. -/
def fieldCount? : (name : String) → Option Nat
  | "write" => some 5
  | "read" => some 2
  | "gc" | "reclaim" | "flip" => some 1
  | "enable" | "disable" | "reset_acct" | "check" | "report" => some 0
  | _ => none

/-- A step from its name and its fields. -/
def stepOf? (name : String) (f : Fields) : Option Step := do
  let count ← fieldCount? name
  if !f.hasAtMost count then none
  match name with
  | "write" =>
    let group ← f.optional 0 "rg" (unsigned? 16) 0
    let handle ← f.maybe 1 "ph" (unsigned? 16)
    let size ← f.required 2 "size" size?
    let count ← f.optional 3 "count" (unsigned? 32) 1
    let block ← f.optional 4 "slba" (unsigned? 64) 0
    return .write group handle size count block
  | "read" =>
    let block ← f.optional 0 "slba" (unsigned? 64) 0
    let size ← f.required 1 "size" size?
    return .read block size
  | "gc" => return .gc (← f.maybe 0 "budget" (unsigned? 64))
  | "reclaim" => return .reclaim (← f.required 0 "ru" (unsigned? 16))
  | "flip" => return .toggle (← f.required 0 "code" (unsigned? 64))
  | "enable" => return .enable
  | "disable" => return .disable
  | "reset_acct" => return .resetAccounting
  | "check" => return .check
  | _ => return .report

/-- A step. Its name stands under the key `op`, or comes first in an array. -/
def step? (v : Value) : Option Step :=
  if !ignorableInStep v then none
  else
    match v with
    | .table _ entries => do
      stepOf? (← (Toml.Entries.find? entries "op").bind text?) (.named entries)
    | .array _ (tag :: items) => do stepOf? (← text? tag) (.ordered items)
    | _ => none

def steps? : Value → Option (List Step)
  | .array _ items => items.mapM step?
  | _ => none

/-- A scenario from the entries of a document. Every part has a standard value. -/
def ofEntries? (entries : Entries) : Option Scenario := do
  let f := Fields.named entries
  let name ← f.maybe 0 "name" text?
  let device ← f.optional 1 "device" deviceSection? {}
  let placement ← f.optional 2 "fdp" placementSection? {}
  let steps ← f.optional 3 "steps" steps? []
  if f.othersFit ["name", "device", "fdp", "steps"] ignorable then
    return ⟨name, device, placement, steps⟩
  else none

/-- A scenario from the text of a document. Keys that are not known are passed over, but every
number in them must be one that the reader can hold. -/
def ofText? (text : String) : Option Scenario := (Toml.parse? text).bind ofEntries?

/-- A single step from a document that is the table of the step. -/
def stepOfText? (text : String) : Option Step :=
  (Toml.parse? text).bind fun entries => step? (.table .header entries)

/-- The name of a file without its directories and its last extension. A leading point starts
no extension, and a path that ends in two points names no file. -/
def fileStem? (path : String) : Option String :=
  let parts := (path.splitOn "/").filter fun part => part ≠ "" ∧ part ≠ "."
  match parts.getLast? with
  | none => none
  | some file =>
    if file = ".." then none
    else
      match (file.splitOn ".").reverse with
      | _ :: before :: more =>
        let stem := ".".intercalate (before :: more).reverse
        some (if stem = "" then file else stem)
      | _ => some file

/-- A scenario from a file; it is named after the file unless it has a name. -/
def ofFile? (path text : String) : Option Scenario :=
  (ofText? text).map fun s => { s with name := s.name.or (fileStem? path) }

end DataPlacement.Scenario
