import DataPlacement.Toml.Scalar

namespace DataPlacement.Toml

mutual

/-- A value. Each call takes one of the steps, and each bracket one level of depth. -/
def value? : (steps depth : Nat) → Rest → Option (Value × Rest)
  | 0, _, _ => none
  | steps + 1, depth, cs =>
    match cs with
    | '[' :: cs =>
      match depth with
      | 0 => none
      | depth + 1 => items? steps depth [] cs
    | '\x7b' :: cs =>
      match depth with
      | 0 => none
      | depth + 1 => entries? steps depth [] cs
    | '\x22' :: _ => (string? cs).map fun (text, cs) => (.text (String.ofList text), cs)
    | '\x27' :: _ => (string? cs).map fun (text, cs) => (.text (String.ofList text), cs)
    | _ => scalar? cs

/-- The items of an array and its closing bracket. A comma may follow the last item. -/
def items? : (steps depth : Nat) → (before : List Value) → Rest → Option (Value × Rest)
  | 0, _, _, _ => none
  | steps + 1, depth, before, cs => do
    match ← skipLines false cs with
    | ']' :: cs => return (.array false before.reverse, cs)
    | cs =>
      let (v, cs) ← value? steps depth cs
      match ← skipLines false cs with
      | ',' :: cs => items? steps depth (v :: before) cs
      | ']' :: cs => return (.array false (v :: before).reverse, cs)
      | _ => none

/-- The entries of an inline table and its closing brace. Line ends are allowed wherever blanks
are, but not within a key, and a comma may follow the last entry. -/
def entries? : (steps depth : Nat) → (before : Entries) → Rest → Option (Value × Rest)
  | 0, _, _, _ => none
  | steps + 1, depth, before, cs => do
    match ← skipLines false cs with
    | '\x7d' :: cs => return (.table .closed before, cs)
    | cs =>
      let (path, key, cs) ← key? cs
      let '=' :: cs ← skipLines false cs | none
      let (v, cs) ← value? steps depth (← skipLines false cs)
      let before ← before.assign path key v
      match ← skipLines false cs with
      | ',' :: cs => entries? steps depth before cs
      | '\x7d' :: cs => return (.table .closed before, cs)
      | _ => none

end

/-- A document read so far: its entries, and the header under which it goes on. -/
structure Document where
  entries : Entries := []
  header : List String := []

namespace Document

/-- A line with a key and a value. -/
def assignment? (d : Document) (cs : Rest) : Option (Document × Rest) := do
  let (path, key, cs) ← key? cs
  let '=' :: cs := cs | none
  let (v, cs) ← value? (2 * cs.length + 2) maxDepth (skipSpaces cs)
  let entries ← Entries.within false (fun _ es => es.assign path key v) d.header .header d.entries
  return ({ d with entries := entries }, ← lineEnd? cs)

/-- The rest of a header, behind its opening bracket. -/
def header? (d : Document) (cs : Rest) : Option (Document × Rest) := do
  let (path, key, cs) ← key? cs
  let ']' :: cs := cs | none
  let entries ← d.entries.openTable path key
  return (⟨entries, path ++ [key]⟩, ← lineEnd? cs)

/-- The rest of a header in double brackets, behind the opening ones. -/
def element? (d : Document) (cs : Rest) : Option (Document × Rest) := do
  let (path, key, cs) ← key? cs
  let ']' :: ']' :: cs := cs | none
  let entries ← d.entries.openElement path key
  return (⟨entries, path ++ [key]⟩, ← lineEnd? cs)

/-- One line: a header, a key with its value, or nothing but a comment. -/
def line? (d : Document) (cs : Rest) : Option (Document × Rest) :=
  match skipSpaces cs with
  | '[' :: '[' :: cs => d.element? cs
  | '[' :: cs => d.header? cs
  | cs =>
    match lineEnd? cs with
    | some cs => some (d, cs)
    | none => d.assignment? cs

/-- All lines. A line is never empty, so the text bounds their number. -/
def lines? : (steps : Nat) → Document → Rest → Option Document
  | _, d, [] => some d
  | 0, _, _ => none
  | steps + 1, d, cs => do
    let (d, cs) ← d.line? cs
    lines? steps d cs

end Document

/-- Reads a document, which may start with a byte order mark. -/
def parse? (text : String) : Option Entries :=
  let cs := match text.toList with
    | '\ufeff' :: cs => cs
    | cs => cs
  (Document.lines? cs.length {} cs).map (·.entries)

end DataPlacement.Toml
