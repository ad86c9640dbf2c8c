namespace DataPlacement.Toml

/-- What brought a table into being, which decides who may still add to it: a header may open a
table that was only implied, and a dotted key may add to tables that dotted keys made. -/
inductive Origin where
  /-- A header of its own, or the document itself. -/
  | header
  /-- The header of a table inside it. -/
  | implied
  /-- A dotted key. -/
  | dotted
  /-- A pair of braces. -/
  | closed
  deriving DecidableEq

/-- The value of a fraction does not matter here, but whether a double can hold it does. Dates
and times are kept without their value. A number may be unreadable: well formed but without a
value, as the mark of a base is without digits behind it. An array made by headers in double
brackets is marked as growing. -/
inductive Value where
  | text (s : String)
  | integer (i : Int)
  | unreadable
  | fraction (finite : Bool)
  | boolean (b : Bool)
  | moment
  | array (growing : Bool) (items : List Value)
  | table (origin : Origin) (entries : List (String × Value))

/-- Keys and values of a table in the order of their definition. -/
abbrev Entries := List (String × Value)

namespace Entries

def find? (es : Entries) (key : String) : Option Value :=
  (List.find? (fun e => e.1 == key) es).map (·.2)

/-- Another value under a key that is there. -/
def replace (es : Entries) (key : String) (v : Value) : Entries :=
  es.map fun e => if e.1 == key then (key, v) else e

/-- A value under a new key. -/
def add? (es : Entries) (key : String) (v : Value) : Option Entries :=
  if (es.find? key).isSome then none else some (es ++ [(key, v)])

/-- Changes the table that a path leads to. Missing tables on the way are made: by a dotted key
as dotted ones, else as implied ones. An array made by headers stands for its last table. -/
def within (dotted : Bool) (change : Origin → Entries → Option Entries) :
    (path : List String) → Origin → Entries → Option Entries
  | [], origin, es => change origin es
  | key :: path, _, es =>
    match es.find? key with
    | none => do
      let made := if dotted then .dotted else .implied
      return es ++ [(key, .table made (← within dotted change path made []))]
    | some (.table origin inner) =>
      if origin = .closed ∨ (dotted ∧ origin = .header) then none
      else do return es.replace key (.table origin (← within dotted change path origin inner))
    | some (.array true items) =>
      match items.getLast? with
      | some (.table origin inner) => do
        let last := .table origin (← within dotted change path origin inner)
        return es.replace key (.array true (items.dropLast ++ [last]))
      | _ => none
    | some _ => none

/-- Adds a value under a dotted key. Only a table that dotted keys made can be reached by one. -/
def assign (path : List String) (key : String) (v : Value) (es : Entries) : Option Entries :=
  within true (fun origin inner =>
    if path.isEmpty ∨ origin = .dotted then inner.add? key v else none) path .header es

/-- Opens the table of a header. It may have been implied before, but not defined. -/
def openTable (path : List String) (key : String) (es : Entries) : Option Entries :=
  within false (fun _ inner =>
    match inner.find? key with
    | none => some (inner ++ [(key, .table .header [])])
    | some (.table .implied es) => some (inner.replace key (.table .header es))
    | some _ => none) path .header es

/-- Adds one more table to the array of a header in double brackets. -/
def openElement (path : List String) (key : String) (es : Entries) : Option Entries :=
  let element : Value := .table .header []
  within false (fun _ inner =>
    match inner.find? key with
    | none => some (inner ++ [(key, .array true [element])])
    | some (.array true items) => some (inner.replace key (.array true (items ++ [element])))
    | some _ => none) path .header es

end Entries

end DataPlacement.Toml
