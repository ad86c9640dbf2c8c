namespace DataPlacement.CommandLine

/-- What an option does. A valued option says which values it accepts. -/
inductive OptionKind where
  | flag
  | valued (accepts : String → Bool)
  | help
  | version

/-- An option of a command. -/
structure CommandOption where
  long : String
  short : Option Char := none
  kind : OptionKind

/-- Why arguments are refused. -/
inductive Refusal where
  | unexpected (argument : String)
  | missingValue (option : String)
  | needlessValue (option : String)
  | badValue (option value : String)
  | repeated (option : String)
  | conflict (first second : String)
  | unknownCommand (name : String)
  deriving DecidableEq

def Refusal.text : Refusal → String
  | unexpected argument => "unexpected argument '" ++ argument ++ "' found"
  | missingValue option => "a value is required for '--" ++ option ++ "' but none was supplied"
  | needlessValue option => "unexpected value for '--" ++ option ++ "' found; no more were expected"
  | badValue option value => "invalid value '" ++ value ++ "' for '--" ++ option ++ "'"
  | repeated option => "the argument '--" ++ option ++ "' cannot be used multiple times"
  | conflict first second =>
    "the argument '--" ++ first ++ "' cannot be used with '--" ++ second ++ "'"
  | unknownCommand name => "unrecognized subcommand '" ++ name ++ "'"

/-- Why the reading ends before the last argument. -/
inductive Stop where
  | help
  | version
  | refused (cause : Refusal)
  deriving DecidableEq

/-- Options read so far, by their long names and with their values; an option that waits for its
value; and whether two dashes have closed the options. -/
structure Reading where
  given : List (String × String) := []
  pending : Option CommandOption := none
  closed : Bool := false

namespace Reading

/-- Takes an option with its value, which is empty for a flag. An option is given once. -/
def accept (r : Reading) (o : CommandOption) (value : String) : Except Stop Reading :=
  if r.given.any (·.1 = o.long) then .error (.refused (.repeated o.long))
  else
    let taken : Reading := { r with given := (o.long, value) :: r.given, pending := none }
    match o.kind with
    | .valued accepts =>
      if accepts value then .ok taken else .error (.refused (.badValue o.long value))
    | _ => .ok taken

/-- An option without a value behind it. -/
def takeBare (r : Reading) (o : CommandOption) : Except Stop Reading :=
  match o.kind with
  | .help => .error .help
  | .version => .error .version
  | .flag => r.accept o ""
  | .valued _ => .ok { r with pending := some o }

/-- Reads the text behind two dashes. -/
def takeLong (options : List CommandOption) (r : Reading) (text : List Char) :
    Except Stop Reading :=
  let name := String.ofList (text.takeWhile (· ≠ '='))
  match options.find? (·.long = name), text.dropWhile (· ≠ '=') with
  | none, _ => .error (.refused (.unexpected ("--" ++ name)))
  | some o, [] => r.takeBare o
  | some o, _ :: value =>
    match o.kind with
    | .valued _ => r.accept o (String.ofList value)
    | _ => .error (.refused (.needlessValue o.long))

/-- Reads the text behind one dash: options, of which the first with a value takes the rest. -/
def takeShort (options : List CommandOption) (r : Reading) : List Char → Except Stop Reading
  | [] => .ok r
  | c :: rest =>
    match options.find? (·.short = some c) with
    | none => .error (.refused (.unexpected (String.ofList ['-', c])))
    | some o =>
      match o.kind, rest with
      | .valued _, '=' :: value => r.accept o (String.ofList value)
      | .valued _, _ :: _ => r.accept o (String.ofList rest)
      | _, _ => do takeShort options (← r.takeBare o) rest

/-- Reads one argument. A lone dash is a value like any other. -/
def take (options : List CommandOption) (r : Reading) (argument : String) :
    Except Stop Reading :=
  match r.closed, r.pending, argument.toList with
  | true, _, _ => .error (.refused (.unexpected argument))
  | _, some o, '-' :: _ :: _ => .error (.refused (.missingValue o.long))
  | _, some o, _ => r.accept o argument
  | _, none, ['-', '-'] => .ok { r with closed := true }
  | _, none, '-' :: '-' :: text => r.takeLong options text
  | _, none, '-' :: c :: text => r.takeShort options (c :: text)
  | _, none, _ => .error (.refused (.unexpected argument))

/-- No option waits for its value at the end. -/
def finish (r : Reading) : Except Stop (List (String × String)) :=
  match r.pending with
  | some o => .error (.refused (.missingValue o.long))
  | none => .ok r.given

end Reading

/-- The options among the arguments, all of which must be options. The first argument that is wrong,
or that asks for help or for the version, ends the reading. -/
def readOptions (options : List CommandOption) (arguments : List String) :
    Except Stop (List (String × String)) := do
  (← arguments.foldlM (Reading.take options) {}).finish

end DataPlacement.CommandLine
