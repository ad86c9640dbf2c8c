import DataPlacement.CommandLine.Dialogue

namespace DataPlacement.CommandLine

open Session (Printed)

/-- Files with their contents. A file has the list of names that lead to it from the folder, from
directories above it (each of which is a `..` at the start), or from the root (a `/` at the
start). -/
structure Folder where
  files : List (List String × List UInt8) := []

/-- Devices keep none of the bytes that they take, and cannot be cut to a length. -/
inductive SpecialFile where
  /-- Is always empty. -/
  | null
  /-- Has zeros without an end. -/
  | zero
  /-- Has zeros without an end too, but takes no bytes. -/
  | full
  deriving DecidableEq

/-- What a path leads to. -/
inductive Place where
  | file (names : List String) (bytes : List UInt8)
  | special (kind : SpecialFile)
  | directory
  /-- Nothing yet, in a directory that exists. -/
  | vacant (here : List String) (name : String)
  | unreachable (fault : AccessFault)

/-- A longer name is refused, unless a file has it. -/
def maxNameBytes : Nat := 255

/-- A path of this many bytes is refused. -/
def pathBytesLimit : Nat := 4096

/-- The fault of a name that is not there. -/
def AccessFault.ofMissing (name : String) : AccessFault :=
  if maxNameBytes < name.utf8ByteSize then .nameTooLong else .notFound

namespace Folder

/-- The device that a list of names leads to. -/
def special? (names : List String) : Option SpecialFile :=
  if names = ["/", "dev", "null"] then some .null
  else if names = ["/", "dev", "zero"] then some .zero
  else if names = ["/", "dev", "full"] then some .full
  else none

/-- Directories of the root. -/
def rootDirectories : List String :=
  ["bin", "boot", "dev", "etc", "home", "lib", "media", "mnt", "opt", "proc", "root", "run",
    "sbin", "srv", "sys", "tmp", "usr", "var"]

/-- The device or the file that a list of names leads to. -/
def found? (f : Folder) (names : List String) : Option Place :=
  match special? names with
  | some kind => some (.special kind)
  | none => (f.files.lookup names).map (.file names)

/-- The folder itself or a directory above it. -/
def isAbove (names : List String) : Bool := names.all (· = "..")

def isDirectory (f : Folder) (names : List String) : Bool :=
  isAbove names || names = ["/"] || rootDirectories.any (fun name => names = ["/", name]) ||
    f.files.any fun (path, _) => names.isPrefixOf path && names ≠ path

/-- The directory above a directory. The root is above itself. -/
def parent (names : List String) : List String :=
  if isAbove names then ".." :: names
  else if names = ["/"] then names
  else names.dropLast

/-- Follows names from a directory; the last one may be missing. -/
def follow (f : Folder) (here : List String) : (names : List String) → Place
  | [] => .directory
  | name :: rest =>
    if name = "." then f.follow here rest
    else if name = ".." then f.follow (parent here) rest
    else
      let there := here ++ [name]
      match f.found? there with
      | some place => if rest = [] then place else .unreachable .notDirectory
      | none =>
        if f.isDirectory there then f.follow there rest
        else if rest = [] then .vacant here name
        else .unreachable (.ofMissing name)

/-- The names in a path. -/
def namesOf (path : String) : List String := (path.splitOn "/").filter (· ≠ "")

/-- What a path leads to from the folder, apart from slashes at its end. -/
def locate (f : Folder) (path : String) : Place :=
  if path = "" then .unreachable .notFound
  else if path.toList.contains '\x00' then .unreachable .zeroByte
  else if pathBytesLimit ≤ path.utf8ByteSize then .unreachable .nameTooLong
  else f.follow (if path.startsWith "/" then ["/"] else []) (namesOf path)

/-- The contents of a file. A path that ends in a slash means a directory. -/
def read (f : Folder) (path : String) : Except AccessFault (List UInt8) :=
  match f.locate path with
  | .file _ bytes => if path.endsWith "/" then .error .notDirectory else .ok bytes
  | .special kind =>
    if path.endsWith "/" then .error .notDirectory
    else if kind = .null then .ok []
    else .error .endless
  | .directory => .error .isDirectory
  | .vacant _ name => .error (.ofMissing name)
  | .unreachable fault => .error fault

/-- The text of a file. -/
def readText (f : Folder) (path : String) : Except AccessFault String :=
  match f.read path with
  | .error fault => .error fault
  | .ok bytes =>
    match String.fromUTF8? ⟨bytes.toArray⟩ with
    | some text => .ok text
    | none => .error .notText

/-- The folder after a file got new contents. -/
def put (f : Folder) (names : List String) (bytes : List UInt8) : Folder :=
  ⟨(names, bytes) :: f.files.filter (·.1 ≠ names)⟩

/-- Empties a file, or creates it in a directory that exists. No file is created or changed by a
path that ends in a slash. -/
def create (f : Folder) (path : String) : Except AccessFault Unit × Folder :=
  match f.locate path with
  | .unreachable fault => (.error fault, f)
  | .directory => (.error .isDirectory, f)
  | .special _ => if path.endsWith "/" then (.error .isDirectory, f) else (.ok (), f)
  | .file names _ =>
    if path.endsWith "/" then (.error .isDirectory, f) else (.ok (), f.put names [])
  | .vacant here name =>
    if path.endsWith "/" then (.error .isDirectory, f)
    else if maxNameBytes < name.utf8ByteSize then (.error .nameTooLong, f)
    else (.ok (), f.put (here ++ [name]) [])

/-- Gives a file that is there new contents. -/
def store (f : Folder) (path : String) (bytes : List UInt8) : Except StoreFault Unit × Folder :=
  match f.locate path with
  | .file names _ => (.ok (), f.put names bytes)
  | .special .full => (.error (.refused .noSpace), f)
  | .special _ => (.error (.uncut .invalidInput), f)
  | _ => (.error (.refused .notFound), f)

/-- A folder with files of given paths. -/
def ofFiles (files : List (String × List UInt8)) : Folder :=
  files.foldl (fun f (path, bytes) => f.put ((namesOf path).filter (· ≠ ".")) bytes) {}

end Folder

/-- A dialogue that was played: what it printed, the files it left, and its exit code. -/
structure Played where
  printed : List Printed
  folder : Folder
  code : Nat

/-- Plays a dialogue on a folder, with a clock that stands still. -/
def Dialogue.play (milliseconds : Nat) (f : Folder) : Dialogue → Played
  | done code => ⟨[], f, code⟩
  | print shown next =>
    let p := next.play milliseconds f
    { p with printed := shown ++ p.printed }
  | readText path next => (next (f.readText path)).play milliseconds f
  | create path next =>
    let (result, f) := f.create path
    (next result).play milliseconds f
  | store path bytes next =>
    let (result, f) := f.store path bytes
    (next result).play milliseconds f
  | time next => (next milliseconds).play milliseconds f

end DataPlacement.CommandLine
