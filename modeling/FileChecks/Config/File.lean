import FileChecks.Config.Basic
import FileChecks.Yaml.Document

/-! Configuration files in a working directory. -/
namespace FileChecks

/-- Where a path leads, from the working directory: the names on the way down, or a way that leaves
the directory. -/
inductive Location
  | inside (names : List String)
  | outside (names : List String)
  deriving DecidableEq

namespace Location

/-- Takes one step. Two dots lead back up. -/
def step : Location → String → Location
  | l, "" | l, "." => l
  | inside [], ".." => outside []
  | inside names, ".." => inside names.dropLast
  | outside names, ".." => outside names.dropLast
  | inside names, name => inside (names ++ [name])
  | outside names, name => outside (names ++ [name])

/-- Where a path leads; a path that starts with a slash starts outside. -/
def ofText (path : String) : Location :=
  let steps := (Text.split '/' path.toList).map String.ofList
  steps.foldl step (if path.toList.head? == some '/' then outside [] else inside [])

end Location

/-- Files with their bytes, by the names that lead to them. -/
abbrev Files := List (List String × List UInt8)

inductive Found
  | nothing
  | directory
  | file (bytes : List UInt8)

namespace Files

def write (files : Files) (path : String) (bytes : List UInt8) : Files :=
  match Location.ofText path with
  | .inside names => (names, bytes) :: files.filter (·.1 != names)
  | .outside _ => files

/-- What is at a path. Outside the working directory there are only the directories above it. -/
def find (files : Files) (path : String) : Found :=
  match Location.ofText path with
  | .outside names => if names.isEmpty then .directory else .nothing
  | .inside names =>
    match files.lookup names with
    | some bytes => .file bytes
    | none =>
      if names.isEmpty || files.any fun f => names.isPrefixOf f.1 then .directory else .nothing

end Files

/-- Why a scalar of a file has no value, as a failure to load the file. -/
def Yaml.ScalarFault.failure (file : String) : Yaml.ScalarFault → Failure
  | .malformed => .config (.malformed file)
  | .noDigits base => .noDigits base
  | .tooLong count => .tooManyDigits count

def readSettings (file : String) (bytes : List UInt8) : Except Failure Entries :=
  match Text.decodeUtf8 bytes with
  | .error fault => .error (.encoding fault)
  | .ok cs =>
    match Yaml.read (Text.unifyLineEnds cs) with
    | .error fault => .error (fault.failure file)
    | .ok (.map entries) => .ok entries
    | .ok _ => .error (.config (.notMapping file))

/-- Settings of a file. A path with a NUL in it cannot even be looked for. -/
def loadSettings (files : Files) (file : String) : Except Failure Entries :=
  if file.toList.contains '\x00' then .error .nulInPath
  else
    match files.find file with
    | .nothing => .error (.config (.fileNotFound file))
    | .directory => .error (.config (.unreadable file))
    | .file bytes => readSettings file bytes

namespace Config

def loadFile (c : Config) (files : Files) (file : String) (l : Layer := Layer.file) :
    Except Failure Config := do
  let entries ← loadSettings files file
  return c.withLayer entries l

/-- A new configuration: built-in settings, those of a file unless its name is empty, and those of
the environment if they are asked for. -/
def new (files : Files) (environment : Environment) (file : Option String)
    (withEnvironment : Bool := true) : Except Failure Config := do
  let c ←
    match file with
    | some file => if file.isEmpty then pure initial else initial.loadFile files file
    | none => pure initial
  return if withEnvironment then c.readEnvironment environment else c

end Config
end FileChecks
