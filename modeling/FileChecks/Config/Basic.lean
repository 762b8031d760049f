import FileChecks.Cache.Settings
import FileChecks.Config.Environment
import FileChecks.Config.Tree

/-!
Layered configurations. A setting is looked up from the highest layer down, and null counts as
absent.
-/
namespace FileChecks

/-- Layers from the lowest to the highest. -/
inductive Layer
  | builtin | file | environment | override
  deriving DecidableEq, Repr

namespace Layer

def all : List Layer := [builtin, file, environment, override]

def memberName : Layer → String
  | builtin => "COMPILED_DEFAULTS"
  | file => "USER_CONFIG"
  | environment => "ENVIRONMENT"
  | override => "RUNTIME"

def number : Layer → Nat
  | builtin => 1
  | file => 2
  | environment => 3
  | override => 4

end Layer

structure Config where
  builtin : Entries
  file : Entries
  environment : Entries
  override : Entries

namespace Config

def builtinSettings : Entries :=
  [(.text Setting.root, .map [
    (.text "cache", .map [
      (.text "enabled", .bool true),
      (.text "max_entries", .int 256)]),
    (.text "logging", .map [
      (.text "level", .text "WARNING")]),
    (.text "checks", .map [])])]

def layer (c : Config) : Layer → Entries
  | .builtin => c.builtin
  | .file => c.file
  | .environment => c.environment
  | .override => c.override

def withLayer (c : Config) (entries : Entries) : Layer → Config
  | .builtin => { c with builtin := entries }
  | .file => { c with file := entries }
  | .environment => { c with environment := entries }
  | .override => { c with override := entries }

def initial : Config := ⟨builtinSettings, [], [], []⟩

def readEnvironment (c : Config) (e : Environment) : Config :=
  let sections := e.sections
  if sections.isEmpty then c else { c with environment := [(.text Setting.root, .map sections)] }

/-- Value that a layer holds at a path, unless that is null. -/
def held? (c : Config) (path : KeyPath) (l : Layer) : Option Value :=
  match (Value.map (c.layer l)).atPath? path with
  | some .null => none
  | v => v

/-- Value of a setting in the highest layer that holds one. -/
def get? (c : Config) (key : String) : Option Value :=
  Layer.all.reverse.findSome? (c.held? (KeyPath.ofText key))

def get (c : Config) (key : String) (default : Value := Value.null) : Value :=
  (c.get? key).getD default

def set (c : Config) (key : String) (v : Value) (l : Layer := Layer.override) :
    Except Failure Config :=
  match KeyPath.ofText key with
  | [] => .ok c
  | first :: rest => do
    let entries ← (c.layer l).putAt first v rest
    return c.withLayer entries l

/-- Sets a setting in one layer step by step; the configuration is what is left of it at the end,
whether or not the walk fails. -/
def assign (c : Config) (key : String) (v : Value) (l : Layer := Layer.override) :
    Except Failure Unit × Config :=
  match KeyPath.ofText key with
  | [] => (.ok (), c)
  | first :: rest =>
    let (done, entries) := (c.layer l).assignAt first v rest
    (done, c.withLayer entries l)

/-- Settings of the compile cache, both of which have to be as they should. -/
def cacheSettings (c : Config) : Except Failure CacheSettings :=
  match c.get Setting.cacheEnabled (.bool true) with
  | .bool enabled =>
    match c.get Setting.cacheMaxEntries ({} : CacheSettings).maxEntries with
    | .int i =>
      if 0 < i then .ok ⟨.int i, .bool enabled⟩
      else .error (Failure.config (.cacheSize (.int i))).raised
    | v => .error (Failure.config (.cacheSize v)).raised
  | v => .error (Failure.config (.cacheSwitch v)).raised

def checks (c : Config) : Value := c.get Setting.checks (.map [])

end Config
end FileChecks
