import FileChecks.Assertion
import FileChecks.Cache.Lru
import FileChecks.Config.File
import FileChecks.Log.Registry

/-!
The surroundings in which checks are compiled: variables, files, configurations, the compile cache
and logging. An effect acts on them, and a run is an effect that may fail. What an effect has
changed stays changed when it fails.
-/
namespace FileChecks

/-- A compiled check with a number, by which it is the same as another or not. -/
structure Compiled where
  number : Nat
  assertion : Assertion

/-- Configurations are shared: whoever has the number of one sees what others change in it. -/
abbrev ConfigRef := Nat

/-- The surroundings. Without a compile cache one is built from the global configuration when it is
first needed, and without a global configuration that one is built from the environment. -/
structure Ambient where
  environment : Environment
  files : Files
  configs : List Config
  globalConfig : Option ConfigRef
  cache : Option (Lru String Compiled)
  registry : Registry
  nextNumber : Nat
  delivered : List Message

abbrev Effect := StateM Ambient

abbrev Run := ExceptT Failure Effect

/-- Number of the compiled check of every file, of which there is only one. -/
def anyFileNumber : Nat := 0

namespace Ambient

/-- Surroundings without variables, files, configurations and a cache. -/
def initial : Ambient :=
  { environment := [], files := [], configs := [], globalConfig := none, cache := none
    registry := .initial, nextNumber := anyFileNumber + 1, delivered := [] }

def config (a : Ambient) (ref : ConfigRef) : Config := a.configs[ref]?.getD .initial

end Ambient

def Run.ofExcept {α : Type} (r : Except Failure α) : Run α := ExceptT.mk (pure r)

def deliver (channel : String) (m : Message) : Effect Unit :=
  modify fun a =>
    { a with delivered := a.delivered ++ (a.registry.outlets channel).map fun _ => m }

/-- Submits a message to a channel. It is delivered if its severity passes. -/
def submit (channel : String) (severity : Severity) (text : String) (own : Context) : Run Unit := do
  match ← Run.ofExcept ((← get).registry.message? channel severity text own) with
  | some m => deliver channel m
  | none => return ()

def addConfig (c : Config) : Effect ConfigRef :=
  modifyGet fun a => (a.configs.length, { a with configs := a.configs ++ [c] })

def replaceConfig (ref : ConfigRef) (c : Config) : Effect Unit :=
  modify fun a => { a with configs := a.configs.set ref c }

def configOf (ref : ConfigRef) : Effect Config := do return (← get).config ref

def assignSetting (ref : ConfigRef) (key : String) (v : Value) (l : Layer := Layer.override) :
    Run Unit := do
  let (done, c) := (← configOf ref).assign key v l
  replaceConfig ref c
  Run.ofExcept done

/-- Replaces a layer of a configuration by the settings of a file. -/
def loadSettingsInto (ref : ConfigRef) (file : String) (l : Layer := Layer.file) : Run Unit := do
  let c ← configOf ref
  let c ← Run.ofExcept (c.loadFile (← get).files file l)
  replaceConfig ref c

/-- The global configuration. If there is none, one is built, from a file if it is given. -/
def globalConfigFrom (file : Option String) : Run ConfigRef := do
  let a ← get
  match a.globalConfig with
  | some ref => return ref
  | none =>
    let c ← Run.ofExcept (Config.new a.files a.environment file)
    let ref ← addConfig c
    modify fun a => { a with globalConfig := some ref }
    return ref

/-- The global configuration. One that has to be built has no file. -/
def globalConfig : Effect ConfigRef := do
  let a ← get
  match a.globalConfig with
  | some ref => return ref
  | none =>
    let ref ← addConfig (Config.initial.readEnvironment a.environment)
    modify fun a => { a with globalConfig := some ref }
    return ref

/-- The compile cache. Settings that are not as they should be are reported, and those of a new
cache take their place, unless their values cannot be written. -/
def compileCache : Run (Lru String Compiled) := do
  match (← get).cache with
  | some cache => return cache
  | none =>
    let c ← configOf (← globalConfig)
    let settings ←
      match c.cacheSettings with
      | .ok settings => pure settings
      | .error (.config fault) => do
        submit Registry.cacheName .warning "Invalid cache configuration, using defaults"
          [("error", .text fault.message)]
        pure ({} : CacheSettings)
      | .error f => Run.ofExcept (.error f)
    let cache := Lru.empty settings
    modify fun a => { a with cache := some cache }
    return cache

def setCache (cache : Option (Lru String Compiled)) : Effect Unit :=
  modify fun a => { a with cache }

def newCompiled (assertion : Assertion) : Effect Compiled :=
  modifyGet fun a => (⟨a.nextNumber, assertion⟩, { a with nextNumber := a.nextNumber + 1 })

end FileChecks
