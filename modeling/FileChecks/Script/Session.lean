import FileChecks.NamedChecks

/-!
Scripts over the surroundings: steps that set variables and files, build and change configurations,
compile checks and test values. Configurations and compiled checks have ids, and an id that is given
again stands for the later one.
-/
namespace FileChecks.Script.Session

inductive Source
  | config (id : String)
  | file (name : String)
  | checks (entries : Entries)

inductive Step
  | environment (settings : List (String × Option String))
  | write (file : String) (bytes : List UInt8)
  | newConfig (id : String) (file : Option String) (withEnvironment : Bool)
  | loadConfig (id file : String) (layer : Layer)
  | getSetting (id key : String) (default : Value)
  | setSetting (id key : String) (v : Value) (layer : Layer)
  | globalConfig (id : Option String)
  | globalGet (key : String) (file : Option String)
  | cacheSettings (id : String)
  | applyConfig (id : String)
  | levels
  | setLevel (level : Value)
  | globalCache (settings : Option CacheSettings)
  | cacheStats
  | cacheHas (path : String)
  | cacheKeys
  | cacheClear
  | compile (id : String) (check : Value) (strict : Bool)
  | test (id : String) (file : Value)
  | same (id other : String)
  | tryCheck (file check : Value) (strict : Bool)
  | loadChecks (id : String) (source : Source)
  | getCheck (id : String) (name : Value) (source : Source)

inductive Answer
  | value (v : Value)
  | settings (s : CacheSettings)
  | named (checks : List (Value × Compiled))
  | outcome (o : Outcome)

/-- Why a step has no answer: an id that stands for nothing, or a failure. -/
inductive StepFault
  | unknownId (id : String)
  | failure (f : Failure)

structure State where
  ambient : Ambient
  configs : List (String × ConfigRef)
  checks : List (String × Compiled)

def State.initial : State := ⟨.initial, [], []⟩

abbrev StepM := ExceptT StepFault (StateM State)

def lift {α : Type} (run : Run α) : StepM α :=
  ExceptT.mk fun s =>
    let (r, ambient) := run.run s.ambient
    (r.mapError .failure, { s with ambient })

def effect {α : Type} (e : Effect α) : StepM α := lift (ExceptT.lift e)

def unit : Answer := .value .null

def configRef (id : String) : StepM ConfigRef := do
  match (← get).configs.lookup id with
  | some ref => return ref
  | none => throw (.unknownId id)

def compiled (id : String) : StepM Compiled := do
  match (← get).checks.lookup id with
  | some c => return c
  | none => throw (.unknownId id)

def bindConfig (id : String) (c : Config) : StepM Unit := do
  let ref ← effect (addConfig c)
  modify fun s => { s with configs := (id, ref) :: s.configs }

def bindCheck (id : String) (c : Compiled) : StepM Unit :=
  modify fun s => { s with checks := (id, c) :: s.checks }

def Source.resolve : Source → StepM CheckSource
  | .config id => return .config (← configRef id)
  | .file name => return .file name
  | .checks entries => return .checks entries

def levels : StepM Answer := do
  let r := (← get).ambient.registry
  return .value (.list [(r.level Registry.rulesName).toValue, (r.level Registry.cacheName).toValue])

def setVariable (e : Environment) : String × Option String → Environment
  | (name, some text) => e.set name text
  | (name, none) => e.unset name

def requireWritable (writable : Bool) : StepM Unit :=
  if writable then return () else throw (.failure .unwritable)

def subId (id : String) (name : Value) : StepM String := do
  requireWritable name.isWritable
  return id ++ "." ++ name.display

def shown (c : Compiled) : StepM Answer := do
  requireWritable c.assertion.isWritable
  return .value (.text c.assertion.repr)

def perform [Predicates] : Step → StepM Answer
  | .environment settings => do
    effect (modify fun a => { a with environment := settings.foldl setVariable a.environment })
    return unit
  | .write file bytes => do
    effect (modify fun a => { a with files := a.files.write file bytes })
    return unit
  | .newConfig id file withEnvironment => do
    let a := (← get).ambient
    let c ← lift (Run.ofExcept (Config.new a.files a.environment file withEnvironment))
    bindConfig id c
    return unit
  | .loadConfig id file layer => do
    lift (loadSettingsInto (← configRef id) file layer)
    return unit
  | .getSetting id key default => do
    let c ← effect (configOf (← configRef id))
    return .value (c.get key default)
  | .setSetting id key v layer => do
    lift (assignSetting (← configRef id) key v layer)
    return unit
  | .globalConfig id => do
    let ref ← id.mapM configRef
    effect (modify fun a => { a with globalConfig := ref })
    return unit
  | .globalGet key file => do
    let ref ← lift (globalConfigFrom file)
    let c ← effect (configOf ref)
    return .value (c.get key)
  | .cacheSettings id => do
    let c ← effect (configOf (← configRef id))
    let settings ← lift (Run.ofExcept c.cacheSettings)
    return .settings settings
  | .applyConfig id => do
    let c ← effect (configOf (← configRef id))
    lift (FileChecks.applyConfig c)
    levels
  | .levels => levels
  | .setLevel level => do
    lift (setLevels level)
    return unit
  | .globalCache settings => do
    let cache ← settings.mapM fun s => lift (Run.ofExcept (Lru.new s))
    effect (setCache cache)
    return unit
  | .cacheStats => do
    let cache ← lift compileCache
    return .value cache.stats.toValue
  | .cacheHas path => do
    let cache ← lift compileCache
    return .value (.bool (cache.has path))
  | .cacheKeys => do
    let cache ← lift compileCache
    return .value (.list (cache.keys.map .text))
  | .cacheClear => do
    let cache ← lift compileCache
    effect (setCache (some cache.clear))
    return unit
  | .compile id check strict => do
    let c ← lift (FileChecks.compile check strict)
    bindCheck id c
    shown c
  | .test id file => do
    let c ← compiled id
    return .outcome (c.assertion.call file)
  | .same id other => do
    let c ← compiled id
    let d ← compiled other
    return .value (.bool (c.number == d.number))
  | .tryCheck file check strict => do
    let o ← lift (matchFile file check strict)
    return .outcome o
  | .loadChecks id source => do
    let source ← source.resolve
    let named ← lift (FileChecks.loadChecks source)
    for (name, c) in named do
      bindCheck (← subId id name) c
    requireWritable (named.all fun e => e.1.isWritable && e.2.assertion.isWritable)
    return .named named
  | .getCheck id name source => do
    let source ← source.resolve
    match ← lift (FileChecks.getCheck source name) with
    | some c =>
      bindCheck id c
      shown c
    | none => return unit

/-- The outcome of a step, with the messages that were delivered. -/
structure Reply where
  result : Except StepFault Answer
  messages : List Message

/-- Reads a step, which may compile checks inside it, and performs it. -/
def State.attempt [Predicates] (s : State) (read : Run Step) : Reply × State :=
  let s := { s with ambient := { s.ambient with delivered := [] } }
  let (result, s) := (do perform (← lift read) : StepM Answer).run s
  (⟨result, s.ambient.delivered⟩, s)

end FileChecks.Script.Session
