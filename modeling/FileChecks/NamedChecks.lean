import FileChecks.Compile

/-! Checks that a configuration names, and the settings that it applies. -/
namespace FileChecks

/-- Where named checks come from: a configuration, a file, or a map of names. -/
inductive CheckSource
  | config (ref : ConfigRef)
  | file (name : String)
  | checks (entries : Entries)

/-- The configuration of a source. A map of names takes nothing from the surroundings. -/
def CheckSource.resolve : CheckSource → Run Config
  | .config ref => configOf ref
  | .file name => do
    let a ← get
    Run.ofExcept (Config.new a.files a.environment (some name))
  | .checks entries => Run.ofExcept (Config.initial.set Setting.checks (.map entries))

def setLevels (level : Value) : Run Unit := do
  let (registry, done) := (← get).registry.setSharedLevels level
  modify fun a => { a with registry }
  Run.ofExcept done

/-- Applies the settings of logging and of the compile cache. -/
def applyConfig (c : Config) : Run Unit := do
  let settings ← Run.ofExcept c.cacheSettings
  setLevels (c.get Setting.logLevel (.text Severity.warning.name))
  let cache ← Run.ofExcept (Lru.new settings)
  setCache (some cache)

/-- Compiles named checks in order. A failure tells the name of the check. -/
def compileNamed : Entries → Run (List (Value × Compiled))
  | [] => return []
  | (name, check) :: rest => do
    let compiled ← ExceptT.adapt (·.inNamedCheck name) (compile check true)
    let others ← compileNamed rest
    return (name, compiled) :: others

def loadChecks (source : CheckSource) : Run (List (Value × Compiled)) := do
  let c ← source.resolve
  match c.checks with
  | .map entries =>
    let compiled ← compileNamed entries
    report "Loaded named checks" [("count", .int compiled.length)] .info
    return compiled
  | v => Run.ofExcept (.error (.config (.checks v)))

def getCheck (source : CheckSource) (name : Value) : Run (Option Compiled) := do
  let c ← source.resolve
  match c.checks with
  | .map entries =>
    match name.unhashable? with
    | some typeName => Run.ofExcept (.error (.unhashable typeName))
    | none =>
      match Entries.get? entries name with
      | some check => return some (← compile check true)
      | none => return none
  | _ => return none

end FileChecks
