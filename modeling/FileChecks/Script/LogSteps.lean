import FileChecks.Log.Registry

/-! Scripts over loggers with ids. -/
namespace FileChecks.Script.LogSteps

inductive Step
  | new (id name : String) (level : Value)
  | get (id name : String)
  | setAll (level : Value)
  | setLevel (id : String) (level : Value)
  | log (severity : Severity) (id text : String) (own : Context)
  | push (id : String) (context : Context)
  | pop
  | enabled (id : String) (level : Value)
  | same (id other : String)

inductive StepFault
  | unknownId (id : String)
  | failure (f : Failure)

structure State where
  registry : Registry
  loggers : List (String × Logger)

def State.initial : State := ⟨.initial, []⟩

/-- The outcome of a step, with the message that was passed on and the outlets that delivered it. -/
structure Reply where
  result : Except StepFault Value
  message : Option Message := none
  outlets : List Nat := []

def done (v : Value) : Reply := { result := .ok v }

def failed (f : Failure) : Reply := { result := .error (.failure f) }

namespace State

def bindLogger (s : State) (id : String) (logger : Logger) : State :=
  { s with loggers := (id, logger) :: s.loggers }

def levelOf (s : State) (logger : Logger) : Value := (s.registry.level logger.channel).toValue

def withLogger (s : State) (id : String) (go : Logger → Reply × State) : Reply × State :=
  match s.loggers.lookup id with
  | some logger => go logger
  | none => ({ result := .error (.unknownId id) }, s)

def step (s : State) : Step → Reply × State
  | .new id name level =>
    match s.registry.newLogger name level with
    | (registry, .ok logger) =>
      let s := { s with registry }.bindLogger id logger
      (done (s.levelOf logger), s)
    | (registry, .error f) => (failed f, { s with registry })
  | .get id name =>
    let (registry, logger) := s.registry.sharedLogger name
    let s := { s with registry }.bindLogger id logger
    (done (s.levelOf logger), s)
  | .setAll level =>
    match s.registry.setSharedLevels level with
    | (registry, .ok ()) => (done .null, { s with registry })
    | (registry, .error f) => (failed f, { s with registry })
  | .setLevel id level =>
    s.withLogger id fun logger =>
      match s.registry.setLevelOf logger level with
      | (registry, .ok ()) =>
        let s := { s with registry }
        (done (s.levelOf logger), s)
      | (registry, .error f) => (failed f, { s with registry })
  | .log severity id text own =>
    s.withLogger id fun logger =>
      match s.registry.message? logger.channel severity text own with
      | .ok (some m) => (⟨.ok .null, some m, s.registry.outlets logger.channel⟩, s)
      | .ok none => (done .null, s)
      | .error f => (failed f, s)
  | .push id context =>
    s.withLogger id fun _ => (done .null, { s with registry := s.registry.push context })
  | .pop => (done .null, { s with registry := s.registry.pop })
  | .enabled id level =>
    s.withLogger id fun logger =>
      match s.registry.isEnabled logger.channel level with
      | .ok b => (done (.bool b), s)
      | .error f => (failed f, s)
  | .same id other =>
    s.withLogger id fun logger =>
      s.withLogger other fun otherLogger => (done (.bool (logger.number == otherLogger.number)), s)

end State
end FileChecks.Script.LogSteps
