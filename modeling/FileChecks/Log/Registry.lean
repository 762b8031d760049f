import FileChecks.Log.Context
import FileChecks.Log.Level
import FileChecks.Value.Equality

/-!
Loggers and their channels. Every name has one channel, which holds the level and the outlets, and
any number of loggers may write to it. Channels form a tree by dotted names: one at level zero uses
the level of the channel above it, and `root` is at the top.
-/
namespace FileChecks

/-- A named channel. Only the topmost one has no parent. An outlet has the number of the logger that
it was made for. A channel either passes messages on to the channel above it or keeps them. -/
structure Channel where
  name : String
  level : Level
  parent : Option String
  outlets : List Nat
  passesOn : Bool

namespace Channel

def rootName : String := "root"

/-- Names above a dotted name, nearest first. A dot at the start of a name or right before another
dot that counts separates nothing. -/
def above (name : List Char) : List (List Char) :=
  go name.reverse
where
  go : List Char → List (List Char)
    | [] => []
    | c :: rest =>
      if c = '.' then
        match rest with
        | [] => []
        | d :: more => (d :: more).reverse :: go more
      else go rest

def isAbove (upper lower : String) : Bool := (above lower.toList).contains upper.toList

/-- A channel as a new logger sets it up: at its level, with one outlet in place of those it has,
and keeping its messages. -/
def setUp (c : Channel) (level : Level) (outlet : Nat) : Channel :=
  { c with level, outlets := [outlet], passesOn := false }

end Channel

/-- A logger: its number tells it apart from other loggers on the same channel. -/
structure Logger where
  number : Nat
  channel : String
  deriving DecidableEq

structure Message where
  severity : Severity
  channel : String
  text : String

/-- All channels, the loggers that are shared by name, the number of the next logger, and the
contexts that are in force, innermost first. -/
structure Registry where
  channels : List Channel
  shared : List (String × Logger)
  next : Nat
  contexts : List Context

namespace Registry

/-- Name of the channel of a logger; an empty name stands for the topmost channel. -/
def channelName (name : String) : String := if name.isEmpty then Channel.rootName else name

def channel? (r : Registry) (name : String) : Option Channel :=
  r.channels.find? (·.name == name)

def level (r : Registry) (name : String) : Level :=
  ((r.channel? name).map (·.level)).getD (.number 0)

def nearestAbove (r : Registry) (name : String) : String :=
  (((Channel.above name.toList).map String.ofList).find? fun n => (r.channel? n).isSome).getD
    Channel.rootName

/-- Puts a channel that is new over those below it, except over one whose parent has a name that
starts with the new name. -/
def adopt (name : String) (c : Channel) : Channel :=
  match c.parent with
  | some p =>
    if Channel.isAbove name c.name && !name.toList.isPrefixOf p.toList then
      { c with parent := some name }
    else c
  | none => c

/-- Makes sure that a channel exists; a new one is at level zero and has no outlet. -/
def ensure (r : Registry) (name : String) : Registry :=
  if (r.channel? name).isSome then r
  else
    { r with
      channels := r.channels.map (adopt name) ++
        [⟨name, .number 0, some (r.nearestAbove name), [], true⟩] }

def change (r : Registry) (name : String) (f : Channel → Channel) : Registry :=
  { r with channels := r.channels.map fun c => if c.name == name then f c else c }

def setLevel (r : Registry) (name : String) (level : Level) : Registry :=
  r.change name fun c => { c with level }

/-- The channel of a name and those above it, up to the topmost one. Apart from that one, each has a
shorter name than the one before. -/
def line (r : Registry) (name : String) : List Channel :=
  go (name.length + 2) name
where
  go : Nat → String → List Channel
    | 0, _ => []
    | fuel + 1, name =>
      match r.channel? name with
      | none => []
      | some c =>
        c :: match c.parent with
          | some p => go fuel p
          | none => []

/-- Rank in force on a channel: its own level, unless that is zero, else that of the nearest
channel above it with another one. -/
def effectiveRank (r : Registry) (name : String) : Int :=
  (((r.line name).map (·.level.rank)).find? (· ≠ 0)).getD 0

/-- Outlets that a message on a channel reaches: its own, and those of the channels above it as far
as messages are passed on. -/
def outlets (r : Registry) (name : String) : List Nat :=
  go (r.line name)
where
  go : List Channel → List Nat
    | [] => []
    | c :: above => c.outlets ++ if c.passesOn then go above else []

/-- Whether messages of a rank pass a channel. Ranks up to zero never pass. -/
def passes (r : Registry) (channel : String) (rank : Int) : Bool :=
  0 < rank && r.effectiveRank channel ≤ rank

/-- Whether messages of a level pass a channel, the level being any value. -/
def isEnabled (r : Registry) (channel : String) : Value → Except Failure Bool
  | .text s => do
    let severity ← Severity.ofName s
    return r.passes channel severity.rank
  | .int i => .ok (r.passes channel i)
  | .bool b => .ok (r.passes channel b.toInt)
  | .float x => .ok (!x.leInt 0 && x.geInt (r.effectiveRank channel))
  | v =>
    match v.unhashable? with
    | some typeName => .error (.unhashable typeName)
    | none => .error (.notOrdered v)

/-- The context of a message: what is in force, overridden by its own. -/
def contextOf (r : Registry) (own : Context) : Context :=
  (Context.merge r.contexts.reverse).update own

/-- The message that a channel passes on, if it does. Only then is its context written. -/
def message? (r : Registry) (channel : String) (severity : Severity) (text : String)
    (own : Context) : Except Failure (Option Message) :=
  if r.passes channel severity.rank then do
    let text ← (r.contextOf own).render text
    return some ⟨severity, channel, text⟩
  else return none

def addLogger (r : Registry) (name : String) (level : Level) : Registry × Logger :=
  let channel := channelName name
  let r := (r.ensure channel).change channel (·.setUp level r.next)
  ({ r with next := r.next + 1 }, ⟨r.next, channel⟩)

/-- Makes a logger. Its channel exists even if the level is none. -/
def newLogger (r : Registry) (name : String) (level : Value) : Registry × Except Failure Logger :=
  match Level.ofValue level with
  | .error e => (r.ensure (channelName name), .error e)
  | .ok level =>
    let (r, logger) := r.addLogger name level
    (r, .ok logger)

/-- The shared logger of a name. The first call for a name makes it. -/
def sharedLogger (r : Registry) (name : String) : Registry × Logger :=
  match r.shared.lookup name with
  | some logger => (r, logger)
  | none =>
    let (r, logger) := r.addLogger name (.ofSeverity .warning)
    ({ r with shared := r.shared ++ [(name, logger)] }, logger)

def setLevelOf (r : Registry) (logger : Logger) (level : Value) :
    Registry × Except Failure Unit :=
  match Level.ofValue level with
  | .ok level => (r.setLevel logger.channel level, .ok ())
  | .error f => (r, .error f)

/-- Sets the level of loggers one after the other, up to the first failure. -/
def setLevels (r : Registry) (level : Value) : List Logger → Registry × Except Failure Unit
  | [] => (r, .ok ())
  | logger :: rest =>
    match r.setLevelOf logger level with
    | (r, .ok ()) => r.setLevels level rest
    | failed => failed

def setSharedLevels (r : Registry) (level : Value) : Registry × Except Failure Unit :=
  r.setLevels level (r.shared.map (·.2))

def rulesName : String := "filematch.rules"

def cacheName : String := "filematch.cache"

def defaultName : String := "filematch"

def initial : Registry :=
  let r : Registry :=
    { channels := [⟨Channel.rootName, .ofSeverity .warning, none, [], true⟩], shared := []
      next := 0, contexts := [] }
  ((r.sharedLogger rulesName).1.sharedLogger cacheName).1

/-- Opens a block in which messages carry a context. -/
def push (r : Registry) (c : Context) : Registry :=
  { r with contexts := Context.update [] c :: r.contexts }

def pop (r : Registry) : Registry := { r with contexts := r.contexts.drop 1 }

end Registry
end FileChecks
