import FileChecks.Failure
import FileChecks.Text.LetterCase

/-! Severities of messages, and the levels from which loggers pass messages on. -/
namespace FileChecks

inductive Severity
  | debug | info | warning | error | critical
  deriving DecidableEq, Repr

namespace Severity

def all : List Severity := [debug, info, warning, error, critical]

def name : Severity → String
  | debug => "DEBUG"
  | info => "INFO"
  | warning => "WARNING"
  | error => "ERROR"
  | critical => "CRITICAL"

def rank : Severity → Int
  | debug => 10
  | info => 20
  | warning => 30
  | error => 40
  | critical => 50

def ofName (s : String) : Except Failure Severity :=
  let key := Text.upper s
  match all.find? (·.name == key) with
  | some severity => .ok severity
  | none => .error (.levelName key)

end Severity

/-- Least rank of the messages that pass. A truth value is kept as it is given and counts as one or
zero. -/
inductive Level
  | number (i : Int)
  | flag (b : Bool)
  deriving DecidableEq, Repr

namespace Level

def rank : Level → Int
  | number i => i
  | flag b => b.toInt

def ofSeverity (s : Severity) : Level := number s.rank

def ofValue : Value → Except Failure Level
  | .text s => (Severity.ofName s).map ofSeverity
  | .int i => .ok (number i)
  | .bool b => .ok (flag b)
  | v => .error (Failure.levelType v).raised

def toValue : Level → Value
  | number i => .int i
  | flag b => .bool b

end Level
end FileChecks
