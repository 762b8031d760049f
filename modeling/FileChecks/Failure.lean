import FileChecks.Number.Numeral
import FileChecks.Text.Utf8
import FileChecks.Value.Printer

/-! Why an operation fails, by cause, and the message of each cause. -/
namespace FileChecks

inductive ErrorCode
  | invalidInput | notFound | internalError
  deriving DecidableEq, Repr

namespace ErrorCode

def all : List ErrorCode := [invalidInput, notFound, internalError]

def name : ErrorCode → String
  | invalidInput => "INVALID_INPUT"
  | notFound => "NOT_FOUND"
  | internalError => "INTERNAL_ERROR"

def number : ErrorCode → Nat
  | invalidInput => 1
  | notFound => 2
  | internalError => 6

end ErrorCode

/-- What is wrong with a configuration or the file it comes from. -/
inductive ConfigFault
  | fileNotFound (file : String)
  | unreadable (file : String)
  | malformed (file : String)
  | notMapping (file : String)
  | cacheSwitch (v : Value)
  | cacheSize (v : Value)
  | checks (v : Value)

/-- Keys of the settings that the library reads. -/
def Setting.root : String := "filematch"
def Setting.cacheEnabled : String := "filematch.cache.enabled"
def Setting.cacheMaxEntries : String := "filematch.cache.max_entries"
def Setting.logLevel : String := "filematch.logging.level"
def Setting.checks : String := "filematch.checks"

namespace ConfigFault

def code : ConfigFault → ErrorCode
  | fileNotFound _ => .notFound
  | unreadable _ => .internalError
  | _ => .invalidInput

def message : ConfigFault → String
  | fileNotFound file => "Config file not found: " ++ file
  | unreadable file => "Error loading config " ++ file
  | malformed file => "YAML parse error in " ++ file
  | notMapping file => "Invalid config format in " ++ file
  | cacheSwitch v => Setting.cacheEnabled ++ " must be a boolean, got " ++ v.repr
  | cacheSize v => Setting.cacheMaxEntries ++ " must be a positive integer, got " ++ v.repr
  | checks v => Setting.checks ++ " must be a mapping, got " ++ v.typeName

end ConfigFault

def encodingMessage (f : Text.EncodingFault) : String :=
  "'utf-8' codec can't decode " ++
    (if f.first = f.last then
      "byte 0x" ++ String.ofList (Text.hexDigits 2 f.byte.toNat) ++ " in position " ++
        toString f.first
    else "bytes in position " ++ toString f.first ++ "-" ++ toString f.last) ++
    ": " ++ f.fault.reason

/-- Why an operation fails. The description of a named check fails with its cause, and a text that
would show a number that is too long is `unwritable`. -/
inductive Failure
  | checkKind (check : Value)
  | fieldSpec (spec field : Value)
  | expansionLimit
  | predicate (message : String)
  | config (fault : ConfigFault)
  | nulInPath
  | encoding (fault : Text.EncodingFault)
  | noDigits (base : Nat)
  | tooManyDigits (count : Nat)
  | cacheLimit (v : Value)
  | cacheDrained
  | unhashable (typeName : String)
  | fieldName (name : Value)
  | noEntries (container : Value)
  | noSections (container : Value)
  | notOrdered (v : Value)
  | levelName (name : String)
  | levelType (v : Value)
  | unwritable
  | namedCheck (name : Value) (cause : Failure)

namespace Failure

def specKinds : String := "`boolean`, `string`, or `object`"

def className : Failure → String
  | checkKind _ => "InvalidCheckKind"
  | fieldSpec _ _ => "InvalidFieldSpecKind"
  | expansionLimit => "ExpansionLimitException"
  | predicate _ => "RuntimeError"
  | config _ => "ConfigError"
  | encoding _ => "UnicodeDecodeError"
  | cacheLimit _ | nulInPath | noDigits _ | tooManyDigits _ | unwritable => "ValueError"
  | cacheDrained | levelName _ => "KeyError"
  | noSections _ => "AttributeError"
  | unhashable _ | fieldName _ | noEntries _ | notOrdered _ | levelType _ => "TypeError"
  | namedCheck _ cause => cause.className

/-- Message about a number with more digits than there may be, and how many it has. -/
def digitLimitMessage (found : String) : String :=
  "Exceeds the limit (" ++ toString Numeral.maxDigits ++
    " digits) for integer string conversion" ++ found ++
    "; use sys.set_int_max_str_digits() to increase the limit"

/-- Message about a container that takes no entry with a text as key. -/
def noEntriesMessage : Value → String
  | .list items => (Value.list items).typeName ++ " indices must be integers or slices, not str"
  | .buffer bs => (Value.buffer bs).typeName ++ " indices must be integers or slices, not str"
  | v => "'" ++ v.qualifiedTypeName ++ "' object does not support item assignment"

def message : Failure → String
  | checkKind check =>
    "Expected function, string, array, or object as test, got " ++ check.typeName
  | fieldSpec spec field =>
    "Invalid spec `" ++ spec.repr ++ "`" ++
      (match field with
        | .null => ""
        | field => " for field `" ++ field.display ++ "`") ++
      ", expected " ++ specKinds
  | expansionLimit =>
    "Brace expansion has exceeded the limit of " ++ toString Glob.Brace.limit
  | predicate m => m
  | config fault => fault.message
  | nulInPath => "embedded null byte"
  | encoding fault => encodingMessage fault
  | noDigits base => "invalid literal for int() with base " ++ toString base ++ ": ''"
  | tooManyDigits count => digitLimitMessage (": value has " ++ toString count ++ " digits")
  | unwritable => digitLimitMessage ""
  | cacheLimit v => "max_entries must be positive: " ++ v.display
  | cacheDrained => "dictionary is empty"
  | unhashable typeName => "unhashable type: '" ++ typeName ++ "'"
  | fieldName name => "attribute name must be string, not '" ++ name.qualifiedTypeName ++ "'"
  | noEntries v => noEntriesMessage v
  | noSections v => "'" ++ v.qualifiedTypeName ++ "' object has no attribute 'setdefault'"
  | notOrdered v =>
    "'>=' not supported between instances of 'int' and '" ++ v.qualifiedTypeName ++ "'"
  | levelName name => name
  | levelType v => "Level not an integer or a valid string: " ++ v.repr
  | namedCheck _ cause => cause.message

def code? : Failure → Option ErrorCode
  | checkKind _ | fieldSpec _ _ => some .invalidInput
  | config fault => some fault.code
  | namedCheck _ cause => cause.code?
  | _ => none

/-- Name of the field that a failure is about, if it is about a spec. -/
def field? : Failure → Option Value
  | fieldSpec _ field => some field
  | namedCheck _ cause => cause.field?
  | _ => none

def isCheckError : Failure → Bool
  | checkKind _ | fieldSpec _ _ => true
  | _ => false

def notes : Failure → List String
  | namedCheck name cause => cause.notes ++ ["In named check " ++ name.repr]
  | _ => []

def isWritable : Failure → Bool
  | fieldSpec spec field => spec.isWritable && field.isWritable
  | config (.cacheSwitch v) | config (.cacheSize v) | cacheLimit v | levelType v => v.isWritable
  | namedCheck name cause => name.isWritable && cause.isWritable
  | _ => true

/-- What an operation fails with when it writes down why it fails. -/
def raised (f : Failure) : Failure := if f.isWritable then f else unwritable

/-- A failure of the description of a named check tells its name. -/
def inNamedCheck (name : Value) (f : Failure) : Failure :=
  if f.isCheckError then (namedCheck name f).raised else f

end Failure
end FileChecks
