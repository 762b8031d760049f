import FileChecks.Number.Numeral
import FileChecks.Text.LetterCase
import FileChecks.Text.Split
import FileChecks.Value.Equality

/-!
Environment variables, and the settings they hold. A variable `FILEMATCH_SECTION_KEY` holds the
setting of a key in a section.
-/
namespace FileChecks

/-- Variables with their texts, in the order in which they were first set. -/
abbrev Environment := List (String × String)

namespace Environment

def set (e : Environment) (name text : String) : Environment := Assoc.put e name text

def unset (e : Environment) (name : String) : Environment := e.filter (·.1 != name)

def leader : String := "FILEMATCH_"

/-- Words that stand for truth values, in any letter case. -/
def trueWords : List String := ["true", "yes", "on"]
def falseWords : List String := ["false", "no", "off"]

/-- Value that a text stands for: a truth value, a number, or the text itself. -/
def readValue (text : String) : Value :=
  if trueWords.contains (Text.lower text) then .bool true
  else if falseWords.contains (Text.lower text) then .bool false
  else
    match Numeral.int? text with
    | some i => .int i
    | none =>
      match Numeral.float? text with
      | some x => .float x
      | none => .text text

/-- Section and key of the setting that a variable holds, in lower case. The first underscore after
the leader ends the section. -/
def setting? (name : String) : Option (String × String) :=
  if leader.toList.isPrefixOf name.toList then
    let words := Text.lower (String.ofList (name.toList.drop leader.length))
    let (sectionName, key) := Text.cut '_' words.toList
    if sectionName.isEmpty || key.isEmpty then none
    else some (String.ofList sectionName, String.ofList key)
  else none

/-- Puts a setting into its section. Sections hold nothing but settings. -/
def putSetting (sections : Entries) (sectionName key : String) (v : Value) : Entries :=
  let settings :=
    match sections.textKey? sectionName with
    | some (.map settings) => settings
    | _ => []
  sections.put (.text sectionName) (.map (Entries.put settings (.text key) v))

def sections (e : Environment) : Entries :=
  e.foldl (fun sections (name, text) =>
    match setting? name with
    | some (sectionName, key) => putSetting sections sectionName key (readValue text)
    | none => sections) []

end Environment
end FileChecks
