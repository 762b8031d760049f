import FileChecks.Assoc
import FileChecks.Failure

/-!
Context of messages: pairs of a name and a value. Later pairs override earlier ones, and a name
keeps the place where it first occurs.
-/
namespace FileChecks

abbrev Context := List (String × Value)

namespace Context

def update (c later : Context) : Context := Assoc.update c later

/-- All pairs of several contexts, from the outermost to the innermost. -/
def merge (contexts : List Context) : Context := contexts.foldl update []

def pairText (pair : String × Value) : String := pair.1 ++ "=" ++ pair.2.display

/-- A message with its context. Without pairs it stands alone. -/
def line (message : String) (c : Context) : String :=
  if c.isEmpty then message else message ++ " | " ++ " ".intercalate (c.map pairText)

def isWritable (c : Context) : Bool := c.all (·.2.isWritable)

def render (message : String) (c : Context) : Except Failure String :=
  if c.isWritable then .ok (line message c) else .error .unwritable

end Context
end FileChecks
