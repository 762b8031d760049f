import FileChecks.Failure

/-! Settings of a cache: how many entries it may hold and whether it is in use. -/
namespace FileChecks

/-- Settings of a cache. Both can be changed to any value while the cache is in use. -/
structure CacheSettings where
  maxEntries : Value := .int 256
  enabled : Value := .bool true

namespace CacheSettings

def wholeLimit? : Value → Option Int
  | .int i => some i
  | .bool b => some b.toInt
  | _ => none

/-- A new cache needs a positive whole number as its limit. -/
def validate (s : CacheSettings) : Except Failure Unit :=
  match wholeLimit? s.maxEntries with
  | some i => if 0 < i then .ok () else .error (Failure.cacheLimit s.maxEntries).raised
  | none => .error (Failure.cacheLimit s.maxEntries).raised

def isReached (s : CacheSettings) (count : Nat) : Except Failure Bool :=
  match s.maxEntries with
  | .int i => .ok (i ≤ count)
  | .bool b => .ok (b.toInt ≤ count)
  | .float x => .ok (x.leInt count)
  | v => .error (.notOrdered v)

def isEnabled (s : CacheSettings) : Bool := s.enabled.isTruthy

end CacheSettings
end FileChecks
