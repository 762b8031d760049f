import FileChecks.Cache.Settings
import FileChecks.Value.Equality

/-!
A cache that evicts the least recently used entries. Entries are in the order of their last use,
which is the last time they were set or found.
-/
namespace FileChecks

/-- A cache with its entries, the least recently used first, and its counters. -/
structure Lru (κ ν : Type) where
  settings : CacheSettings
  entries : List (κ × ν)
  hits : Nat
  misses : Nat
  evictions : Nat

namespace Lru
variable {κ ν : Type}

def empty (settings : CacheSettings) : Lru κ ν := ⟨settings, [], 0, 0, 0⟩

def new (settings : CacheSettings) : Except Failure (Lru κ ν) := do
  settings.validate
  return empty settings

def keys (c : Lru κ ν) : List κ := c.entries.map (·.1)

def size (c : Lru κ ν) : Nat := c.entries.length

def clear (c : Lru κ ν) : Lru κ ν := empty c.settings

def configure (c : Lru κ ν) (maxEntries enabled : Option Value) : Lru κ ν :=
  { c with settings := ⟨maxEntries.getD c.settings.maxEntries, enabled.getD c.settings.enabled⟩ }

/-- Evicts from the front as long as the limit is reached. If it is reached even without entries,
there is no room at all. -/
def makeRoom (c : Lru κ ν) : List (κ × ν) → Nat → Lru κ ν × Except Failure Unit
  | [], evictions =>
    let c := { c with entries := [], evictions }
    match c.settings.isReached 0 with
    | .ok true => (c, .error .cacheDrained)
    | .ok false => (c, .ok ())
    | .error e => (c, .error e)
  | e :: rest, evictions =>
    match c.settings.isReached (rest.length + 1) with
    | .ok true => makeRoom c rest (evictions + 1)
    | .ok false => ({ c with entries := e :: rest, evictions }, .ok ())
    | .error f => ({ c with entries := e :: rest, evictions }, .error f)

variable [BEq κ]

def find? (c : Lru κ ν) (k : κ) : Option (κ × ν) := c.entries.find? (·.1 == k)

def has (c : Lru κ ν) (k : κ) : Bool := (c.find? k).isSome

def erase (c : Lru κ ν) (k : κ) : Lru κ ν := { c with entries := c.entries.eraseP (·.1 == k) }

/-- Looks a key up. A hit makes its entry the most recently used one. -/
def get (c : Lru κ ν) (k : κ) : Lru κ ν × Option ν :=
  match if c.settings.isEnabled then c.find? k else none with
  | some (key, v) =>
    ({ c.erase k with entries := (c.erase k).entries ++ [(key, v)], hits := c.hits + 1 }, some v)
  | none => ({ c with misses := c.misses + 1 }, none)

/-- Sets the value of a key and makes it the most recently used one; does nothing if the cache is
not in use. -/
def set (c : Lru κ ν) (k : κ) (v : ν) : Lru κ ν × Except Failure Unit :=
  if c.settings.isEnabled then
    match (c.erase k).makeRoom (c.erase k).entries c.evictions with
    | (c, .ok ()) => ({ c with entries := c.entries ++ [(k, v)] }, .ok ())
    | failed => failed
  else (c, .ok ())

end Lru

structure CacheStats where
  entries : Nat
  maxEntries : Value
  hits : Nat
  misses : Nat
  evictions : Nat
  hitRate : Binary64

/-- Hits among all look-ups; zero before the first one. -/
def hitRate (hits misses : Nat) : Binary64 :=
  if hits + misses = 0 then .zero false else .ofRatio false hits (hits + misses)

def Lru.stats {κ ν : Type} (c : Lru κ ν) : CacheStats :=
  ⟨c.size, c.settings.maxEntries, c.hits, c.misses, c.evictions, hitRate c.hits c.misses⟩

def CacheStats.toValue (s : CacheStats) : Value :=
  .map [
    (.text "entries", .int s.entries),
    (.text "max_entries", s.maxEntries),
    (.text "hits", .int s.hits),
    (.text "misses", .int s.misses),
    (.text "evictions", .int s.evictions),
    (.text "hit_rate", .float s.hitRate)]

/-! Caches whose keys are values. Some values cannot be keys. -/
namespace Lru
variable {ν : Type}

/-- Runs an operation on a key, unless the value cannot be one. -/
def withKey {α : Type} (c : Lru Value ν) (key : Value) (run : Lru Value ν × Except Failure α) :
    Lru Value ν × Except Failure α :=
  match key.unhashable? with
  | some typeName => (c, .error (.unhashable typeName))
  | none => run

/-- Looks a value up. A cache that is not in use never looks at the key. -/
def getKey (c : Lru Value ν) (key : Value) : Lru Value ν × Except Failure (Option ν) :=
  let (c', found) := c.get key
  if c.settings.isEnabled then c.withKey key (c', .ok found) else (c', .ok found)

def setKey (c : Lru Value ν) (key : Value) (v : ν) : Lru Value ν × Except Failure Unit :=
  if c.settings.isEnabled then c.withKey key (c.set key v) else (c, .ok ())

def hasKey (c : Lru Value ν) (key : Value) : Except Failure Bool :=
  (c.withKey key (c, .ok (c.has key))).2

end Lru
end FileChecks
