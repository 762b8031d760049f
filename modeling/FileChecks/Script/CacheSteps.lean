import FileChecks.Cache.Lru

/-! Scripts over one cache with values as keys. -/
namespace FileChecks.Script.CacheSteps

inductive Operation
  | get (key : Value)
  | set (key v : Value)
  | has (key : Value)
  | len
  | clear
  | stats
  | configure (maxEntries enabled : Option Value)

/-- A step makes a cache or uses the one that was made last. -/
inductive Step
  | new (settings : CacheSettings)
  | use (op : Operation)

abbrev State := Option (Lru Value Value)

def Operation.perform (c : Lru Value Value) : Operation → Lru Value Value × Except Failure Value
  | get key =>
    let (c, r) := c.getKey key
    (c, r.map (·.getD .null))
  | set key v =>
    let (c, r) := c.setKey key v
    (c, r.map fun _ => .null)
  | has key => (c, (c.hasKey key).map .bool)
  | len => (c, .ok (.int c.size))
  | clear => (c.clear, .ok .null)
  | stats => (c, .ok c.stats.toValue)
  | configure maxEntries enabled => (c.configure maxEntries enabled, .ok .null)

/-- Performs a step. If a new cache cannot be made the old one stays, and without a cache nothing
can be done. -/
def Step.perform (s : State) : Step → State × Except Failure Value
  | new settings =>
    match Lru.new settings with
    | .ok c => (some c, .ok .null)
    | .error f => (s, .error f)
  | use op =>
    match s with
    | none => (none, .ok .null)
    | some c =>
      let (c, r) := op.perform c
      (some c, r)

end FileChecks.Script.CacheSteps
