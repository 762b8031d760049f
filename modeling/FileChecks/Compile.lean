import FileChecks.Ambient
import FileChecks.Check.Validation

/-!
Compiling checks. The parts of a list are compiled at once, while specs of fields are only read
when a record is tested, unless compilation is strict. Path checks are kept in the compile cache.
-/
namespace FileChecks

/-- The assertion of a path check: a name is compared with, and a pattern is matched. -/
def Assertion.ofPath (path : String) : Except Failure Assertion :=
  match Glob.Pattern.compile? path with
  | none => .error .expansionLimit
  | some p => .ok (if p.isMagic then .glob p else .name path)

def report (text : String) (own : Context) (severity : Severity := Severity.debug) : Run Unit :=
  submit Registry.rulesName severity text own

/-- Compiles a path check, or takes it from the cache. One that fails is not cached. -/
def compilePath (path : String) : Run Compiled := do
  let (cache, found) := (← compileCache).get path
  setCache (some cache)
  match found with
  | some compiled =>
    report "Path check cache hit" [("pattern", .text path)]
    return compiled
  | none =>
    let assertion ← Run.ofExcept (Assertion.ofPath path)
    let compiled ← newCompiled assertion
    report "Compiled path check" [("pattern", .text path), ("type", .text assertion.typeName)]
    let (cache, done) := cache.set path compiled
    setCache (some cache)
    Run.ofExcept done
    return compiled

def fieldNames (checks : Entries) : Except Failure String :=
  if checks.all (·.1.isWritable) then .ok (",".intercalate (checks.map (·.1.display)))
  else .error .unwritable

/-- Submits a message about a check of fields. Names are only written for a message that passes. -/
def reportFields (checks : Entries) : Run Unit := do
  if (← get).registry.passes Registry.rulesName Severity.debug.rank then
    let names ← Run.ofExcept (fieldNames checks)
    report "Compiling field check" [("fields", .text names)]

mutual

def compileLazy : Value → Run Compiled
  | .null => return ⟨anyFileNumber, .anyFile⟩
  | .text path => compilePath path
  | .predicate name action => newCompiled (.predicate name action)
  | .assertion a => newCompiled (.reused a)
  | .map checks => do
    reportFields checks
    newCompiled (.fields checks)
  | .list items => compileAny items items.length
  | .tuple items => compileAny items items.length
  | v => Run.ofExcept (.error (.checkKind v))

def compileAny (items : List Value) (count : Nat) : Run Compiled := do
  report "Compiling any-of check" [("items", .int count)]
  let assertions ← compileItems items
  newCompiled (.anyOf assertions)

def compileItems : List Value → Run (List Assertion)
  | [] => return []
  | v :: rest => do
    let first ← compileLazy v
    let others ← compileItems rest
    return first.assertion :: others

end

/-- Compiles a check description. Strict compilation reads every spec of a field first. -/
def compile (check : Value) (strict : Bool := false) : Run Compiled := do
  if strict then Run.ofExcept (validate check)
  compileLazy check

def matchFile [Predicates] (file check : Value) (strict : Bool := false) : Run Outcome := do
  let compiled ← compile check strict
  return compiled.assertion.call file

end FileChecks
