import FileChecks.Proofs.Check.Nesting
import FileChecks.Proofs.Compile.World
import FileChecks.Proofs.Value.Entries

/-!
What a test reads of a record: whether it has the two marker fields, the fields of path checks, and
those that the description names.
-/
namespace FileChecks

namespace Value

theorem isFile_eq (v : Value) :
    v.isFile = (v.hasField Field.messages && v.hasField Field.history) := by
  cases v <;> rfl

def mapOf (fields : List (String × Value)) : Value := .map (fields.map fun f => (.text f.1, f.2))

theorem field?_mapOf (fields : List (String × Value)) (name : String) :
    (mapOf fields).field? name = (object fields).field? name := by
  change Entries.textKey? (fields.map fun f => (text f.1, f.2)) name = fields.lookup name
  induction fields with
  | nil => rfl
  | cons field rest ih =>
    have hkey : (text field.1 == text name) = (name == field.1) := by
      rw [beq_text]
      exact Bool.beq_comm
    rw [List.map_cons, Entries.textKey?_cons, List.lookup_cons, hkey, ih]
    cases name == field.1 <;> rfl

/-- Two records have the same at a key. An object fails at a key that is no text. -/
def SameAt (r s : Value) : Value → Prop
  | text name => r.field? name = s.field? name
  | key => r.lookup key = s.lookup key

def SameForPaths (r s : Value) : Prop :=
  ∀ name ∈ [Field.path, Field.basename, Field.extname], r.field? name = s.field? name

/-- Two records answer a description alike, not counting what is nested in it. -/
def SameFor [Predicates] (r s : Value) : Value → Prop
  | map entries => ∀ e ∈ entries, r.SameAt s e.1
  | predicate _ action => (action.run r).map isTruthy = (action.run s).map isTruthy
  | assertion a => (a.call r).result = (a.call s).result
  | _ => True

end Value

section Congruence
variable {r s : Value}

theorem lookup_congr {key : Value} (h : r.SameAt s key) : r.lookup key = s.lookup key := by
  cases key with
  | text name =>
    have hfield : r.field? name = s.field? name := h
    rw [Value.lookup_text, Value.lookup_text, hfield]
  | _ => exact h

theorem passes_congr {key : Value} (h : r.SameAt s key) (spec : Value) :
    passes r key spec = passes s key spec := by
  have hlookup := lookup_congr h
  cases spec <;> simp only [passes, hlookup]

theorem passesAll_congr {entries : Entries} (h : ∀ e ∈ entries, r.SameAt s e.1) :
    passesAll r entries = passesAll s entries := by
  induction entries with
  | nil => rfl
  | cons entry rest ih =>
    obtain ⟨hentry, hrest⟩ := List.forall_mem_cons.mp h
    simp only [passesAll, passes_congr hentry, ih hrest]

theorem holdsPath_congr (h : r.SameForPaths s) (path : String) :
    holdsPath r path = holdsPath s path := by
  have hpath := h Field.path (by simp)
  have hbasename := h Field.basename (by simp)
  have hextname := h Field.extname (by simp)
  simp only [holdsPath, Value.getField, hpath, hbasename, hextname]

theorem Outcome.result_orElse (o next : Outcome) :
    (o.orElse next).result =
      match o.result with
      | .ok false => next.result
      | result => result := by
  rcases o with ⟨f | _ | _, calls⟩ <;> rfl

mutual

theorem evaluate_congr [Predicates] (hpaths : r.SameForPaths s) (v : Value)
    (h : Everywhere (r.SameFor s) v) : (evaluate r v).result = (evaluate s v).result := by
  obtain ⟨hself, hitems⟩ := everywhere_iff.mp h
  cases v with
  | text path => exact congrArg Except.ok (holdsPath_congr hpaths path)
  | predicate name action => exact hself
  | assertion a => exact hself
  | map entries => exact passesAll_congr hself
  | list items | tuple items => exact evaluateAny_congr hpaths items hitems
  | _ => rfl

theorem evaluateAny_congr [Predicates] (hpaths : r.SameForPaths s) (items : List Value)
    (h : ∀ v ∈ items, Everywhere (r.SameFor s) v) :
    (evaluateAny r items).result = (evaluateAny s items).result := by
  cases items with
  | nil => rfl
  | cons v rest =>
    obtain ⟨hfirst, hrest⟩ := List.forall_mem_cons.mp h
    have heq := evaluate_congr hpaths v hfirst
    have heqs := evaluateAny_congr hpaths rest hrest
    simp only [evaluateAny, Outcome.result_orElse, heq, heqs]

end

end Congruence

/-- What a tree says of a value is what the description says, if the value is a file. -/
theorem result_call_of_tree? [Predicates] {check : Value} {tree : Assertion}
    (h : tree? check = .ok tree) (v : Value) :
    (tree.call v).result = if v.isFile then (evaluate v check).result else .ok false := by
  rw [call_of_tree? h, apply_ite Outcome.result]
  rfl

/-- A check has the same result for two records of any shape that have or lack the markers alike,
agree on the fields of path checks and at the keys that the check names, and for which its
predicates have the same results. Nothing else of the records matters. -/
theorem result_call_congr [Predicates] {before after : List Act} {check r s : Value} {c : Compiled}
    (hc : World.result before (compile check) = .ok c)
    (hmessages : r.hasField Field.messages = s.hasField Field.messages)
    (hhistory : r.hasField Field.history = s.hasField Field.history)
    (hpaths : r.SameForPaths s) (hcheck : Everywhere (r.SameFor s) check) :
    World.Yields after check (compile check) fun d =>
      (c.assertion.call r).result = (d.assertion.call s).result := by
  have htree : tree? check = .ok c.assertion := World.readTree?_of_result hc
  have hfile : r.isFile = s.isFile := by
    rw [Value.isFile_eq, Value.isFile_eq, hmessages, hhistory]
  refine (World.yields_of_tree? after htree).mono fun d hsame => ?_
  rw [hsame, result_call_of_tree? htree, result_call_of_tree? htree, hfile,
    evaluate_congr hpaths check hcheck]

theorem result_call_congr_map_object :
    ∃ c, World.result []
        (compile (.list [.text "*.md", .list [.map [(.text "stem", .text "readme")]],
          .predicate (some "isDraft") (.has "draft")])) = .ok c ∧
      ∃ d, World.result []
        (compile (.list [.text "*.md", .list [.map [(.text "stem", .text "readme")]],
          .predicate (some "isDraft") (.has "draft")])) = .ok d ∧
        (c.assertion.call (Value.mapOf [("messages", .list []), ("history", .null),
          ("stem", .text "readme")])).result =
        (d.assertion.call (.object [("size", .int 3), ("history", .int 0),
          ("stem", .text "readme"), ("messages", .text "read")])).result := by
  have hfault : (fault? (.list [.text "*.md", .list [.map [(.text "stem", .text "readme")]],
      .predicate (some "isDraft") (.has "draft")])).isNone = true := by decide +kernel
  obtain ⟨tree, htree⟩ := exists_tree?_iff.mpr (Option.isNone_iff_eq_none.mp hfault)
  obtain ⟨c, hc, -⟩ := (World.yields_of_tree? [] htree).exists_of_writes (World.writes_nil _)
  have hsame : World.Yields [] _ _ _ := result_call_congr hc
    (r := Value.mapOf [("messages", .list []), ("history", .null), ("stem", .text "readme")])
    (s := .object [("size", .int 3), ("history", .int 0), ("stem", .text "readme"),
      ("messages", .text "read")])
    (by decide +kernel) (by decide +kernel) ?_ (everywhere_iff.mpr ⟨trivial, ?_⟩)
  · exact ⟨c, hc, hsame.exists_of_writes (World.writes_nil _)⟩
  · intro name hname
    simp only [List.mem_cons, List.not_mem_nil, or_false] at hname
    rw [Value.field?_mapOf]
    rcases hname with rfl | rfl | rfl <;> rfl
  · intro item hitem
    simp only [Value.items, List.mem_cons, List.not_mem_nil, or_false] at hitem
    rcases hitem with rfl | rfl | rfl
    · exact everywhere_iff.mpr ⟨trivial, nofun⟩
    · refine everywhere_iff.mpr ⟨trivial, fun item hitem => ?_⟩
      rw [List.mem_singleton.mp hitem]
      refine everywhere_iff.mpr ⟨fun e he => ?_, nofun⟩
      rw [List.mem_singleton.mp he]
      exact Value.field?_mapOf _ _
    · refine everywhere_iff.mpr ⟨?_, nofun⟩
      unfold Value.SameFor
      with_unfolding_all rfl

/-- A key that is no text sets a map apart from an object, even if they have the same fields. -/
theorem result_call_differs_at_number :
    (∀ name, (Value.mapOf [("messages", .list []), ("history", .list [])]).field? name =
      (Value.object [("messages", .list []), ("history", .list [])]).field? name) ∧
    ∃ c, World.result [] (compile (.map [(.int 1, .bool true)])) = .ok c ∧
      (c.assertion.call (Value.mapOf [("messages", .list []), ("history", .list [])])).result =
        .ok false ∧
      (c.assertion.call (.object [("messages", .list []), ("history", .list [])])).result =
        .error (.fieldName (.int 1)) := by
  refine ⟨Value.field?_mapOf _, ?_⟩
  have htree : tree? (.map [(.int 1, .bool true)]) = .ok (.fields [(.int 1, .bool true)]) := rfl
  obtain ⟨c, hc, hsame⟩ := (World.yields_of_tree? [] htree).exists_of_writes (World.writes_nil _)
  refine ⟨c, hc, ?_, ?_⟩
  · rw [hsame, result_call_of_tree? htree]
    with_unfolding_all rfl
  · rw [hsame, result_call_of_tree? htree]
    rfl

end FileChecks
