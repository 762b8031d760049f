import FileChecks.Proofs.Compile.World

/-!
Which path checks compilation reaches. They are the leaves of a description in depth-first order,
up to the first that fails, and nothing but them uses the compile cache.
-/
namespace FileChecks

/-- A path check with the surroundings in which compilation reaches it. -/
structure Visit where
  path : String
  before : Ambient

namespace Visit

def result (v : Visit) : Except Failure Compiled := ((compilePath v.path).run.run v.before).1

def after (v : Visit) : Ambient := ((compilePath v.path).run.run v.before).2

def found? (v : Visit) : Option Compiled := v.before.cache.bind fun c => (c.get v.path).2

def succeeds (v : Visit) : Bool := v.found?.isSome || v.result.isOk

/-- Whether the path check gives an assertion that is made for it. -/
def compiles (v : Visit) : Bool := v.found?.isNone && v.result.isOk

end Visit

mutual

/-- The path checks that compiling a description reaches, in order. -/
def visits (a : Ambient) : Value → List Visit
  | .text path => [⟨path, a⟩]
  | .list items | .tuple items =>
    match (report "Compiling any-of check" [("items", .int items.length)]).run.run a with
    | (.ok _, b) => visitsIn b items
    | (.error _, _) => []
  | _ => []

def visitsIn (a : Ambient) : List Value → List Visit
  | [] => []
  | v :: rest =>
    visits a v ++
      match (compileLazy v).run.run a with
      | (.ok _, b) => visitsIn b rest
      | (.error _, _) => []

end

structure Call where
  check : Value
  strict : Bool

namespace Call

/-- The surroundings after a call, whether it succeeds or not. -/
def perform (a : Ambient) (call : Call) : Ambient :=
  ((compile call.check call.strict).run.run a).2

/-- The path checks that a call reaches. A strict one reads the whole description first. -/
def visits (a : Ambient) (call : Call) : List Visit :=
  match if call.strict then validate call.check else .ok () with
  | .ok _ => FileChecks.visits a call.check
  | .error _ => []

end Call

def performAll (a : Ambient) (calls : List Call) : Ambient := calls.foldl Call.perform a

def visitsOf (a : Ambient) : List Call → List Visit
  | [] => []
  | call :: rest => call.visits a ++ visitsOf (call.perform a) rest

/-! What is reached, read off the descriptions. -/

mutual

/-- The descriptions without elements that a description consists of, depth first. -/
def leaves : Value → List Value
  | .list items | .tuple items => leavesIn items
  | v => [v]

def leavesIn : List Value → List Value
  | [] => []
  | v :: rest => leaves v ++ leavesIn rest

end

/-- The elements up to the first of a kind, and that one. -/
def upToFirst {α : Type} (p : α → Bool) : List α → List α
  | [] => []
  | x :: rest => if p x then [x] else x :: upToFirst p rest

/-- The path checks among the leaves before the first that fails and that one. -/
def reached (check : Value) : List String :=
  (upToFirst (fun leaf => (fault? leaf).isSome) (leaves check)).filterMap Value.text?

namespace Call

/-- Whether the call is strict and fails as a description does, even if that cannot be told. -/
def isRejected (call : Call) : Bool :=
  match readTree? call.check call.strict with
  | .ok _ => false
  | .error .unwritable => call.strict
  | .error f => call.strict && f.isCheckError

def paths (call : Call) : List String := if call.isRejected then [] else reached call.check

end Call

theorem upToFirst_append {α : Type} (p : α → Bool) (xs ys : List α) :
    upToFirst p (xs ++ ys) =
      upToFirst p xs ++ if xs.any p then [] else upToFirst p ys := by
  induction xs with
  | nil => rfl
  | cons x xs ih =>
    cases hx : p x <;> simp [upToFirst, hx, ih]

mutual

theorem any_leaves (v : Value) :
    (leaves v).any (fun leaf => (fault? leaf).isSome) = (fault? v).isSome := by
  cases v with
  | list items | tuple items => exact any_leavesIn items
  | _ => exact Bool.or_false _

theorem any_leavesIn (items : List Value) :
    (leavesIn items).any (fun leaf => (fault? leaf).isSome) = (faultIn? items).isSome := by
  cases items with
  | nil => rfl
  | cons v rest =>
    rw [leavesIn, List.any_append, any_leaves v, any_leavesIn rest, faultIn?, Option.isSome_or]

end

theorem upToFirst_singleton {α : Type} (p : α → Bool) (x : α) : upToFirst p [x] = [x] :=
  ite_self [x]

/-- What is reached in surroundings as granted: paths as told, unless a message may fail. -/
structure Reaches (t : Terms) (vs : List Visit) (paths : List String) : Prop where
  fit : ∀ v ∈ vs, v.before.Fit t
  paths : vs.map (·.path) = paths ∨ t.mayFail

namespace Reaches
variable {t : Terms} {vs ws : List Visit} {paths others : List String}

theorem nil : Reaches t [] [] := ⟨nofun, Or.inl rfl⟩

theorem of_mayFail (h : t.mayFail) : Reaches t [] paths := ⟨nofun, Or.inr h⟩

theorem append (h : Reaches t vs paths) (h' : Reaches t ws others) :
    Reaches t (vs ++ ws) (paths ++ others) := by
  refine ⟨fun v hv => (List.mem_append.mp hv).elim (h.fit v) (h'.fit v), ?_⟩
  rcases h.paths with hpaths | hmay
  · exact h'.paths.imp_left fun hothers => by rw [List.map_append, hpaths, hothers]
  · exact Or.inr hmay

end Reaches

section visits
variable {t : Terms}

/-- Compiling fails with the fault of the description, if it has one, or because of a message. -/
theorem run_compileLazy_cases {a : Ambient} (ha : a.Fit t) {v : Value}
    (hv : t.told → v.canReport = true) :
    ((compileLazy v).run.run a).2.Fit t ∧
      ((∃ c, ((compileLazy v).run.run a).1 = .ok c ∧ fault? v = none) ∨
        (∃ f, ((compileLazy v).run.run a).1 = .error f ∧ fault? v = some f) ∨
        t.mayFail ∧ ((compileLazy v).run.run a).1 = .error .unwritable) := by
  obtain ⟨htree, hafter⟩ := ensures_compileLazy v hv a ha
  refine ⟨hafter, ?_⟩
  rcases htree with htree | hfails
  · cases h : ((compileLazy v).run.run a).1 with
    | ok c =>
      rw [h] at htree
      exact Or.inl ⟨c, rfl, fault?_of_tree? htree.symm⟩
    | error f =>
      rw [h] at htree
      exact Or.inr (Or.inl ⟨f, rfl, fault?_of_tree?_error htree.symm⟩)
  · exact Or.inr (Or.inr hfails)

mutual

theorem reaches_visits {a : Ambient} (ha : a.Fit t) (v : Value) (hv : t.told → v.canReport = true) :
    Reaches t (visits a v) (reached v) := by
  cases v with
  | text path =>
    refine ⟨List.forall_mem_singleton.mpr ha, Or.inl ?_⟩
    unfold reached leaves
    rw [upToFirst_singleton]
    rfl
  | list items | tuple items =>
    have hown : t.told → Context.isWritable [("items", .int items.length)] = true :=
      fun htold => Bool.and_eq_true_iff.mpr ⟨(Bool.and_eq_true_iff.mp (hv htold)).1, rfl⟩
    have hitems : t.told → Value.canReportAll items = true :=
      fun htold => (Bool.and_eq_true_iff.mp (hv htold)).2
    have hreport := ensures_report "Compiling any-of check" t.severity.debug_rank_le hown a ha
    revert hreport
    unfold visits
    rcases (report "Compiling any-of check" [("items", .int items.length)]).run.run a with
      ⟨f | _, b⟩
    · rintro ⟨h | ⟨hmay, -⟩, -⟩
      · cases h
      · exact .of_mayFail hmay
    · rintro ⟨-, hb⟩
      exact reaches_visitsIn hb items hitems
  | _ =>
    unfold reached leaves
    rw [upToFirst_singleton]
    exact .nil

theorem reaches_visitsIn {a : Ambient} (ha : a.Fit t) (items : List Value)
    (hv : t.told → Value.canReportAll items = true) :
    Reaches t (visitsIn a items)
      ((upToFirst (fun leaf => (fault? leaf).isSome) (leavesIn items)).filterMap Value.text?) := by
  cases items with
  | nil => exact .nil
  | cons v rest =>
    have hv' : t.told → v.canReport = true := fun htold => (Bool.and_eq_true_iff.mp (hv htold)).1
    have hrest : t.told → Value.canReportAll rest = true :=
      fun htold => (Bool.and_eq_true_iff.mp (hv htold)).2
    obtain ⟨hafter, hcases⟩ := run_compileLazy_cases ha hv'
    rw [leavesIn, upToFirst_append, any_leaves, List.filterMap_append, visitsIn]
    refine (reaches_visits ha v hv').append ?_
    revert hafter hcases
    rcases (compileLazy v).run.run a with ⟨r, b⟩
    rintro hafter (⟨c, rfl, hnone⟩ | ⟨f, rfl, hsome⟩ | ⟨hmay, rfl⟩)
    · rw [hnone]
      exact reaches_visitsIn hafter rest hrest
    · rw [hsome]
      exact .nil
    · exact .of_mayFail hmay

end

end visits

/-! Strict calls. -/

/-- A call is rejected if it is strict and reading its description fails. -/
theorem Call.isRejected_eq (call : Call) :
    call.isRejected = (call.strict && (strictFault? call.check).isSome) := by
  obtain ⟨check, strict⟩ := call
  cases strict with
  | false =>
    unfold isRejected
    rcases readTree? check false with f | tree
    · cases f <;> rfl
    · rfl
  | true =>
    unfold isRejected readTree?
    dsimp only
    rw [validate_eq_stopAt]
    cases hstrict : strictFault? check with
    | some f =>
      have hrejection := isRejection_of_strictFault? check hstrict
      cases f <;> first | rfl | exact hrejection.elim id nofun
    | none =>
      change (match tree? check with
        | .ok _ => false
        | .error .unwritable => true
        | .error f => true && f.isCheckError) = false
      cases htree : tree? check with
      | ok tree => rfl
      | error f =>
        rw [eq_expansionLimit_of_fault? check hstrict (fault?_of_tree?_error htree)]
        rfl

section calls
variable {a : Ambient} {t : Terms}

theorem Call.reaches_visits (ha : a.Fit t) (call : Call)
    (hcall : t.told → call.check.canReport = true) : Reaches t (call.visits a) call.paths := by
  have hlazy := FileChecks.reaches_visits ha call.check hcall
  rw [paths, isRejected_eq, visits, validate_eq_stopAt]
  cases call.strict with
  | false => exact hlazy
  | true =>
    cases strictFault? call.check with
    | some f => exact .nil
    | none => exact hlazy

theorem reaches_visitsOf (ha : a.Fit t) (calls : List Call)
    (hcalls : t.told → ∀ call ∈ calls, call.check.canReport = true) :
    Reaches t (visitsOf a calls) (calls.flatMap Call.paths) := by
  induction calls generalizing a with
  | nil => exact .nil
  | cons call rest ih =>
    have hcall := fun htold => hcalls htold call List.mem_cons_self
    have hafter : (call.perform a).Fit t := (ensures_compile call.check call.strict hcall a ha).2
    rw [visitsOf, List.flatMap_cons]
    exact (call.reaches_visits ha hcall).append
      (ih hafter fun htold c hc => hcalls htold c (List.mem_cons_of_mem _ hc))

end calls

/-! The compile cache from visit to visit. -/

/-- Visits lead from one cache to another: each finds the cache that the one before leaves. -/
inductive Trail : Option (Lru String Compiled) → List Visit → Option (Lru String Compiled) → Prop
  | stay (cache : Option (Lru String Compiled)) : Trail cache [] cache
  | visit {v : Visit} {vs : List Visit} {last : Option (Lru String Compiled)}
      (rest : Trail v.after.cache vs last) : Trail v.before.cache (v :: vs) last

namespace Trail
variable {first middle last : Option (Lru String Compiled)} {v : Visit} {vs ws : List Visit}

theorem eq_of_nil (h : Trail first [] last) : last = first := by
  cases h with
  | stay => rfl

theorem visit_inv (h : Trail first (v :: vs) last) :
    first = v.before.cache ∧ Trail v.after.cache vs last := by
  cases h with
  | visit rest => exact ⟨rfl, rest⟩

theorem append (h : Trail first vs middle) (h' : Trail middle ws last) :
    Trail first (vs ++ ws) last := by
  induction h with
  | stay => exact h'
  | visit _ ih => exact .visit (ih h')

theorem split (vs : List Visit) (h : Trail first (vs ++ ws) last) :
    ∃ middle, Trail first vs middle ∧ Trail middle ws last := by
  induction vs generalizing first with
  | nil => exact ⟨first, .stay first, h⟩
  | cons v vs ih =>
    obtain ⟨rfl, hrest⟩ := h.visit_inv
    obtain ⟨middle, hvs, hws⟩ := ih hrest
    exact ⟨middle, .visit hvs, hws⟩

end Trail

/-- Messages leave the cache as it is. -/
theorem cache_report (text : String) (own : Context) (severity : Severity) (a : Ambient) :
    ((report text own severity).run.run a).2.cache = a.cache := by
  obtain ⟨r, delivered, hrun, -⟩ := exists_run_submit Registry.rulesName severity text own a
  exact congrArg (fun after => after.2.cache) hrun

theorem cache_reportFields (checks : Entries) (a : Ambient) :
    ((reportFields checks).run.run a).2.cache = a.cache := by
  obtain ⟨r, delivered, hrun, -⟩ := exists_run_reportFields checks a
  rw [hrun]

/-- A run has the cache of its first part if the rest leaves the cache as it is. -/
theorem cache_run_bind {α β : Type} (m : Run α) {k : α → Run β}
    (hk : ∀ x b, ((k x).run.run b).2.cache = b.cache) (a : Ambient) :
    ((m >>= k).run.run a).2.cache = (m.run.run a).2.cache := by
  rcases hrun : m.run.run a with ⟨f | x, b⟩
  · rw [run_bind_of_error hrun]
  · rw [run_bind_of_ok hrun, hk]

mutual

theorem trail_visits (a : Ambient) (v : Value) :
    Trail a.cache (visits a v) ((compileLazy v).run.run a).2.cache := by
  cases v with
  | text path =>
    rw [compileLazy]
    exact .visit (v := ⟨path, a⟩) (.stay _)
  | map checks =>
    have hsame : (visits a (.map checks)) = [] := rfl
    rw [compileLazy, cache_run_bind _ fun _ _ => rfl, cache_reportFields, hsame]
    exact .stay _
  | list items | tuple items =>
    have hsame := cache_report "Compiling any-of check" [("items", .int items.length)] .debug a
    unfold visits
    rw [compileLazy, compileAny]
    rcases hrun : (report "Compiling any-of check" [("items", .int items.length)]).run.run a with
      ⟨f | _, b⟩
    · rw [hrun] at hsame
      rw [run_bind_of_error hrun, hsame]
      exact .stay _
    · rw [hrun] at hsame
      rw [run_bind_of_ok hrun, cache_run_bind (compileItems items) fun _ _ => rfl, ← hsame]
      exact trail_visitsIn b items
  | null | predicate | assertion =>
    rw [compileLazy]
    exact .stay _
  | _ =>
    rw [compileLazy]
    · exact .stay _
    all_goals nofun

theorem trail_visitsIn (a : Ambient) (items : List Value) :
    Trail a.cache (visitsIn a items) ((compileItems items).run.run a).2.cache := by
  cases items with
  | nil =>
    rw [compileItems]
    exact .stay _
  | cons v rest =>
    have hfirst := trail_visits a v
    rw [compileItems, visitsIn]
    rcases hrun : (compileLazy v).run.run a with ⟨f | c, b⟩
    · rw [hrun] at hfirst
      rw [run_bind_of_error hrun, List.append_nil]
      exact hfirst
    · rw [hrun] at hfirst
      rw [run_bind_of_ok hrun, cache_run_bind (compileItems rest) fun _ _ => rfl]
      exact hfirst.append (trail_visitsIn b rest)

end

theorem Call.trail_visits (a : Ambient) (call : Call) :
    Trail a.cache (call.visits a) (call.perform a).cache := by
  obtain ⟨check, strict⟩ := call
  unfold visits perform compile
  cases strict with
  | false => exact FileChecks.trail_visits a check
  | true =>
    dsimp only
    cases validate check with
    | error f => exact .stay _
    | ok _ => exact FileChecks.trail_visits a check

theorem trail_visitsOf (a : Ambient) (calls : List Call) :
    Trail a.cache (visitsOf a calls) (performAll a calls).cache := by
  induction calls generalizing a with
  | nil => exact .stay _
  | cons call rest ih => exact (call.trail_visits a).append (ih (call.perform a))

end FileChecks
