import FileChecks.Proofs.Compile.Coherence

/-!
What can happen before a check is compiled. Callers change variables, files, configurations,
logging and the compile cache, and compile other checks, in any order.
-/
namespace FileChecks

/-- The surroundings, and the caches that callers hold but that are not in use. -/
structure World where
  ambient : Ambient
  spare : List (Lru String Compiled)

/-- What a caller does. A cache is only put to use, looked up in and cleared; what is set in it,
compilation sets. -/
inductive Act
  | environment (e : Environment)
  | files (files : Files)
  | configs (configs : List Config)
  | logging (r : Registry)
  | setLevel (level : Value)
  | globalConfig (ref : Option ConfigRef)
  | applyConfig (c : Config)
  | newCache (settings : CacheSettings)
  | globalCache (place : Option Nat)
  | buildCache
  | lookUp (path : String)
  | clear
  | convert (check : Value) (strict : Bool)
  | tryMatch (file check : Value) (strict : Bool)
  | loadChecks (source : CheckSource)
  | getCheck (source : CheckSource) (name : Value)

namespace World

def initial : World := ⟨.initial, []⟩

/-- The world after a run in the surroundings, whether it succeeds or not. -/
def after {α : Type} (w : World) (m : Run α) : World :=
  { w with ambient := (m.run.run w.ambient).2 }

/-- Puts a spare cache to use, or none, and spares the one in use. -/
def useCache (w : World) (place : Option Nat) : World where
  ambient := { w.ambient with cache := place.bind (w.spare[·]?) }
  spare := place.elim w.spare w.spare.eraseIdx ++ w.ambient.cache.toList

/-- No cache holds anything that compilation does not give. -/
structure Coherent (w : World) : Prop where
  ambient : w.ambient.Coherent
  spare : ∀ c ∈ w.spare, c.Sound

variable {w : World}

theorem Coherent.after {α : Type} (hw : w.Coherent) {m : Run α} (hm : KeepsCoherent m) :
    (w.after m).Coherent := ⟨hm w.ambient hw.ambient, hw.spare⟩

theorem Coherent.useCache (hw : w.Coherent) (place : Option Nat) : (w.useCache place).Coherent := by
  constructor
  · intro c hc
    obtain ⟨i, -, hi⟩ := Option.bind_eq_some_iff.mp hc
    exact hw.spare c (List.mem_of_getElem? hi)
  · intro c hc
    rcases List.mem_append.mp hc with hc | hc
    · refine hw.spare c ?_
      cases place with
      | none => exact hc
      | some i => exact List.mem_of_mem_eraseIdx hc
    · exact hw.ambient c (Option.mem_toList.mp hc)

/-- A run fails if what its result is turned into is a failure. -/
theorem eq_error_of_map {α β : Type} {r : Except Failure α} {g : α → β} {f : Failure}
    (h : r.map g = .error f) : r = .error f := by
  cases r with
  | error e => rw [Except.error.inj h]
  | ok x => cases h

variable [Predicates]

def perform (w : World) : Act → World
  | .environment e => w.after (modify fun a => { a with environment := e })
  | .files files => w.after (modify fun a => { a with files })
  | .configs configs => w.after (modify fun a => { a with configs })
  | .logging r => w.after (modify fun a => { a with registry := r })
  | .setLevel level => w.after (setLevels level)
  | .globalConfig ref => w.after (modify fun a => { a with globalConfig := ref })
  | .applyConfig c => w.after (applyConfig c)
  | .newCache settings =>
    match Lru.new settings with
    | .ok cache => { w with spare := w.spare ++ [cache] }
    | .error _ => w
  | .globalCache place => w.useCache place
  | .buildCache => w.after compileCache
  | .lookUp path => w.after do setCache (some ((← compileCache).get path).1)
  | .clear => w.after do setCache (some (← compileCache).clear)
  | .convert check strict => w.after (compile check strict)
  | .tryMatch file check strict => w.after (matchFile file check strict)
  | .loadChecks source => w.after (FileChecks.loadChecks source)
  | .getCheck source name => w.after (FileChecks.getCheck source name)

def reach (acts : List Act) : World := acts.foldl perform initial

theorem Coherent.perform (hw : w.Coherent) (act : Act) : (w.perform act).Coherent := by
  cases act with
  | environment | files | configs | logging | globalConfig => exact ⟨hw.ambient, hw.spare⟩
  | setLevel level => exact hw.after (.setLevels level)
  | applyConfig c => exact hw.after (.applyConfig c)
  | newCache settings =>
    simp only [World.perform]
    cases h : Lru.new (κ := String) (ν := Compiled) settings with
    | error f => exact hw
    | ok cache =>
      refine ⟨hw.ambient, fun c hc => ?_⟩
      rcases List.mem_append.mp hc with hc | hc
      · exact hw.spare c hc
      · exact List.mem_singleton.mp hc ▸ sound_of_new h
  | globalCache place => exact hw.useCache place
  | buildCache => exact hw.after (.of_ensures (ensures_compileCache _))
  | lookUp path =>
    refine hw.after (.of_ensures (p := fun _ => True)
      ((ensures_compileCache _).seq (fun c hc => ?_) fun _ _ => trivial))
    obtain ⟨c', heq, hc'⟩ := hc
    obtain rfl := Except.ok.inj heq
    exact Ensures.effect fun a ha => ⟨trivial, ha.setCache (hc'.get path).1⟩
  | clear =>
    refine hw.after (.of_ensures (p := fun _ => True)
      ((ensures_compileCache _).seq (fun c hc => ?_) fun _ _ => trivial))
    obtain ⟨c', heq, hc'⟩ := hc
    obtain rfl := Except.ok.inj heq
    exact Ensures.effect fun a ha => ⟨trivial, ha.setCache (Lru.Sound.empty hc'.limit)⟩
  | convert check strict => exact hw.after (.compile check strict)
  | tryMatch file check strict =>
    exact hw.after (.of_ensures (ensures_matchFile file check strict nofun))
  | loadChecks source => exact hw.after (.loadChecks source)
  | getCheck source name => exact hw.after (.getCheck source name)

theorem Coherent.foldl_perform (hw : w.Coherent) (acts : List Act) :
    (acts.foldl World.perform w).Coherent := by
  induction acts generalizing w with
  | nil => exact hw
  | cons act acts ih => exact ih (hw.perform act)

theorem coherent_reach (acts : List Act) : (reach acts).Coherent := by
  have hinitial : initial.Coherent := ⟨nofun, nofun⟩
  exact hinitial.foldl_perform acts

/-- What a run results in after a caller has done several things. -/
def result {α : Type} (acts : List Act) (m : Run α) : Except Failure α :=
  (m.run.run (reach acts).ambient).1

/-- Whether everything that compiling a check reports can be written then. -/
def Writes (acts : List Act) (check : Value) : Prop :=
  (reach acts).ambient.Writes .debug (check.canReport = true)

/-- A run about a check results in something as told, or else a message about the check cannot be
written and the run fails because of it. -/
def Yields {α : Type} (acts : List Act) (check : Value) (m : Run α) (post : α → Prop) : Prop :=
  (∃ x, result acts m = .ok x ∧ post x) ∨
    ¬ Writes acts check ∧ result acts m = .error .unwritable

/-- A run that is fine on all terms is so after anything that a caller does. -/
theorem result_of_ensures {α : Type} {m : Run α} {post : Except Failure α → Prop} (acts : List Act)
    {severity : Severity} {told : Prop}
    (hm : Ensures ((reach acts).ambient.terms severity told) m post) :
    post (result acts m) ∨
      ¬ (reach acts).ambient.Writes severity told ∧ result acts m = .error .unwritable :=
  (hm _ ((coherent_reach acts).ambient.fit severity told)).1

theorem map_result_compile (acts : List Act) (check : Value) (strict : Bool) :
    (result acts (compile check strict)).map (·.assertion) = readTree? check strict ∨
      ¬ Writes acts check ∧ result acts (compile check strict) = .error .unwritable :=
  result_of_ensures acts (ensures_compile check strict id)

/-- A compiled check has the tree of its description. -/
theorem readTree?_of_result {acts : List Act} {check : Value} {strict : Bool} {c : Compiled}
    (h : result acts (compile check strict) = .ok c) : readTree? check strict = .ok c.assertion := by
  rcases map_result_compile acts check strict with htree | ⟨-, hfails⟩
  · rw [← htree, h]
    rfl
  · cases h.symm.trans hfails

/-- A description with a tree is compiled to it. -/
theorem yields_of_readTree? (acts : List Act) {check : Value} {strict : Bool} {tree : Assertion}
    (h : readTree? check strict = .ok tree) :
    Yields acts check (compile check strict) fun c => c.assertion = tree := by
  refine (map_result_compile acts check strict).imp_left fun htree => ?_
  cases hresult : result acts (compile check strict) with
  | error f =>
    rw [hresult, h] at htree
    cases htree
  | ok c =>
    rw [hresult, h] at htree
    exact ⟨c, rfl, Except.ok.inj htree⟩

theorem yields_of_tree? (acts : List Act) {check : Value} {tree : Assertion}
    (h : tree? check = .ok tree) : Yields acts check (compile check) fun c => c.assertion = tree :=
  yields_of_readTree? acts h

theorem Yields.mono {α : Type} {acts : List Act} {check : Value} {m : Run α} {p q : α → Prop}
    (h : Yields acts check m p) (hpq : ∀ x, p x → q x) : Yields acts check m q :=
  h.imp_left fun ⟨x, hx, hp⟩ => ⟨x, hx, hpq x hp⟩

/-- Compiling a check and testing a value by it is interpreting the check on the value, unless a
message about the check cannot be written. -/
theorem result_matchFile (acts : List Act) (file check : Value) (strict : Bool) :
    result acts (matchFile file check strict) = interpret file check strict ∨
      ¬ Writes acts check ∧ result acts (matchFile file check strict) = .error .unwritable :=
  result_of_ensures acts (ensures_matchFile file check strict id)

theorem Yields.exists_of_writes {α : Type} {acts : List Act} {check : Value} {m : Run α}
    {post : α → Prop} (h : Yields acts check m post) (hwrites : Writes acts check) :
    ∃ x, result acts m = .ok x ∧ post x := h.resolve_right fun hfails => hfails.1 hwrites

theorem writes_nil (check : Value) : Writes [] check :=
  Ambient.writes_of_quiet (a := initial.ambient) (by decide +kernel) (by decide +kernel)

/-- To begin with, a description with a tree is compiled. -/
theorem exists_result_nil {check : Value} {strict : Bool} {tree : Assertion}
    (h : readTree? check strict = .ok tree) :
    ∃ c, result [] (compile check strict) = .ok c ∧ c.assertion = tree :=
  (yields_of_readTree? [] h).exists_of_writes (writes_nil check)

end World

end FileChecks
