import FileChecks.Proofs.Cache.Operations
import FileChecks.Proofs.Compile.Reports
import FileChecks.Proofs.Compile.Tree

/-!
The compile cache always holds what compilation gives. Whatever compiles a check keeps it so, and
therefore compiles the check to its tree, unless it fails because a message cannot be written.
-/
namespace FileChecks

/-- A cache with room for an entry, in which every path check has the assertion it compiles to. -/
structure Lru.Sound (c : Lru String Compiled) : Prop where
  limit : ∃ n, 0 < n ∧ c.settings.HasLimit n
  entries : ∀ e ∈ c.entries, Assertion.ofPath e.1 = .ok e.2.assertion

namespace Lru.Sound
variable {c : Lru String Compiled}

theorem empty {s : CacheSettings} (hs : ∃ n, 0 < n ∧ s.HasLimit n) :
    (Lru.empty s : Lru String Compiled).Sound :=
  ⟨hs, fun _ he => nomatch he⟩

theorem get (hc : c.Sound) (path : String) :
    (c.get path).1.Sound ∧
      ∀ found, (c.get path).2 = some found → Assertion.ofPath path = .ok found.assertion := by
  refine ⟨⟨c.settings_get path ▸ hc.limit, fun e he => hc.entries e (mem_of_mem_get he)⟩, ?_⟩
  intro found hfound
  obtain ⟨e, hfind, rfl⟩ := exists_find?_of_get hfound
  rw [← eq_of_beq (beq_of_find? hfind)]
  exact hc.entries e (mem_of_find? hfind)

theorem set (hc : c.Sound) {path : String} {v : Compiled}
    (hv : Assertion.ofPath path = .ok v.assertion) :
    (c.set path v).1.Sound ∧ (c.set path v).2 = .ok () := by
  obtain ⟨n, hn, hlimit⟩ := hc.limit
  have hentries : ∀ e ∈ (c.set path v).1.entries, Assertion.ofPath e.1 = .ok e.2.assertion := by
    intro e he
    rcases mem_of_mem_set hlimit hn he with hold | rfl
    · exact hc.entries e hold
    · exact hv
  cases he : c.settings.isEnabled with
  | false =>
    rw [set_of_disabled he]
    exact ⟨hc, rfl⟩
  | true =>
    rw [set_eq he hlimit hn] at hentries ⊢
    exact ⟨⟨hc.limit, hentries⟩, rfl⟩

end Lru.Sound

/-- Surroundings whose compile cache, if there is one, is sound. -/
def Ambient.Coherent (a : Ambient) : Prop := ∀ c, a.cache = some c → c.Sound

/-- What is granted to a compilation: whether it may fail because of a message that cannot be written,
how severe its messages are at most, and whether what they tell can be written. -/
structure Terms where
  mayFail : Prop
  severity : Severity
  told : Prop

structure Ambient.Fit (a : Ambient) (t : Terms) : Prop where
  coherent : a.Coherent
  writes : t.mayFail ∨ a.Writes t.severity t.told

def Ambient.terms (a : Ambient) (severity : Severity) (told : Prop) : Terms :=
  ⟨¬ a.Writes severity told, severity, told⟩

theorem Ambient.Coherent.fit {a : Ambient} (ha : a.Coherent) (severity : Severity) (told : Prop) :
    a.Fit (a.terms severity told) := ⟨ha, (Classical.em _).symm⟩

/-- Only the cache, the registry and the configuration in force count. -/
theorem Ambient.Fit.congr {a b : Ambient} {t : Terms} (ha : a.Fit t) (hcache : b.cache = a.cache)
    (hregistry : b.registry = a.registry) (hconfig : b.configInForce = a.configInForce) :
    b.Fit t := by
  refine ⟨fun c hc => ha.coherent c (hcache ▸ hc), ha.writes.imp_right fun hw => ?_⟩
  obtain ⟨hmessages, hsettings⟩ := hw
  constructor
  · rw [hregistry]
    exact hmessages
  · rw [hcache, hconfig, hregistry]
    exact hsettings

/-- A run keeps surroundings as granted, and there its results are as told, or else it may fail
because of a message and does so. -/
def Ensures {α : Type} (t : Terms) (m : Run α) (post : Except Failure α → Prop) : Prop :=
  ∀ a : Ambient, a.Fit t →
    (post (m.run.run a).1 ∨ t.mayFail ∧ (m.run.run a).1 = .error .unwritable) ∧
      (m.run.run a).2.Fit t

namespace Ensures
variable {α β : Type} {t : Terms} {p : Except Failure α → Prop} {q : Except Failure β → Prop}

theorem ofExcept {r : Except Failure α} (hr : p r) : Ensures t (Run.ofExcept r) p :=
  fun _ ha => ⟨Or.inl hr, ha⟩

theorem pure {x : α} (hx : p (.ok x)) : Ensures t (pure x) p := ofExcept (r := .ok x) hx

/-- A run goes on after a run that succeeds, and ends with one that fails. -/
theorem seq {m : Run α} {k : α → Run β} (hm : Ensures t m p)
    (hk : ∀ x, p (.ok x) → Ensures t (k x) q) (hf : ∀ f, p (.error f) → q (.error f)) :
    Ensures t (m >>= k) q := by
  intro a ha
  obtain ⟨hr, hb⟩ := hm a ha
  rcases hrun : m.run.run a with ⟨f | x, b⟩
  · rw [hrun] at hr hb
    rw [run_bind_of_error hrun]
    exact ⟨hr.imp (hf f) fun ⟨hmay, h⟩ => ⟨hmay, congrArg _ (Except.error.inj h)⟩, hb⟩
  · rw [hrun] at hr hb
    rw [run_bind_of_ok hrun]
    exact hk x (hr.resolve_right fun h => nomatch h.2) b hb

theorem seqOfExcept {r : Except Failure α} {k : α → Run β}
    (hk : ∀ x, r = .ok x → Ensures t (k x) q) (hf : ∀ f, r = .error f → q (.error f)) :
    Ensures t (Run.ofExcept r >>= k) q :=
  seq (p := fun x => r = x) (ofExcept rfl) hk hf

theorem effect {e : Effect α} (he : ∀ a : Ambient, a.Fit t → p (.ok (e.run a).1) ∧ (e.run a).2.Fit t) :
    Ensures t (liftM e) p := fun a ha => ⟨Or.inl (he a ha).1, (he a ha).2⟩

theorem seqEffect {e : Effect α} {k : α → Run β}
    (he : ∀ a : Ambient, a.Fit t → (e.run a).2.Fit t) (hk : ∀ x, Ensures t (k x) q) :
    Ensures t (liftM e >>= k) q := by
  refine seq (p := fun r => ∃ x, r = .ok x) (effect fun a ha => ⟨⟨_, rfl⟩, he a ha⟩)
    (fun x _ => hk x) fun f hf => ?_
  obtain ⟨x, hx⟩ := hf
  cases hx

theorem seqGet {k : Ambient → Run β} (hk : ∀ a : Ambient, a.Fit t → Ensures t (k a) q) :
    Ensures t (get >>= k) q := fun a ha => hk a ha a ha

/-- A run whose failures are told in another way, but for a message that cannot be written. -/
theorem adapt {q : Except Failure α → Prop} {m : Run α} {g : Failure → Failure}
    (hm : Ensures t m p) (h : ∀ r, p r → q (r.mapError g)) (hg : g .unwritable = .unwritable) :
    Ensures t (ExceptT.adapt g m) q := by
  intro a ha
  obtain ⟨hr, hb⟩ := hm a ha
  have hrun : (ExceptT.adapt g m).run.run a =
      ((m.run.run a).1.mapError g, (m.run.run a).2) := rfl
  rw [hrun]
  refine ⟨hr.imp (h _) fun ⟨hmay, hfails⟩ => ⟨hmay, ?_⟩, hb⟩
  rw [hfails]
  exact congrArg Except.error hg

end Ensures

theorem ensures_newCompiled (t : Terms) (tree : Assertion) :
    Ensures t (liftM (newCompiled tree)) fun r => r.map (·.assertion) = .ok tree :=
  Ensures.effect fun _ ha => ⟨rfl, ha.congr rfl rfl rfl⟩

/-- A cache that is sound can be put to use in any surroundings. -/
theorem Ambient.Fit.setCache {a : Ambient} {t : Terms} (ha : a.Fit t) {c : Lru String Compiled}
    (hc : c.Sound) : Ambient.Fit { a with cache := some c } t where
  coherent _ h := Option.some.inj h ▸ hc
  writes := ha.writes.imp_right fun hw => ⟨hw.messages, nofun⟩

/-! Messages. -/

/-- Messages for debugging are the least severe ones. -/
theorem Severity.debug_rank_le (severity : Severity) : Severity.debug.rank ≤ severity.rank := by
  cases severity <;> decide

theorem ensures_report {t : Terms} {severity : Severity} (text : String) {own : Context}
    (hseverity : severity.rank ≤ t.severity.rank) (hown : t.told → own.isWritable = true) :
    Ensures t (report text own severity) fun r => r = .ok () := by
  intro a ha
  obtain ⟨r, delivered, hrun, hr⟩ := exists_run_submit Registry.rulesName severity text own a
  have hreport : (report text own severity).run.run a = (r, { a with delivered }) := hrun
  rw [hreport]
  refine ⟨hr.imp_right fun ⟨hr, hpasses, hfails⟩ => ⟨?_, hr⟩, ha.congr rfl rfl rfl⟩
  refine ha.writes.resolve_right fun hw => ?_
  obtain ⟨htold, hcontexts⟩ := hw.messages (Registry.passes_of_le hpasses hseverity)
  rw [Registry.isWritable_contextOf hcontexts (hown htold)] at hfails
  cases hfails

theorem ensures_reportFields {t : Terms} {checks : Entries}
    (hnames : t.told → checks.all (·.1.isWritable) = true) :
    Ensures t (reportFields checks) fun r => r = .ok () := by
  intro a ha
  obtain ⟨r, delivered, hrun, hr⟩ := exists_run_reportFields checks a
  rw [hrun]
  refine ⟨hr.imp_right fun ⟨hr, hpasses, hfails⟩ => ⟨?_, hr⟩, ha.congr rfl rfl rfl⟩
  refine ha.writes.resolve_right fun hw => ?_
  obtain ⟨htold, hcontexts⟩ := hw.messages (Registry.passes_of_le hpasses t.severity.debug_rank_le)
  exact hfails (hnames htold) hcontexts

/-! The compile cache. -/

/-- The settings of the cache are as they should be, or the fault is about the first that is not. -/
theorem Config.cacheSettings_cases (c : Config) :
    (∃ e m, c.get Setting.cacheEnabled (.bool true) = .bool e ∧
        c.get Setting.cacheMaxEntries (.int 256) = .int m ∧ 0 < m ∧
        c.cacheSettings = .ok ⟨.int m, .bool e⟩) ∨
      ((∀ e, c.get Setting.cacheEnabled (.bool true) ≠ .bool e) ∧
        c.cacheSettings =
          .error (Failure.config (.cacheSwitch (c.get Setting.cacheEnabled (.bool true)))).raised) ∨
      ((∃ e, c.get Setting.cacheEnabled (.bool true) = .bool e) ∧
        (∀ m, c.get Setting.cacheMaxEntries (.int 256) = .int m → m ≤ 0) ∧
        c.cacheSettings =
          .error (Failure.config (.cacheSize (c.get Setting.cacheMaxEntries (.int 256)))).raised) := by
  unfold cacheSettings
  cases henabled : c.get Setting.cacheEnabled (.bool true) with
  | bool e =>
    cases hentries : c.get Setting.cacheMaxEntries (.int 256) with
    | int m =>
      by_cases hpositive : 0 < m
      · exact Or.inl ⟨e, m, rfl, rfl, hpositive, if_pos hpositive⟩
      · refine Or.inr (Or.inr ⟨⟨e, rfl⟩, fun m' hm => ?_, if_neg hpositive⟩)
        obtain rfl := Value.int.inj hm
        omega
    | _ => exact Or.inr (Or.inr ⟨⟨e, rfl⟩, nofun, rfl⟩)
  | _ => exact Or.inr (Or.inl ⟨nofun, rfl⟩)

/-- Settings that a configuration gives have room for an entry. -/
theorem hasLimit_of_cacheSettings {c : Config} {s : CacheSettings} (h : c.cacheSettings = .ok s) :
    ∃ n, 0 < n ∧ s.HasLimit n := by
  rcases c.cacheSettings_cases with ⟨e, m, -, -, hpositive, hs⟩ | ⟨-, hs⟩ | ⟨-, -, hs⟩
  · obtain rfl := Except.ok.inj (h.symm.trans hs)
    refine CacheSettings.hasLimit_of_validate ?_
    exact if_pos hpositive
  · exact absurd (h.symm.trans hs) nofun
  · exact absurd (h.symm.trans hs) nofun

/-- What is wrong with settings is told, unless it cannot be written. -/
theorem cacheSettings_eq_error {c : Config} {f : Failure} (h : c.cacheSettings = .error f) :
    f = .unwritable ∨ ∃ fault, f = .config fault := by
  have hraised (fault : ConfigFault) (hf : f = (Failure.config fault).raised) :
      f = .unwritable ∨ ∃ fault, f = .config fault := by
    rcases (Failure.config fault).raised_cases with ⟨-, hr⟩ | ⟨-, hr⟩
    · exact Or.inr ⟨fault, hf.trans hr⟩
    · exact Or.inl (hf.trans hr)
  rcases c.cacheSettings_cases with ⟨e, m, -, -, -, hs⟩ | ⟨-, hs⟩ | ⟨-, -, hs⟩
  · exact absurd (h.symm.trans hs) nofun
  · exact hraised _ (Except.error.inj (h.symm.trans hs))
  · exact hraised _ (Except.error.inj (h.symm.trans hs))

/-- The compile cache is sound, also if it is built only now. -/
theorem ensures_compileCache (t : Terms) :
    Ensures t compileCache fun r => ∃ c : Lru String Compiled, r = .ok c ∧ c.Sound := by
  intro a ha
  cases hcache : a.cache with
  | some c =>
    rw [run_compileCache hcache]
    exact ⟨Or.inl ⟨c, rfl, ha.coherent c hcache⟩, ha⟩
  | none =>
    obtain ⟨ref, configs, hglobal, hconfig⟩ := exists_run_globalConfig a
    -- Once the global configuration is there, the same configuration is in force as before.
    have hb : Ambient.Fit { a with configs, globalConfig := some ref } t := ha.congr rfl rfl hconfig
    cases hs : a.configInForce.cacheSettings with
    | ok s =>
      have hsound := Lru.Sound.empty (hasLimit_of_cacheSettings hs)
      rw [run_compileCache_of_settings hcache hglobal (hconfig ▸ hs)]
      exact ⟨Or.inl ⟨_, rfl, hsound⟩, hb.setCache hsound⟩
    | error f =>
      rcases cacheSettings_eq_error hs with rfl | ⟨fault, rfl⟩
      · rw [run_compileCache_of_unwritable hcache hglobal (hconfig ▸ hs)]
        refine ⟨Or.inr ⟨?_, rfl⟩, hb⟩
        exact ha.writes.resolve_right fun hw => (hw.settings hcache _ hs).1 rfl
      · have hsound : (Lru.empty {} : Lru String Compiled).Sound :=
          Lru.Sound.empty ⟨256, by omega, CacheSettings.hasLimit_int 256 (.bool true)⟩
        rw [run_compileCache_of_fault hcache hglobal (hconfig ▸ hs)]
        obtain ⟨r, delivered, hrun, hr⟩ := exists_run_submit Registry.cacheName .warning
          "Invalid cache configuration, using defaults" [("error", .text fault.message)]
          { a with configs, globalConfig := some ref }
        have hwarn : (warnOfSettings fault).run.run { a with configs, globalConfig := some ref } =
            (r, { a with configs, globalConfig := some ref, delivered }) := hrun
        have hafter : Ambient.Fit { a with configs, globalConfig := some ref, delivered } t :=
          hb.congr rfl rfl rfl
        rcases hr with rfl | ⟨rfl, hpasses, hfails⟩
        · rw [run_bind_of_ok hwarn]
          exact ⟨Or.inl ⟨_, rfl, hsound⟩, hafter.setCache hsound⟩
        · rw [run_bind_of_error hwarn]
          refine ⟨Or.inr ⟨?_, rfl⟩, hafter⟩
          refine ha.writes.resolve_right fun hw => ?_
          have hcontexts := (hw.settings hcache _ hs).2 hpasses
          have hwritable := Registry.isWritable_contextOf hcontexts
            (rfl : Context.isWritable [("error", .text fault.message)] = true)
          exact absurd (hwritable.symm.trans hfails) nofun

/-! Compiling. -/
section compile
variable {t : Terms}

theorem ensures_compilePath (path : String) :
    Ensures t (compilePath path) fun r => r.map (·.assertion) = Assertion.ofPath path := by
  refine Ensures.seq (ensures_compileCache t) (fun c hc => ?_) fun f hf => ?_
  · obtain ⟨_, heq, hc⟩ := hc
    obtain rfl := Except.ok.inj heq
    have hlook := hc.get path
    revert hlook
    rcases c.get path with ⟨cache, found⟩
    rintro ⟨hget, hfound⟩
    refine Ensures.seqEffect (fun a ha => ha.setCache hget) fun _ => ?_
    cases found with
    | some compiled =>
      refine Ensures.seq (ensures_report _ t.severity.debug_rank_le fun _ => rfl)
        (fun _ _ => Ensures.pure ?_) nofun
      exact (hfound compiled rfl).symm
    | none =>
      refine Ensures.seqOfExcept (fun tree htree => ?_) fun f hf => hf ▸ rfl
      refine Ensures.seq (ensures_newCompiled t tree) (fun compiled hcompiled => ?_) nofun
      refine Ensures.seq (ensures_report _ t.severity.debug_rank_le fun _ => rfl)
        (fun _ _ => ?_) nofun
      have hstore := hget.set (htree.trans hcompiled.symm)
      revert hstore
      rcases cache.set path compiled with ⟨full, done⟩
      rintro ⟨hset, rfl⟩
      refine Ensures.seqEffect (fun a ha => ha.setCache hset) fun _ => ?_
      exact Ensures.pure (hcompiled.trans htree.symm)
  · obtain ⟨c, hc, -⟩ := hf
    cases hc

mutual

theorem ensures_compileLazy (v : Value) (hv : t.told → v.canReport = true) :
    Ensures t (compileLazy v) fun r => r.map (·.assertion) = tree? v := by
  cases v with
  | null => rw [compileLazy]; exact Ensures.pure rfl
  | text path => rw [compileLazy]; exact ensures_compilePath path
  | predicate name action => rw [compileLazy]; exact ensures_newCompiled t _
  | assertion a => rw [compileLazy]; exact ensures_newCompiled t _
  | map checks =>
    rw [compileLazy]
    refine Ensures.seq (ensures_reportFields hv) (fun _ _ => ?_) nofun
    exact ensures_newCompiled t _
  | list items | tuple items =>
    have hcount : t.told → Numeral.isWritable items.length = true :=
      fun htold => (Bool.and_eq_true_iff.mp (hv htold)).1
    have hitems : t.told → Value.canReportAll items = true :=
      fun htold => (Bool.and_eq_true_iff.mp (hv htold)).2
    rw [compileLazy, compileAny, tree?]
    refine Ensures.seq (ensures_report _ t.severity.debug_rank_le fun htold => ?_)
      (fun _ _ => ?_) nofun
    · exact Bool.and_eq_true_iff.mpr ⟨hcount htold, rfl⟩
    · refine Ensures.seq (ensures_compileItems items hitems) (fun trees htrees => ?_) fun f hf => ?_
      · rw [← htrees]
        exact ensures_newCompiled t _
      · rw [← hf]
        rfl
  | _ =>
    rw [compileLazy]
    · exact Ensures.ofExcept rfl
    all_goals nofun

theorem ensures_compileItems (items : List Value) (hv : t.told → Value.canReportAll items = true) :
    Ensures t (compileItems items) fun r => r = trees? items := by
  cases items with
  | nil => rw [compileItems]; exact Ensures.pure rfl
  | cons v rest =>
    have hfirst : t.told → v.canReport = true := fun htold => (Bool.and_eq_true_iff.mp (hv htold)).1
    have hrest : t.told → Value.canReportAll rest = true :=
      fun htold => (Bool.and_eq_true_iff.mp (hv htold)).2
    rw [compileItems, trees?]
    refine Ensures.seq (ensures_compileLazy v hfirst) (fun first hfirst => ?_) fun f hf => ?_
    · rw [← hfirst]
      refine Ensures.seq (ensures_compileItems rest hrest) (fun others hothers => ?_) fun f hf => ?_
      · rw [← hothers]
        exact Ensures.pure rfl
      · rw [← hf]
        rfl
    · rw [← show _ = tree? v from hf]
      rfl

end

theorem ensures_compile (check : Value) (strict : Bool) (hcheck : t.told → check.canReport = true) :
    Ensures t (compile check strict) fun r => r.map (·.assertion) = readTree? check strict := by
  unfold compile readTree?
  cases strict with
  | false => exact ensures_compileLazy check hcheck
  | true =>
    refine Ensures.seqOfExcept (fun _ hvalid => ?_) fun f hf => ?_
    · rw [hvalid]
      exact ensures_compileLazy check hcheck
    · rw [hf]
      rfl

theorem ensures_matchFile [Predicates] (file check : Value) (strict : Bool)
    (hcheck : t.told → check.canReport = true) :
    Ensures t (matchFile file check strict) fun r => r = interpret file check strict := by
  rw [interpret_eq]
  refine Ensures.seq (ensures_compile check strict hcheck) (fun c hc => ?_) fun f hf => ?_
  · rw [← hc]
    exact Ensures.pure rfl
  · rw [← hf]
    rfl

def treesOf (named : List (Value × Compiled)) : List (Value × Assertion) :=
  named.map fun e => (e.1, e.2.assertion)

theorem ensures_compileNamed (entries : Entries)
    (hentries : t.told → ∀ e ∈ entries, e.2.canReport = true) :
    Ensures t (compileNamed entries) fun r => r.map treesOf = namedTrees? entries := by
  induction entries with
  | nil => exact Ensures.pure rfl
  | cons entry rest ih =>
    obtain ⟨name, check⟩ := entry
    have hcheck : t.told → check.canReport = true :=
      fun htold => hentries htold _ List.mem_cons_self
    rw [namedTrees?]
    refine Ensures.seq (p := fun r =>
      r.map (·.assertion) = (readTree? check true).mapError (·.inNamedCheck name)) ?_
      (fun first hfirst => ?_) fun f hf => ?_
    · exact (ensures_compile check true hcheck).adapt (fun r hr => by rw [← hr]; cases r <;> rfl) rfl
    · rw [← hfirst]
      refine Ensures.seq (ih fun htold e he => hentries htold e (List.mem_cons_of_mem _ he))
        (fun others hothers => ?_) fun f hf => ?_
      · rw [← hothers]
        exact Ensures.pure rfl
      · rw [← hf]
        rfl
    · rw [← hf]
      rfl

/-- The configuration of a source. -/
theorem ensures_resolve (source : CheckSource) :
    Ensures t source.resolve fun _ => True := by
  cases source with
  | config ref => exact Ensures.effect fun a ha => ⟨trivial, ha⟩
  | file name => exact Ensures.seqGet fun a _ => Ensures.ofExcept trivial
  | checks entries => exact Ensures.ofExcept trivial

end compile

/-! Surroundings stay coherent, whatever is granted. -/

/-- Terms on which everything may fail. -/
def Terms.lenient : Terms := ⟨True, .critical, False⟩

def KeepsCoherent {α : Type} (m : Run α) : Prop :=
  ∀ a : Ambient, a.Coherent → (m.run.run a).2.Coherent

namespace KeepsCoherent
variable {α β : Type}

theorem of_ensures {m : Run α} {p : Except Failure α → Prop} (h : Ensures .lenient m p) :
    KeepsCoherent m := fun a ha => (h a ⟨ha, Or.inl trivial⟩).2.coherent

theorem ofExcept (r : Except Failure α) : KeepsCoherent (Run.ofExcept r) := fun _ ha => ha

theorem seq {m : Run α} {k : α → Run β} (hm : KeepsCoherent m) (hk : ∀ x, KeepsCoherent (k x)) :
    KeepsCoherent (m >>= k) := by
  intro a ha
  have hb := hm a ha
  rcases hrun : m.run.run a with ⟨f | x, b⟩
  · rw [hrun] at hb
    rw [run_bind_of_error hrun]
    exact hb
  · rw [hrun] at hb
    rw [run_bind_of_ok hrun]
    exact hk x b hb

theorem compile (check : Value) (strict : Bool) : KeepsCoherent (compile check strict) :=
  of_ensures (ensures_compile check strict nofun)

theorem setCache {cache : Option (Lru String Compiled)} (h : ∀ c, cache = some c → c.Sound) :
    KeepsCoherent (liftM (FileChecks.setCache cache)) := fun _ _ => h

theorem setLevels (level : Value) : KeepsCoherent (setLevels level) := fun _ ha => ha

end KeepsCoherent

/-- Settings with a limit are all that a new cache needs. -/
theorem sound_of_new {s : CacheSettings} {c : Lru String Compiled} (h : Lru.new s = .ok c) :
    c.Sound := by
  obtain ⟨hs, rfl⟩ := Lru.new_eq_ok_iff.mp h
  exact Lru.Sound.empty (CacheSettings.hasLimit_of_validate hs)

namespace KeepsCoherent

theorem applyConfig (c : Config) : KeepsCoherent (applyConfig c) := by
  refine seq (ofExcept _) fun s => seq (setLevels _) fun _ => ?_
  intro a ha
  cases hnew : (Lru.new s : Except Failure (Lru String Compiled)) with
  | error f =>
    rw [run_ofExcept_bind_error rfl]
    exact ha
  | ok cache =>
    rw [run_ofExcept_bind_ok rfl]
    exact setCache (fun _ h => Option.some.inj h ▸ sound_of_new hnew) a ha

theorem loadChecks (source : CheckSource) : KeepsCoherent (loadChecks source) := by
  refine seq (of_ensures (ensures_resolve source)) fun c => ?_
  cases c.checks with
  | map entries =>
    refine seq (of_ensures (ensures_compileNamed entries nofun)) fun named => ?_
    refine seq (of_ensures (ensures_report _ ?_ nofun)) fun _ => ofExcept _
    decide
  | _ => exact ofExcept _

theorem getCheck (source : CheckSource) (name : Value) : KeepsCoherent (getCheck source name) := by
  refine seq (of_ensures (ensures_resolve source)) fun c => ?_
  cases c.checks with
  | map entries =>
    cases name.unhashable? with
    | some typeName => exact ofExcept _
    | none =>
      dsimp only
      cases Entries.get? entries name with
      | none => exact ofExcept _
      | some check => exact seq (compile check true) fun _ => ofExcept _
  | _ => exact ofExcept _

end KeepsCoherent
end FileChecks
