import FileChecks.Proofs.Compile.Strict

/-!
Ways to write the spec of an affix. Only the two parts count: every way to write them is accepted or
refused alike, asks the same of a field, and can stand for every other one wherever a check has it.
-/
namespace FileChecks

/-- Ways to write an affix: a map, which may have other keys and lacks a part that is null, an affix
as such, or an object that has both parts among its attributes. -/
inductive Encodes (starting ending : Value) : Value → Prop
  | map {entries : Entries} (hstarting : (entries.textKey? Field.starting).getD .null = starting)
      (hending : (entries.textKey? Field.ending).getD .null = ending) :
      Encodes starting ending (.map entries)
  | affix : Encodes starting ending (.affix starting ending)
  | object {attributes : List (String × Value)}
      (hstarting : attributes.lookup Field.starting = some starting)
      (hending : attributes.lookup Field.ending = some ending) :
      Encodes starting ending (.object attributes)

namespace Affix

/-- Each part that is given has to be at its end of the text. -/
theorem holds_iff (a : Affix) (t : String) :
    a.holds t = true ↔
      (∀ p, a.starting = some p → p.toList <+: t.toList) ∧
        ∀ q, a.ending = some q → q.toList <:+ t.toList := by
  have hstarting : (a.starting.getD "").toList <+: t.toList ↔
      ∀ p, a.starting = some p → p.toList <+: t.toList := by
    cases a.starting with
    | none => simp
    | some p => simp
  have hending : (a.ending.getD "").toList <:+ t.toList ↔
      ∀ q, a.ending = some q → q.toList <:+ t.toList := by
    cases a.ending with
    | none => simp
    | some q => simp
  unfold holds
  rw [Bool.and_eq_true, List.isPrefixOf_iff_prefix, List.isSuffixOf_iff_suffix, hstarting, hending]

end Affix

theorem Value.text?_eq_some_iff {v : Value} {s : String} : v.text? = some s ↔ v = .text s := by
  cases v <;> simp [Value.text?]

namespace Encodes
variable {starting ending spec : Value} (h : Encodes starting ending spec)
include h

theorem parts_eq :
    spec.isSplit = true ∧ spec.part Field.starting = starting ∧
      spec.part Field.ending = ending := by
  cases h with
  | map hstarting hending => exact ⟨rfl, hstarting, hending⟩
  | affix => exact ⟨rfl, rfl, rfl⟩
  | @object attributes hstarting hending =>
    have hfields (name : String) : (Value.object attributes).field? name = attributes.lookup name :=
      rfl
    simp only [Value.isSplit, Value.hasField, Value.part, Value.getField, hfields, hstarting,
      hending, Option.isSome_some, Option.getD_some, Bool.and_self, and_self]

/-- The parts alone tell whether a spec is one. -/
theorem isSpec_eq : spec.isSpec = (starting.isPart && ending.isPart) := by
  obtain ⟨hsplit, hstarting, hending⟩ := h.parts_eq
  have haffix : spec.isAffix = (starting.isPart && ending.isPart) := by
    rw [Value.isAffix, hsplit, hstarting, hending, Bool.true_and]
  cases h with
  | map | affix | object => exact haffix

theorem meaning_eq : FieldCheck.meaning spec = .affix ⟨starting.text?, ending.text?⟩ := by
  obtain ⟨-, hstarting, hending⟩ := h.parts_eq
  rw [← hstarting, ← hending]
  cases h with
  | map | affix | object => rfl

theorem ofValue_eq (key : Value) :
    FieldCheck.ofValue spec key =
      if starting.isPart && ending.isPart then .ok (.affix ⟨starting.text?, ending.text?⟩)
      else .error (Failure.fieldSpec spec key).raised := by
  rw [FieldCheck.ofValue_eq, h.isSpec_eq, h.meaning_eq]

/-- A spec with another part is refused without a look at the record. -/
theorem checkField_eq (record key : Value) :
    checkField record key spec =
      if starting.isPart && ending.isPart then
        FieldCheck.holds record key (.affix ⟨starting.text?, ending.text?⟩)
      else .error (Failure.fieldSpec spec key).raised := by
  unfold checkField
  rw [h.ofValue_eq]
  cases starting.isPart && ending.isPart <;> rfl

theorem checkField_of_isPart (hparts : (starting.isPart && ending.isPart) = true) (record : Value)
    (name : String) :
    ∃ b, checkField record (.text name) spec = .ok b ∧
      (b = true ↔ ∃ t, record.field? name = some (.text t) ∧
        (∀ p, starting = .text p → p.toList <+: t.toList) ∧
          ∀ q, ending = .text q → q.toList <:+ t.toList) := by
  rw [h.checkField_eq, hparts, if_pos rfl, FieldCheck.holds, Value.lookup_text]
  cases hfield : record.field? name with
  | none => exact ⟨false, rfl, by simp⟩
  | some v =>
    cases v with
    | text t =>
      refine ⟨_, rfl, ?_⟩
      rw [Affix.holds_iff]
      simp only [Value.text?_eq_some_iff, Option.some.injEq, Value.text.injEq, exists_eq_left']
    | _ => exact ⟨false, rfl, by simp⟩

end Encodes

theorem specFault?_append (l r : Entries) :
    specFault? (l ++ r) = (specFault? l).or (specFault? r) := by
  induction l with
  | nil => rfl
  | cons entry l ih =>
    obtain ⟨key, spec⟩ := entry
    rw [List.cons_append, specFault?, specFault?, ih]
    cases spec.isSpec <;> rfl

/-- Results that agree, but for the value that is refused as the spec of a field. -/
inductive AgreeButSpec {α : Type} (same : α → α → Prop) :
    Except Failure α → Except Failure α → Prop
  | success {x y : α} (h : same x y) : AgreeButSpec same (.ok x) (.ok y)
  | failure (f : Failure) : AgreeButSpec same (.error f) (.error f)
  | refusal (spec spec' field : Value) :
    AgreeButSpec same (.error (Failure.fieldSpec spec field).raised)
      (.error (Failure.fieldSpec spec' field).raised)

namespace AgreeButSpec
variable {α β : Type} {same : α → α → Prop} {same' : β → β → Prop}

theorem refl (h : ∀ x, same x x) (r : Except Failure α) : AgreeButSpec same r r := by
  cases r with
  | error f => exact failure f
  | ok x => exact success (h x)

theorem bind {r r' : Except Failure α} {k k' : α → Except Failure β} (h : AgreeButSpec same r r')
    (hk : ∀ x y, same x y → AgreeButSpec same' (k x) (k' y)) :
    AgreeButSpec same' (r >>= k) (r' >>= k') := by
  cases h with
  | success h => exact hk _ _ h
  | failure f => exact failure f
  | refusal spec spec' field => exact refusal spec spec' field

end AgreeButSpec

structure Outcome.Similar (o o' : Outcome) : Prop where
  result : AgreeButSpec (· = ·) o.result o'.result
  calls : o.calls = o'.calls

namespace Outcome.Similar
variable {o o' next next' : Outcome}

theorem refl (o : Outcome) : o.Similar o := ⟨.refl (fun _ => rfl) _, rfl⟩

theorem orElse (h : o.Similar o') (h' : next.Similar next') :
    (o.orElse next).Similar (o'.orElse next') := by
  rcases o with ⟨r, calls⟩
  rcases o' with ⟨r', calls'⟩
  obtain ⟨hresult, hcalls⟩ := h
  obtain rfl : calls = calls' := hcalls
  cases hresult with
  | failure f => exact ⟨.failure f, rfl⟩
  | refusal spec spec' field => exact ⟨.refusal spec spec' field, rfl⟩
  | @success b b' hb =>
    obtain rfl : b = b' := hb
    cases b with
    | false => exact ⟨h'.result, congrArg (calls ++ ·) h'.calls⟩
    | true => exact refl _

/-- Where one result is a match, so is the other. -/
theorem exists_match_iff {r r' : Except Failure Outcome} (h : AgreeButSpec Outcome.Similar r r') :
    (∃ o, r = .ok o ∧ o.result = .ok true) ↔ ∃ o, r' = .ok o ∧ o.result = .ok true := by
  cases h with
  | failure | refusal => exact ⟨nofun, nofun⟩
  | @success o o' hsimilar =>
    have hmatch : o.result = .ok true ↔ o'.result = .ok true := by
      have hresult := hsimilar.result
      revert hresult
      generalize o.result = r
      generalize o'.result = r'
      rintro (hb | - | -)
      · rw [hb]
      · exact Iff.rfl
      · exact ⟨nofun, nofun⟩
    constructor
    · rintro ⟨_, ho, hresult⟩
      obtain rfl := Except.ok.inj ho
      exact ⟨o', rfl, hmatch.mp hresult⟩
    · rintro ⟨_, ho, hresult⟩
      obtain rfl := Except.ok.inj ho
      exact ⟨o, rfl, hmatch.mpr hresult⟩

end Outcome.Similar

/-- Entries of a map with the same key, and with the same spec or with two ways to write an affix. -/
inductive Respells : Value × Value → Value × Value → Prop
  | same (e : Value × Value) : Respells e e
  | affix {starting ending a b : Value} (key : Value) (ha : Encodes starting ending a)
      (hb : Encodes starting ending b) : Respells (key, a) (key, b)

mutual

/-- In maps of a check, at any depth of its lists, affixes are written in another way. -/
inductive Recodes : Value → Value → Prop
  | same (v : Value) : Recodes v v
  | map {entries entries' : Entries} (h : List.Forall₂ Respells entries entries') :
    Recodes (.map entries) (.map entries')
  | list {xs ys : List Value} (h : RecodesAll xs ys) : Recodes (.list xs) (.list ys)
  | tuple {xs ys : List Value} (h : RecodesAll xs ys) : Recodes (.tuple xs) (.tuple ys)

inductive RecodesAll : List Value → List Value → Prop
  | nil : RecodesAll [] []
  | cons {x y : Value} {xs ys : List Value} (h : Recodes x y) (hs : RecodesAll xs ys) :
    RecodesAll (x :: xs) (y :: ys)

end

/-! Maps whose affixes are written in another way. -/
section Entries
variable {entries entries' : Entries}

theorem Respells.agree_ofValue {e e' : Value × Value} (h : Respells e e') :
    e'.1 = e.1 ∧
      AgreeButSpec (fun _ _ => True) (FieldCheck.ofValue e.2 e.1) (FieldCheck.ofValue e'.2 e'.1) ∧
      ∀ file, AgreeButSpec (· = ·) (passes file e.1 e.2) (passes file e'.1 e'.2) := by
  cases h with
  | same => exact ⟨rfl, .refl (fun _ => trivial) _, fun _ => .refl (fun _ => rfl) _⟩
  | affix key ha hb =>
    refine ⟨rfl, ?_, fun file => ?_⟩
    · rw [ha.ofValue_eq, hb.ofValue_eq]
      split
      · exact .success trivial
      · exact .refusal _ _ _
    · rw [← checkField_eq_passes, ← checkField_eq_passes, ha.checkField_eq, hb.checkField_eq]
      split
      · exact .refl (fun _ => rfl) _
      · exact .refusal _ _ _

variable (h : List.Forall₂ Respells entries entries')
include h

theorem keys_eq_of_respells : entries'.map (·.1) = entries.map (·.1) := by
  induction h with
  | nil => rfl
  | cons hentry _ ih => exact congrArg₂ List.cons hentry.agree_ofValue.1 ih

theorem agree_validateFields :
    AgreeButSpec (fun _ _ => True) (validateFields entries) (validateFields entries') := by
  induction h with
  | nil => exact .success trivial
  | cons hentry _ ih =>
    unfold validateFields
    exact hentry.agree_ofValue.2.1.bind fun _ _ _ => ih

theorem agree_passesAll (file : Value) :
    AgreeButSpec (· = ·) (passesAll file entries) (passesAll file entries') := by
  induction h with
  | nil => exact .success rfl
  | cons hentry _ ih =>
    unfold passesAll
    refine (hentry.agree_ofValue.2.2 file).bind fun b b' hb => ?_
    subst hb
    cases b with
    | false => exact .success rfl
    | true => exact ih

end Entries

/-- What is reported about a check of fields depends on their names only. -/
theorem reportFields_congr {entries entries' : Entries}
    (h : entries'.map (·.1) = entries.map (·.1)) : reportFields entries' = reportFields entries := by
  have hnames (es : Entries) : fieldNames es =
      if (es.map (·.1)).all Value.isWritable then
        .ok (",".intercalate ((es.map (·.1)).map Value.display))
      else .error .unwritable := by
    rw [List.all_map, List.map_map]
    rfl
  unfold reportFields
  rw [hnames entries', hnames entries, h]

def newNumber : Run Nat := Compiled.number <$> (newCompiled .anyFile : Effect Compiled)

theorem number_newCompiled (tree : Assertion) :
    Compiled.number <$> (liftM (newCompiled tree) : Run Compiled) = newNumber := rfl

theorem number_compileAny (items : List Value) (count : Nat) :
    Compiled.number <$> compileAny items count = (do
      report "Compiling any-of check" [("items", .int count)]
      let _ ← List.length <$> compileItems items
      newNumber) := by
  unfold compileAny
  simp only [map_bind, bind_map_left, number_newCompiled]

section
variable [Predicates]

/-- Descriptions that are read alike, but for the specs that are refused. Compiling them acts on the
surroundings alike. -/
structure ReadAlike (x y : Value) : Prop where
  fault : fault? x = fault? y
  validate : AgreeButSpec (fun _ _ => True) (validate x) (validate y)
  evaluate : ∀ file, (evaluate file x).Similar (evaluate file y)
  compile : Compiled.number <$> compileLazy x = Compiled.number <$> compileLazy y

structure ReadAlikeAll (xs ys : List Value) : Prop where
  fault : faultIn? xs = faultIn? ys
  validate : AgreeButSpec (fun _ _ => True) (validateItems xs) (validateItems ys)
  evaluate : ∀ file, (evaluateAny file xs).Similar (evaluateAny file ys)
  length : xs.length = ys.length
  compile : List.length <$> compileItems xs = List.length <$> compileItems ys

mutual

theorem Recodes.readAlike {x y : Value} (h : Recodes x y) : ReadAlike x y := by
  cases h with
  | same v => exact ⟨rfl, .refl (fun _ => trivial) _, fun _ => .refl _, rfl⟩
  | @map entries entries' h =>
    refine ⟨rfl, agree_validateFields h, fun file => ⟨agree_passesAll h file, rfl⟩, ?_⟩
    rw [compileLazy, compileLazy, reportFields_congr (keys_eq_of_respells h)]
    simp only [map_bind, number_newCompiled]
  | list h =>
    obtain ⟨hfault, hvalidate, hevaluate, hlength, hcompile⟩ := h.readAlikeAll
    refine ⟨hfault, hvalidate, hevaluate, ?_⟩
    rw [compileLazy, compileLazy, number_compileAny, number_compileAny, hlength, hcompile]
  | tuple h =>
    obtain ⟨hfault, hvalidate, hevaluate, hlength, hcompile⟩ := h.readAlikeAll
    refine ⟨hfault, hvalidate, hevaluate, ?_⟩
    rw [compileLazy, compileLazy, number_compileAny, number_compileAny, hlength, hcompile]

theorem RecodesAll.readAlikeAll {xs ys : List Value} (h : RecodesAll xs ys) :
    ReadAlikeAll xs ys := by
  cases h with
  | nil => exact ⟨rfl, .success trivial, fun _ => .refl _, rfl, rfl⟩
  | @cons x y xs ys h hs =>
    have hx := h.readAlike
    have hxs := hs.readAlikeAll
    refine ⟨?_, ?_, fun file => (hx.evaluate file).orElse (hxs.evaluate file),
      congrArg Nat.succ hxs.length, ?_⟩
    · rw [faultIn?, faultIn?, hx.fault, hxs.fault]
    · exact hx.validate.bind fun _ _ _ => hxs.validate
    · have hparts (v : Value) (vs : List Value) : List.length <$> compileItems (v :: vs) = (do
          let _ ← Compiled.number <$> compileLazy v
          let n ← List.length <$> compileItems vs
          return n + 1) := by
        rw [compileItems]
        simp only [map_bind, bind_map_left, map_pure, List.length_cons]
      rw [hparts, hparts, hx.compile, hxs.compile]

end

/-! Checks with affixes that are written in another way. -/
section Recodes
variable {check check' : Value} (h : Recodes check check') (strict : Bool)
include h

theorem agree_interpret (file : Value) :
    AgreeButSpec Outcome.Similar (interpret file check strict) (interpret file check' strict) := by
  obtain ⟨hfault, hvalidate, hevaluate, -⟩ := h.readAlike
  have hlazy : AgreeButSpec Outcome.Similar
      (do
        stopAt (fault? check)
        return if file.isFile then evaluate file check else .quiet (.ok false))
      (do
        stopAt (fault? check')
        return if file.isFile then evaluate file check' else .quiet (.ok false)) := by
    rw [hfault]
    have hsame : AgreeButSpec (· = ·) (stopAt (fault? check')) (stopAt (fault? check')) :=
      .refl (fun _ => rfl) _
    refine hsame.bind fun _ _ _ => ?_
    cases file.isFile with
    | false => exact .success (.refl _)
    | true => exact .success (hevaluate file)
  unfold interpret
  rw [← validate_eq_stopAt, ← validate_eq_stopAt]
  cases strict with
  | false => exact hlazy
  | true => exact hvalidate.bind fun _ _ _ => hlazy

/-- In the same surroundings both checks are compiled, or none. -/
theorem World.agree_result_compile (acts : List Act) :
    AgreeButSpec (fun _ _ => True) (World.result acts (compile check strict))
      (World.result acts (compile check' strict)) := by
  obtain ⟨-, hvalidate, -, hcompile⟩ := h.readAlike
  have hlazy : AgreeButSpec (fun _ _ => True) (World.result acts (compileLazy check))
      (World.result acts (compileLazy check')) := by
    have hresult : (World.result acts (compileLazy check)).map Compiled.number =
        (World.result acts (compileLazy check')).map Compiled.number := by
      have hmap (v : Value) : (World.result acts (compileLazy v)).map Compiled.number =
          World.result acts (Compiled.number <$> compileLazy v) := by
        unfold World.result
        rw [ExceptT.run_map, StateT.run_map]
        rfl
      rw [hmap, hmap, hcompile]
    revert hresult
    generalize World.result acts (compileLazy check) = r
    generalize World.result acts (compileLazy check') = r'
    intro hresult
    cases r with
    | error f =>
      cases r' with
      | error f' =>
        obtain rfl := Except.error.inj hresult
        exact .failure f
      | ok c' => cases hresult
    | ok c =>
      cases r' with
      | error f' => cases hresult
      | ok c' => exact .success trivial
  cases strict with
  | false => exact hlazy
  | true =>
    have hstrict (v : Value) : World.result acts (compile v true) =
        (do validate v; World.result acts (compileLazy v)) := by
      unfold compile World.result
      cases hvalid : validate v <;> rfl
    rw [hstrict, hstrict]
    exact hvalidate.bind fun _ _ _ => hlazy

/-- Where nothing that is reported fails, or both are tested in the same surroundings, both checks
say alike of a value. -/
theorem World.agree_result_matchFile {before after : List Act}
    (hsame : before = after ∨ World.Writes before check ∧ World.Writes after check')
    (file : Value) :
    AgreeButSpec Outcome.Similar (World.result before (matchFile file check strict))
      (World.result after (matchFile file check' strict)) := by
  have hinterpret := agree_interpret h strict file
  rcases hsame with rfl | ⟨hbefore, hafter⟩
  · have htest (v : Value) : World.result before (matchFile file v strict) =
        (World.result before (compile v strict)).map (·.assertion.call file) := by
      unfold matchFile World.result
      rw [bind_pure_comp, ExceptT.run_map, StateT.run_map]
      rfl
    rw [htest, htest]
    rw [interpret_eq, interpret_eq] at hinterpret
    have hcompile := World.agree_result_compile h strict before
    generalize hc : World.result before (compile check strict) = r at hcompile ⊢
    generalize hc' : World.result before (compile check' strict) = r' at hcompile ⊢
    cases hcompile with
    | failure f => exact .failure f
    | refusal spec spec' field => exact .refusal spec spec' field
    | success _ => rwa [World.readTree?_of_result hc, World.readTree?_of_result hc'] at hinterpret
  · have hleft := (World.result_matchFile before file check strict).resolve_right
      fun hfails => hfails.1 hbefore
    have hright := (World.result_matchFile after file check' strict).resolve_right
      fun hfails => hfails.1 hafter
    rw [hleft, hright]
    exact hinterpret

end Recodes

/-- Strict compilation fails with the first fault that reading everything meets. -/
theorem World.result_compile_of_strictFault? (acts : List Act) {check : Value} {f : Failure}
    (h : strictFault? check = some f) : World.result acts (compile check true) = .error f := by
  have hvalid : validate check = .error f := by
    rw [validate_eq_stopAt, h]
    rfl
  exact congrArg Prod.fst
    (run_ofExcept_bind_error hvalid (fun _ => compileLazy check) (World.reach acts).ambient)

/-- All ways to write an affix are read alike. With another part than a text or null they are
refused, for the field in question and without a look at the record, when the field is tested and
when everything is read beforehand; the refusal tells the spec, if it can be written. Else the field
passes if it is a text that starts and ends as told. In checks, other ways to write affixes can stand
for those that are there. -/
theorem Encodes.reads_alike {starting ending spec : Value} (h : Encodes starting ending spec) :
    let refusal (key : Value) : Failure :=
      if spec.isWritable && key.isWritable then .fieldSpec spec key else .unwritable
    (∀ key, (FieldCheck.ofValue spec key).map FieldCheck.kind =
      if starting.isPart && ending.isPart then .ok .affix else .error (refusal key)) ∧
    (starting.isPart = false ∨ ending.isPart = false → ∀ key,
      (∀ record, checkField record key spec = .error (refusal key)) ∧
      ∀ l r : Entries, (∀ e ∈ l, e.2.isSpec = true) →
        validate (.map (l ++ (key, spec) :: r)) = .error (refusal key) ∧
        ∀ acts, World.result acts (compile (.map (l ++ (key, spec) :: r)) true) =
          .error (refusal key)) ∧
    (starting.isPart = true → ending.isPart = true → ∀ record name,
      ∃ b, checkField record (.text name) spec = .ok b ∧
        (b = true ↔ ∃ t, record.field? name = some (.text t) ∧
          (∀ p, starting = .text p → p.toList <+: t.toList) ∧
            ∀ q, ending = .text q → q.toList <:+ t.toList)) ∧
    ∀ check check', Recodes check check' → ∀ before after,
      (before = after ∨ World.Writes before check ∧ World.Writes after check') → ∀ file strict,
      AgreeButSpec Outcome.Similar (World.result before (matchFile file check strict))
        (World.result after (matchFile file check' strict)) ∧
      ((∃ o, World.result before (matchFile file check strict) = .ok o ∧ o.result = .ok true) ↔
        ∃ o, World.result after (matchFile file check' strict) = .ok o ∧ o.result = .ok true) := by
  intro refusal
  refine ⟨fun key => ?_, fun hother key => ?_, fun hstarting hending record name => ?_,
    fun check check' hrecodes before after hsame file strict => ?_⟩
  · rw [h.ofValue_eq]
    cases starting.isPart && ending.isPart <;> rfl
  · have hparts : (starting.isPart && ending.isPart) = false := Bool.and_eq_false_iff.mpr hother
    have hspec : spec.isSpec = false := h.isSpec_eq.trans hparts
    refine ⟨fun record => ?_, fun l r hl => ?_⟩
    · rw [h.checkField_eq, hparts]
      rfl
    · have hfault : strictFault? (.map (l ++ (key, spec) :: r)) = some (refusal key) := by
        have hbefore : specFault? l = none := (specFault?_eq_none_iff l).mpr hl
        rw [strictFault?, specFault?_append, hbefore, specFault?, hspec]
        rfl
      refine ⟨?_, fun acts => World.result_compile_of_strictFault? acts hfault⟩
      rw [validate_eq_stopAt, hfault]
      rfl
  · exact h.checkField_of_isPart (by rw [hstarting, hending]; rfl) record name
  · have hagree := World.agree_result_matchFile hrecodes strict hsame file
    exact ⟨hagree, Outcome.Similar.exists_match_iff hagree⟩

end

/-- A map with a key of its own and no suffix is an affix without a suffix, and a prefix that is too
long a number is refused without being told. -/
theorem Encodes.reads_alike_partial_map :
    let spec : Value := .map [(.text "note", .int 1), (.text "prefix", .text "read")]
    let file : Value :=
      .object [("messages", .list []), ("history", .null), ("stem", .text "readme")]
    Encodes (.text "read") .null spec ∧ checkField file (.text "stem") spec = .ok true ∧
      ((∃ o, World.result [] (matchFile file (.list [.map [(.text "stem", spec)]]) true) = .ok o ∧
          o.result = .ok true) ↔
        ∃ o, World.result [] (matchFile file
            (.list [.map [(.text "stem", .affix (.text "read") .null)]]) true) = .ok o ∧
          o.result = .ok true) ∧
      validate (.map [(.text "stem", .affix (.int Numeral.tooLong) .null)]) =
        .error .unwritable := by
  intro spec file
  have hspec : Encodes (.text "read") .null spec :=
    .map (by with_unfolding_all rfl) (by with_unfolding_all rfl)
  obtain ⟨-, -, hfield, hrecodes⟩ := hspec.reads_alike
  obtain ⟨b, hb, hpasses⟩ := hfield rfl rfl file "stem"
  have htrue : b = true := by
    refine hpasses.mpr ⟨"readme", rfl, fun p hp => ?_, fun q hq => ?_⟩
    · obtain rfl := Value.text.inj hp
      exact ⟨"me".toList, rfl⟩
    · cases hq
  have hstep : Recodes (.list [.map [(.text "stem", spec)]])
      (.list [.map [(.text "stem", .affix (.text "read") .null)]]) :=
    .list (.cons (.map (.cons (.affix _ hspec .affix) .nil)) .nil)
  have hlong : (Value.affix (.int Numeral.tooLong) .null).isWritable = false :=
    Bool.and_eq_false_iff.mpr (Or.inl Numeral.isWritable_tooLong)
  have hnumber : Encodes (.int Numeral.tooLong) .null (.affix (.int Numeral.tooLong) .null) :=
    .affix
  obtain ⟨-, hrefuses⟩ := hnumber.reads_alike.2.1 (Or.inl rfl) (.text "stem")
  have hrefused := (hrefuses [] [] (List.forall_mem_nil _)).1
  rw [hlong] at hrefused
  exact ⟨hspec, htrue ▸ hb, (hrecodes _ _ hstep [] [] (Or.inl rfl) file true).2, hrefused⟩

end FileChecks
