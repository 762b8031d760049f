import FileChecks.Config.Basic
import FileChecks.Proofs.Config.Tree
import FileChecks.Proofs.Text.Split

/-!
Settings of layered configurations. Setting a value overrides the layers below at its path and
leaves all that is at other paths.
-/
namespace FileChecks

theorem KeyPath.ofText_ne_nil (key : String) : KeyPath.ofText key ≠ [] := by
  have hsplit := Text.split_ne_nil '.' key.toList
  simpa [KeyPath.ofText] using hsplit

theorem KeyPath.ofText_append (key rest : String) :
    KeyPath.ofText (key ++ "." ++ rest) = KeyPath.ofText key ++ KeyPath.ofText rest := by
  have htext : (key ++ "." ++ rest).toList = key.toList ++ '.' :: rest.toList := by simp
  rw [KeyPath.ofText, htext, Text.split_append_separator, List.map_append]
  rfl

theorem KeyPath.ofText_of_notMem {key : String} (h : '.' ∉ key.toList) :
    KeyPath.ofText key = [key] := by
  rw [KeyPath.ofText, Text.split_of_notMem h]
  simp

namespace Layer

def above (l : Layer) : List Layer := all.reverse.filter (l.number < ·.number)

def below (l : Layer) : List Layer := all.reverse.filter (·.number < l.number)

theorem reverse_all_eq (l : Layer) : all.reverse = l.above ++ l :: l.below := by
  cases l <;> rfl

theorem ne_of_mem_above {l l' : Layer} (h : l' ∈ l.above) : l' ≠ l := by
  rintro rfl
  simp [above] at h

theorem ne_of_mem_below {l l' : Layer} (h : l' ∈ l.below) : l' ≠ l := by
  rintro rfl
  simp [below] at h

end Layer

/-- A value that counts as one, which null does not. -/
def Value.present? : Value → Option Value
  | .null => none
  | v => some v

theorem Value.present?_of_ne {v : Value} (h : v ≠ .null) : v.present? = some v := by
  cases v with
  | null => exact absurd rfl h
  | _ => rfl

namespace Config
variable {c c' : Config} {key : String} {v : Value} {l : Layer}

theorem layer_withLayer (c : Config) (entries : Entries) (l l' : Layer) :
    (c.withLayer entries l).layer l' = if l' = l then entries else c.layer l' := by
  cases l <;> cases l' <;> rfl

theorem held?_eq (c : Config) (path : KeyPath) (l : Layer) :
    c.held? path l = ((Value.map (c.layer l)).atPath? path).bind Value.present? := by
  unfold held?
  cases (Value.map (c.layer l)).atPath? path with
  | none => rfl
  | some v => cases v <;> rfl

/-- A layer answers if none above it does. -/
theorem get?_eq_or (c : Config) (key : String) (l : Layer) :
    c.get? key = (l.above.findSome? (c.held? (KeyPath.ofText key))).or
      ((c.held? (KeyPath.ofText key) l).or
        (l.below.findSome? (c.held? (KeyPath.ofText key)))) := by
  unfold get?
  rw [l.reverse_all_eq, List.findSome?_append, List.findSome?_cons]
  cases c.held? (KeyPath.ofText key) l <;> rfl

/-- Setting a value puts it at its path in one layer. -/
theorem exists_of_set (h : c.set key v l = .ok c') :
    ∃ first rest entries, KeyPath.ofText key = first :: rest ∧
      (c.layer l).putAt first v rest = .ok entries ∧ c' = c.withLayer entries l := by
  unfold set at h
  cases hpath : KeyPath.ofText key with
  | nil => exact absurd hpath (KeyPath.ofText_ne_nil key)
  | cons first rest =>
    rw [hpath] at h
    cases hput : (c.layer l).putAt first v rest with
    | error f =>
      simp only [hput] at h
      cases h
    | ok entries =>
      simp only [hput] at h
      exact ⟨first, rest, entries, rfl, hput, (Except.ok.inj h).symm⟩

theorem layer_of_set (h : c.set key v l = .ok c') {l' : Layer} (hne : l' ≠ l) :
    c'.layer l' = c.layer l' := by
  obtain ⟨first, rest, entries, -, -, rfl⟩ := exists_of_set h
  rw [layer_withLayer, if_neg hne]

theorem held?_of_set_of_ne (h : c.set key v l = .ok c') (path : KeyPath) {l' : Layer}
    (hne : l' ≠ l) : c'.held? path l' = c.held? path l' := by
  rw [held?_eq, held?_eq, layer_of_set h hne]

theorem held?_of_set_self (h : c.set key v l = .ok c') :
    c'.held? (KeyPath.ofText key) l = v.present? := by
  obtain ⟨first, rest, entries, hpath, hput, rfl⟩ := exists_of_set h
  rw [held?_eq, layer_withLayer, if_pos rfl, hpath, Entries.atPath?_putAt hput]
  rfl

theorem held?_of_set_of_parts (h : c.set key v l = .ok c') {path : KeyPath}
    (hnot : ¬ KeyPath.ofText key <+: path) (hnot' : ¬ path <+: KeyPath.ofText key) (l' : Layer) :
    c'.held? path l' = c.held? path l' := by
  by_cases hl : l' = l
  · subst hl
    obtain ⟨first, rest, entries, hpath, hput, rfl⟩ := exists_of_set h
    rw [hpath] at hnot hnot'
    rw [held?_eq, held?_eq, layer_withLayer, if_pos rfl,
      Entries.atPath?_putAt_of_parts hput hnot hnot']
  · exact held?_of_set_of_ne h path hl

theorem findSome?_held?_of_set (h : c.set key v l = .ok c') (path : KeyPath)
    {layers : List Layer} (hne : ∀ l' ∈ layers, l' ≠ l) :
    layers.findSome? (c'.held? path) = layers.findSome? (c.held? path) := by
  have hheld : ∀ l' ∈ layers, c'.held? path l' = c.held? path l' := fun l' hl' =>
    held?_of_set_of_ne h path (hne l' hl')
  rw [← List.head?_filterMap, ← List.head?_filterMap, List.filterMap_congr hheld]

theorem get?_of_set_self (h : c.set key v l = .ok c') :
    c'.get? key = (l.above.findSome? (c.held? (KeyPath.ofText key))).or
      (v.present?.or (l.below.findSome? (c.held? (KeyPath.ofText key)))) := by
  have habove := findSome?_held?_of_set h (KeyPath.ofText key) fun _ => Layer.ne_of_mem_above
  have hbelow := findSome?_held?_of_set h (KeyPath.ofText key) fun _ => Layer.ne_of_mem_below
  rw [get?_eq_or c' key l, habove, hbelow, held?_of_set_self h]

/-- After a value is set, its path has the value of the highest layer above that holds one, or else
the set value unless it is null, or else that of the highest layer below, or else the default. Paths
that part from it have what they had. On the way there are maps, with all their other entries. -/
theorem set_overrides (h : c.set key v l = .ok c') :
    (∀ default, c'.get key default =
      ((l.above.findSome? (c.held? (KeyPath.ofText key))).or
        (v.present?.or (l.below.findSome? (c.held? (KeyPath.ofText key))))).getD default) ∧
    (∀ other default, ¬ KeyPath.ofText key <+: KeyPath.ofText other →
      ¬ KeyPath.ofText other <+: KeyPath.ofText key →
      c'.get other default = c.get other default) ∧
    ∀ path next more, path ++ next :: more = KeyPath.ofText key →
      ∃ entries : Entries, (Value.map (c'.layer l)).atPath? path = some (.map entries) ∧
        entries.except next = ((Value.map (c.layer l)).entriesAt path).except next := by
  refine ⟨fun default => ?_, fun other default hnot hnot' => ?_, fun path next more hway => ?_⟩
  · rw [get, get?_of_set_self h]
  · have hheld := funext (held?_of_set_of_parts h hnot hnot')
    rw [get, get, get?, get?, hheld]
  · obtain ⟨first, rest, entries, hpath, hput, rfl⟩ := exists_of_set h
    rw [layer_withLayer, if_pos rfl]
    exact Entries.atPath?_putAt_of_append hput (hway.trans hpath)

theorem set_overrides_builtin :
    ∃ c', initial.set "filematch.cache.max_entries" (.int 64) .builtin = .ok c' ∧
      (∀ default, c'.get "filematch.cache.max_entries" default = .int 64) ∧
      c'.get "filematch.logging.level" = .text "WARNING" ∧
      ∃ entries : Entries,
        (Value.map (c'.layer .builtin)).atPath? ["filematch", "cache"] = some (.map entries) ∧
          entries.except "max_entries" = [(.text "enabled", .bool true)] := by
  obtain ⟨c', h⟩ : ∃ c', initial.set "filematch.cache.max_entries" (.int 64) .builtin = .ok c' :=
    ⟨_, by with_unfolding_all rfl⟩
  obtain ⟨hself, hother, hway⟩ := set_overrides h
  refine ⟨c', h, fun default => ?_, ?_, ?_⟩
  · rw [hself]
    rfl
  · rw [hother _ _ (by decide +kernel) (by decide +kernel)]
    with_unfolding_all rfl
  · obtain ⟨entries, hpath, hexcept⟩ :=
      hway ["filematch", "cache"] "max_entries" [] (by decide +kernel)
    refine ⟨entries, hpath, hexcept.trans ?_⟩
    with_unfolding_all rfl

end Config
end FileChecks
