import Groundwork.Proofs.Keyed
import Mathlib.Data.List.Forall2
import Mathlib.Data.List.Nodup

set_option autoImplicit false

/- The manifest as a mapping, and as an overlay on other fields. Its own fields show what the record
holds. They and the extra ones have different names, since normalising takes every name of an own
field out of the configuration. So neither hides the other, in the written manifest or in what the
follow-up document is rendered over. -/
namespace Groundwork

namespace Value

/-- The same scalars in the same places: mappings agree key by key, in whatever order and marked or
not. -/
inductive SameData : Value → Value → Prop where
  | null : SameData .null .null
  | bool (b : Bool) : SameData (.bool b) (.bool b)
  | number (n : Number) : SameData (.number n) (.number n)
  | string (s : String) : SameData (.string s) (.string s)
  | list {items others : List Value} (each : List.Forall₂ SameData items others) :
      SameData (.list items) (.list others)
  | mapping {v w : Value} {fields others : Fields} (left : v.fields? = some fields)
      (right : w.fields? = some others)
      (each : ∀ key, Option.Rel SameData (fields.get? key) (others.get? key)) : SameData v w

theorem SameData.eq_string {s : String} {v : Value} (same : SameData (.string s) v) :
    v = .string s := by
  cases same with
  | string => rfl
  | mapping left => nomatch left

theorem SameData.eq_names {names : List String} {v : Value}
    (same : SameData (.list (names.map .string)) v) : v = .list (names.map .string) := by
  cases same with
  | list each =>
      congr 1
      rw [List.forall₂_map_left_iff] at each
      induction each with
      | nil => rfl
      | cons item _ ih => rw [item.eq_string, ih, List.map_cons]
  | mapping left => nomatch left

theorem sortItems_eq_map (items : List Value) : sortItems items = items.map sortKeys := by
  induction items with
  | nil => rfl
  | cons v rest ih => rw [sortItems, ih, List.map_cons]

theorem sortFields_eq_map (fields : List (String × Value)) :
    sortFields fields = fields.map fun e => (e.1, sortKeys e.2) := by
  induction fields with
  | nil => rfl
  | cons e rest ih => rw [sortFields, ih, List.map_cons]

theorem keys_sortFields (fields : Fields) : Dict.keys (sortFields fields) = Dict.keys fields := by
  rw [sortFields_eq_map, Dict.keys, List.map_map]
  rfl

theorem distinct_sortFields {fields : Fields} (distinct : Dict.Distinct fields) :
    Dict.Distinct (sortFields fields) := by
  unfold Dict.Distinct
  rw [keys_sortFields]
  exact distinct

theorem get?_sortFields (fields : Fields) (key : String) :
    Dict.get? (sortFields fields) key = (fields.get? key).map sortKeys := by
  induction fields with
  | nil => rfl
  | cons e rest ih =>
      simp only [sortFields, Dict.get?]
      split
      · rfl
      · exact ih

theorem sameData_sorted {fields : Fields} (distinct : Dict.Distinct fields)
    (each : ∀ e ∈ fields, SameData e.2 e.2.sortKeys) (key : String) :
    Option.Rel SameData (fields.get? key) (Dict.get? (Dict.sorted (sortFields fields)) key) := by
  rw [(distinct_sortFields distinct).get?_sorted, get?_sortFields]
  cases found : fields.get? key with
  | none => exact .none
  | some v => exact .some (each _ (Dict.mem_of_get? found))

/-- Ordering keys changes no data. -/
theorem sameData_sortKeys {v : Value} (keyed : v.WellKeyed) : SameData v v.sortKeys := by
  induction keyed with
  | null => exact .null
  | bool b => exact .bool b
  | number n => exact .number n
  | string s => exact .string s
  | list each ih =>
      rw [sortKeys, sortItems_eq_map]
      apply SameData.list
      rw [List.forall₂_map_right_iff, List.forall₂_same]
      exact ih
  | «variable» distinct _ ih => exact .mapping rfl rfl (sameData_sorted distinct ih)
  | map distinct _ ih => exact .mapping rfl rfl (sameData_sorted distinct ih)

theorem fst_toEntries (fields : List (String × Value)) :
    (toEntries fields).map Prod.fst = (Dict.keys fields).map .string := by
  induction fields with
  | nil => rfl
  | cons e rest ih =>
      rw [toEntries, List.map_cons, ih]
      rfl

end Value

namespace Manifest

/-- The names of the fields that a manifest consists of, in the order they are written in. -/
def ownNames : List String :=
  ["generated_at", "providers", "resources", "resource_types", "modules", "environments",
    "extra_assets", "extra_asset_names"]

/-- The entries of a manifest without its extra fields. -/
def ownEntries (m : Manifest) : Fields := { m with extra := [] }.entries

theorem entries_eq (m : Manifest) : m.entries = m.ownEntries ++ m.extra := rfl

theorem keys_ownEntries (m : Manifest) : Dict.keys m.ownEntries = ownNames := rfl

theorem WellKeyed.ownEntries {m : Manifest} (keyed : m.WellKeyed) : m.ownEntries.WellKeyed := by
  have providers : Value.WellKeyed (.list (m.providers.map (·.toValue))) := by
    refine .list fun v member => ?_
    obtain ⟨p, inside, rfl⟩ := List.mem_map.mp member
    exact (Fields.wellKeyed_singleton (keyed.providers p inside).map).map
  have resources : Value.WellKeyed (.list (m.resources.map resourceValue)) := by
    refine .list fun v member => ?_
    obtain ⟨r, inside, rfl⟩ := List.mem_map.mp member
    exact (Fields.wellKeyed_singleton (keyed.resources r inside).map).map
  have modules := Value.wellKeyed_mappings keyed.modules.1 Module.Summary.toFields keyed.modules.2
  have environments := Value.wellKeyed_mappings keyed.environments.1 id keyed.environments.2
  have extraAssets := Value.wellKeyed_mappings keyed.extraAssets.1 id keyed.extraAssets.2
  have distinct : (Dict.keys m.ownEntries).Nodup := by
    rw [keys_ownEntries]
    decide
  refine ⟨distinct, ?_⟩
  simp only [Manifest.ownEntries, Manifest.entries, List.append_nil, List.forall_mem_cons]
  exact ⟨.string _, providers, resources, Value.wellKeyed_ofNames _, modules, environments,
    extraAssets, Value.wellKeyed_ofNames _, List.forall_mem_nil _⟩

/-- No extra field has the name of an own one. -/
def Apart (m : Manifest) : Prop := ∀ e ∈ m.extra, e.1 ∉ ownNames

theorem WellKeyed.entries {m : Manifest} (keyed : m.WellKeyed) (apart : m.Apart) :
    Fields.WellKeyed m.entries := by
  have own := keyed.ownEntries
  rw [entries_eq]
  constructor
  · unfold Dict.Distinct
    rw [Dict.keys_append, List.nodup_append]
    refine ⟨own.distinct, keyed.extra.distinct, ?_⟩
    intro name owned other extra same
    obtain ⟨e, member, rfl⟩ := List.mem_map.mp extra
    rw [keys_ownEntries, same] at owned
    exact apart e member owned
  · intro e member
    rcases List.mem_append.mp member with owned | extra
    · exact own.each e owned
    · exact keyed.extra.each e extra

theorem get?_context {m : Manifest} {base : Fields} (manifest : Dict.Distinct m.entries)
    (distinct : Dict.Distinct base) (key : String) :
    (m.context base).get? key =
      ((Dict.get? m.entries key).or (base.get? key)).map Value.sortKeys := by
  have first := Value.distinct_sortFields distinct
  have second := Value.distinct_sortFields manifest
  have halves : Value.sortFields (base ++ m.entries) =
      Value.sortFields base ++ Value.sortFields m.entries := by
    simp only [Value.sortFields_eq_map, List.map_append]
  rw [context, halves, Dict.get?_sorted, Dict.get?_ofList_append first second,
    Value.get?_sortFields, Value.get?_sortFields, Option.map_or]

/-- A key has the manifest's value, or else the base's. -/
theorem sameData_context {m : Manifest} {base : Fields} (manifest : Fields.WellKeyed m.entries)
    (keyed : base.WellKeyed) (key : String) :
    Option.Rel Value.SameData ((Dict.get? m.entries key).or (base.get? key))
      ((m.context base).get? key) := by
  rw [get?_context manifest.distinct keyed.distinct]
  cases found : (Dict.get? m.entries key).or (base.get? key) with
  | none => exact .none
  | some v =>
      apply Option.Rel.some
      apply Value.sameData_sortKeys
      rcases Option.or_eq_some_iff.mp found with own | ⟨-, other⟩
      · exact manifest.each _ (Dict.mem_of_get? own)
      · exact keyed.each _ (Dict.mem_of_get? other)

/-- The fields have this value under this name, as far as `same` tells values apart. -/
def Shows (same : Value → Value → Prop) (fields : Fields) (name : String) (value : Value) : Prop :=
  ∃ shown, fields.get? name = some shown ∧ same value shown

theorem Shows.of_rel {same : Value → Value → Prop} {fields : Fields} {name : String} {value : Value}
    (related : Option.Rel same (some value) (fields.get? name)) : Shows same fields name value := by
  generalize answer : fields.get? name = shown at related
  cases related with
  | some agrees => exact ⟨_, answer, agrees⟩

/-- Each field of the record stands under its name, a resource there under its type, a provider, module,
environment or asset under its own name. -/
structure Presents (m : Manifest) (same : Value → Value → Prop) (fields : Fields) : Prop where
  generatedAt : Shows same fields "generated_at" (.string m.generatedAt)
  providers : Shows same fields "providers"
    (.list (m.providers.map fun p => .map [(p.name, .map p.params)]))
  resources : Shows same fields "resources"
    (.list (m.resources.map fun r => .map [(r.1, .map r.2)]))
  resourceTypes : Shows same fields "resource_types" (.list (m.resourceTypes.map .string))
  modules : Shows same fields "modules" (.map (m.modules.map fun e => (e.1, .map
    [("name", .string e.2.name), ("main_tf", .string e.2.mainCode),
      ("var_tf", .string e.2.variableCode), ("variables", .list (e.2.vars.map .map)),
      ("variables_names", .list (e.2.variableNames.map .string)),
      ("vars_with_def", .list (e.2.withDefault.map .string)),
      ("vars_no_def", .list (e.2.withoutDefault.map .string)),
      ("resources", .list (e.2.resources.map .string)), ("config", .map e.2.config)])))
  environments : Shows same fields "environments"
    (.map (m.environments.map fun e => (e.1, .map e.2)))
  extraAssets : Shows same fields "extra_assets" (.map (m.extraAssets.map fun e => (e.1, .map e.2)))
  extraAssetNames : Shows same fields "extra_asset_names"
    (.list (m.extraAssetNames.map .string))

theorem presents_of_ownEntries {m : Manifest} {same : Value → Value → Prop} {fields : Fields}
    (shows : ∀ name value, m.ownEntries.get? name = some value → Shows same fields name value) :
    m.Presents same fields where
  generatedAt := shows _ _ rfl
  providers := shows _ _ rfl
  resources := shows _ _ rfl
  resourceTypes := shows _ _ rfl
  modules := shows _ _ rfl
  environments := shows _ _ rfl
  extraAssets := shows _ _ rfl
  extraAssetNames := shows _ _ rfl

/-- The manifest of a configuration. In what it is written as, and in what the follow-up document is
rendered over, each key stands once; there an own field has the value that the record has, any other key
that of the configuration, and a key that the configuration lacks that of the base. -/
structure KeysApart (merged : Fields) (m : Manifest) : Prop where
  names : Dict.keys m.ownEntries = ownNames
  written : ∃ fields : Fields, m.toDatum = .mapping (Value.toEntries fields) ∧
    ((Value.toEntries fields).map Prod.fst).Nodup ∧ m.Presents Eq fields ∧
    ∀ key, key ∉ ownNames → fields.get? key = merged.get? key
  /-- There is a context unless one of the two parts cannot be turned into JSON, and it is this one. -/
  built : ∀ (catalog : Catalog) (base context : Fields), m.renderContext catalog base = .ok context ↔
    catalog.checkJson base = .ok () ∧ catalog.checkJson m.entries = .ok () ∧ context = m.context base
  rendered : ∀ base : Fields, Dict.Distinct (m.context base)
  own : ∀ base : Fields, base.WellKeyed → m.Presents Value.SameData (m.context base)
  others : ∀ base : Fields, base.WellKeyed → ∀ key, key ∉ ownNames →
    Option.Rel Value.SameData ((merged.get? key).or (base.get? key)) ((m.context base).get? key)

theorem get?_entries_of_own {m : Manifest} {name : String} {value : Value}
    (owned : m.ownEntries.get? name = some value) : Dict.get? m.entries name = some value := by
  rw [entries_eq, Dict.get?_append, owned, Option.some_or]

theorem get?_entries_of_other {m : Manifest} {merged : Fields}
    (extra : m.extra = merged.filter fun e => e.1 ∉ ownNames) {key : String}
    (other : key ∉ ownNames) : Dict.get? m.entries key = merged.get? key := by
  have unknown : m.ownEntries.get? key = none := by
    rw [Dict.get?_eq_none_iff, keys_ownEntries]
    exact other
  rw [entries_eq, Dict.get?_append, unknown, Option.none_or, extra,
    Dict.get?_filter_keys merged (fun name => decide (name ∉ ownNames)),
    if_pos (decide_eq_true other)]

theorem WellKeyed.keysApart {m : Manifest} {merged : Fields} (keyed : m.WellKeyed)
    (extra : m.extra = merged.filter fun e => e.1 ∉ ownNames) : m.KeysApart merged := by
  have apart : m.Apart := by
    intro e member
    rw [extra] at member
    exact of_decide_eq_true (List.mem_filter.mp member).2
  have entries := keyed.entries apart
  constructor
  case names => exact keys_ownEntries m
  case written =>
    refine ⟨m.entries, rfl, ?_, ?_, fun key other => get?_entries_of_other extra other⟩
    · rw [Value.fst_toEntries]
      refine List.Nodup.map ?_ entries.distinct
      exact fun name other same => Yaml.Datum.string.inj same
    · exact presents_of_ownEntries fun name value owned =>
        ⟨value, get?_entries_of_own owned, rfl⟩
  case built => exact fun catalog base context => renderContext_eq_ok_iff
  case rendered => exact fun base => Dict.distinct_sorted _
  case own =>
    intro base baseKeyed
    refine presents_of_ownEntries fun name value owned => Shows.of_rel ?_
    have context := sameData_context entries baseKeyed name
    rwa [get?_entries_of_own owned, Option.some_or] at context
  case others =>
    intro base baseKeyed key other
    have context := sameData_context entries baseKeyed key
    rwa [get?_entries_of_other extra other] at context

end Manifest

namespace Build

/-- The extra fields are those of the completed configuration whose names are not the manifest's own, in
their order. So after any history of phase calls the manifest has no key twice, and in what the follow-up
document is rendered over nothing hides an own field, and only own fields hide an extra one. -/
theorem keysApart_progress {raw : Fields} {destination : String} {context : Context}
    {generatedAt : String} {start : Build} (keyed : raw.WellKeyed)
    (started : ofConfig raw destination context generatedAt = .ok start) (calls : List Call) :
    ∃ merged : Fields, context.catalog.withDefaults Platform.defaultsName raw = .ok merged ∧
      start.platform.extra = (merged.filter fun e => e.1 ∉ Manifest.ownNames) ∧
      (start.progress calls).state.manifest.KeysApart merged := by
  have manifest := (wellKeyed_progress keyed started calls).manifest
  have recorded := (recorded_progress keyed started calls).extra
  obtain ⟨platform, read, rfl⟩ := ofConfig_eq_ok_iff.mp started
  obtain ⟨merged, completed, -, describes⟩ := Platform.describes_ofConfig keyed read
  -- The two lists that normalising goes by name all own fields, and no others.
  have names : (Platform.sectionNames ++ Platform.computedNames).Perm Manifest.ownNames := by
    decide
  have extra : platform.extra = merged.filter fun e => e.1 ∉ Manifest.ownNames := by
    rw [describes.extra]
    simp only [names.mem_iff]
  exact ⟨merged, completed, extra, manifest.keysApart (recorded.trans extra)⟩

namespace Sample

/-- A configuration that has a value for one of the fields that a run computes. -/
def rawShadowing : Fields :=
  [("resource_types", .string "user"), ("project", .string "lakehouse"),
    ("resources", .list [.map [("bucket", .map [("public", .bool true)])]])]

/-- Fields of a follow-up document, one of them named as a field that a run computes. -/
def askedFor : Fields := [("resource_types", .string "never"), ("owner", .string "data")]

def shadowing : Build :=
  ofPlatform ⟨[], [⟨"bucket", [("public", .bool true)]⟩], [], [], [],
    [("project", .string "lakehouse")]⟩ "out" (context 0) "now"

theorem wellKeyed_rawShadowing : rawShadowing.WellKeyed := by
  have config : Fields.WellKeyed [("public", .bool true)] := Fields.wellKeyed_singleton (.bool true)
  have bucket : Fields.WellKeyed [("bucket", .map [("public", .bool true)])] :=
    Fields.wellKeyed_singleton config.map
  have resources : Value.WellKeyed (.list [.map [("bucket", .map [("public", .bool true)])]]) :=
    .list fun v member => List.mem_singleton.mp member ▸ bucket.map
  have behind : Fields.WellKeyed
      [("resources", .list [.map [("bucket", .map [("public", .bool true)])]])] :=
    Fields.wellKeyed_singleton resources
  exact (behind.cons (by decide) (.string "lakehouse")).cons (by decide) (.string "user")

theorem wellKeyed_askedFor : askedFor.WellKeyed :=
  (Fields.wellKeyed_singleton (.string "data")).cons (by decide) (.string "never")

end Sample

/-- The types that were built stand in the manifest and in what the document is rendered over, not what
the configuration or the document says of them. -/
theorem keysApart_progress_shadowing :
    (Sample.shadowing.progress [⟨.resources, Sample.disk⟩]).state.manifest.resourceTypes =
      ["bucket"] ∧
    ((Sample.shadowing.progress [⟨.resources, Sample.disk⟩]).state.manifest.context
      Sample.askedFor).get? "resource_types" = some (.list [.string "bucket"]) ∧
    ∃ merged, Sample.catalog.withDefaults Platform.defaultsName Sample.rawShadowing = .ok merged ∧
      [("project", Value.string "lakehouse")] =
        (merged.filter fun e => e.1 ∉ Manifest.ownNames) ∧
      (Sample.shadowing.progress
        [⟨.resources, Sample.disk⟩]).state.manifest.KeysApart merged := by
  have started : ofConfig Sample.rawShadowing "out" (Sample.context 0) "now" =
      .ok Sample.shadowing := Sample.ofConfig_of_ofFields rfl "out" 0
  have types : (Sample.shadowing.progress
      [⟨.resources, Sample.disk⟩]).state.manifest.resourceTypes = ["bucket"] := by decide +kernel
  obtain ⟨merged, completed, extra, apart⟩ :=
    keysApart_progress Sample.wellKeyed_rawShadowing started [⟨.resources, Sample.disk⟩]
  obtain ⟨shown, found, same⟩ := (apart.own _ Sample.wellKeyed_askedFor).resourceTypes
  rw [same.eq_names, types] at found
  exact ⟨types, found, merged, completed, extra, apart⟩

end Build

end Groundwork
