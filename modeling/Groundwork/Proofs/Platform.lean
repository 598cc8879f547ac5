import Groundwork.Proofs.Acceptance
import Groundwork.Proofs.Value

set_option autoImplicit false

/- Normalised descriptions. The sections of a description keep the names of the configuration, no
name stands twice in a section, and names that become directories are plain. Whatever law of values
the configuration obeys, the description obeys it too; so of a configuration without repeated keys
no mapping of the description repeats one. -/
namespace Groundwork

variable {F : Fields → Prop} {V : Value → Prop}

theorem Value.MappingFields.obeys {v : Value} {fields : Fields} (mapping : v.MappingFields fields)
    (law : Value.Law F V) (good : V v) : F fields := by
  cases mapping with
  | null => exact law.nil
  | map => exact law.fields good rfl

theorem Value.SingleAs.obeys {α : Type} {make : String → Fields → α} {v : Value} {x : α}
    (declared : SingleAs make v x) (law : Value.Law F V) (good : V v) :
    ∃ name fields, x = make name fields ∧ V (.map fields) := by
  cases declared with
  | single mapping =>
      have inner := law.each (law.fields good rfl) _ List.mem_cons_self
      cases mapping with
      | null => exact ⟨_, _, rfl, law.emptyMap⟩
      | map => exact ⟨_, _, rfl, inner⟩

theorem Value.Law.sectionValue (law : Value.Law F V) {raw : Fields} (good : F raw)
    (name : String) : V (raw.sectionValue name) := by
  unfold Fields.sectionValue
  cases found : raw.get? name with
  | none => exact law.null
  | some v => exact law.get? good found

namespace DeclaredResource

theorem ListedAs.obeys {v : Value} {rs : List DeclaredResource} (listed : ListedAs v rs)
    (law : Value.Law F V) (good : V v) : ∀ r ∈ rs, F r.config := by
  intro r member
  cases listed with
  | null => cases member
  | list each =>
      obtain ⟨entry, inside, declared⟩ := mem_of_forall₂ each member
      obtain ⟨type, config, rfl, lawful⟩ := declared.obeys law (law.list.mp good entry inside)
      exact law.fields lawful rfl

end DeclaredResource

namespace Provider

theorem obeys_ofEntries (law : Value.Law F V) {seen : List String} {entries : List Value}
    {ps : List Provider} (good : ∀ v ∈ entries, V v) (success : ofEntries seen entries = .ok ps) :
    ∀ p ∈ ps, F p.params := by
  induction entries generalizing seen ps with
  | nil =>
      cases Except.ok.inj success
      exact fun _ member => nomatch member
  | cons entry rest ih =>
      obtain ⟨p, found, success⟩ := Except.bind_eq_ok_iff.mp success
      obtain ⟨_, -, success⟩ := Except.bind_eq_ok_iff.mp success
      obtain ⟨others, more, rfl⟩ := Except.bind_pure_eq_ok_iff.mp success
      obtain ⟨name, params, rfl, lawful⟩ :=
        (Value.single_eq_ok_iff.mp found).obeys law (good entry List.mem_cons_self)
      rw [List.forall_mem_cons] at good ⊢
      exact ⟨law.fields lawful rfl, ih good.2 more⟩

theorem obeys_ofSection (law : Value.Law F V) {raw : Fields} {name : String}
    {ps : List Provider} (good : F raw) (success : ofSection (raw.get? name) = .ok ps) :
    ∀ p ∈ ps, F p.params := by
  unfold ofSection at success
  split at success
  · cases success
    exact fun _ member => nomatch member
  · cases success
    exact fun _ member => nomatch member
  · rename_i found
    exact obeys_ofEntries law (law.list.mp (law.get? good found)) success
  · cases success

end Provider

namespace Platform

variable {α : Type} {reads : String → Value → α → Prop}

theorem EntriesAs.keys {fields : Fields} {entries : Dict α}
    (each : EntriesAs reads fields entries) : Dict.keys entries = Dict.keys fields :=
  map_eq_of_forall₂ each fun _ _ read => read.1

/-- No name stands twice in a section. -/
theorem ReadAs.distinct {v : Value} {entries : Dict α} (read : ReadAs reads v entries)
    (keyed : v.WellKeyed) : Dict.Distinct entries := by
  obtain ⟨fields, mapping, each⟩ := read
  unfold Dict.Distinct
  rw [each.keys]
  exact (mapping.obeys Value.law_wellKeyed keyed).distinct

/-- Every entry of a section was read from a value under its name. -/
theorem ReadAs.mem {v : Value} {entries : Dict α} (read : ReadAs reads v entries)
    (law : Value.Law F V) (good : V v) {entry : String × α} (member : entry ∈ entries) :
    ∃ value : Value, V value ∧ reads entry.1 value entry.2 := by
  obtain ⟨fields, mapping, each⟩ := read
  obtain ⟨given, inside, name, found⟩ := mem_of_forall₂ each member
  refine ⟨given.2, law.each (mapping.obeys law good) given inside, ?_⟩
  rw [name]
  exact found

theorem ModuleAs.obeys {name : String} {v : Value} {m : DeclaredModule}
    (declared : ModuleAs name v m) (law : Value.Law F V) (good : V v) :
    F m.fields ∧ ∀ r ∈ m.resources, F r.config := by
  obtain ⟨fields, mapping, listed, same⟩ := declared.parts
  have inner := mapping.obeys law good
  rw [same]
  exact ⟨law.filter _ inner, listed.obeys law (law.sectionValue inner resourcesKey)⟩

/-- The sections whose names become entries of the destination. -/
structure NamesTargets (p : Platform) : Prop where
  modules : Dict.Distinct p.modules
  environments : Dict.Distinct p.environments
  extraAssets : Dict.Distinct p.extraAssets
  plainModules : ∀ name ∈ Dict.keys p.modules, isPlainName name = true
  plainEnvironments : ∀ name ∈ Dict.keys p.environments, isPlainName name = true

theorem Describes.namesTargets {raw : Fields} {p : Platform} (describes : Describes raw p)
    (keyed : raw.WellKeyed) : p.NamesTargets where
  modules := describes.modules.distinct (Value.law_wellKeyed.sectionValue keyed _)
  environments := describes.environments.distinct (Value.law_wellKeyed.sectionValue keyed _)
  extraAssets := describes.extraAssets.distinct (Value.law_wellKeyed.sectionValue keyed _)
  plainModules := by
    intro name member
    obtain ⟨entry, listed, rfl⟩ := List.mem_map.mp member
    obtain ⟨value, -, declared⟩ := describes.modules.mem Value.law_wellKeyed
      (Value.law_wellKeyed.sectionValue keyed _) listed
    exact isPlainName_iff.mpr declared.name
  plainEnvironments := by
    intro name member
    obtain ⟨entry, listed, rfl⟩ := List.mem_map.mp member
    obtain ⟨value, -, plain, -⟩ := describes.environments.mem Value.law_wellKeyed
      (Value.law_wellKeyed.sectionValue keyed _) listed
    exact isPlainName_iff.mpr plain

/-- All fields of a description meet a condition. -/
structure Obeys (F : Fields → Prop) (p : Platform) : Prop where
  providers : ∀ x ∈ p.providers, F x.params
  resources : ∀ r ∈ (p.modules.flatMap fun m => m.2.resources) ++ p.resources, F r.config
  modules : ∀ m ∈ p.modules, F m.2.fields
  environments : ∀ e ∈ p.environments, F e.2
  extraAssets : ∀ e ∈ p.extraAssets, F e.2
  extra : F p.extra

theorem Describes.obeys {raw : Fields} {p : Platform} (describes : Describes raw p)
    (law : Value.Law F V) (good : F raw) : p.Obeys F where
  providers := Provider.obeys_ofSection law good describes.providers
  resources := by
    intro r member
    rcases List.mem_append.mp member with inside | outside
    · obtain ⟨m, listed, declared⟩ := List.mem_flatMap.mp inside
      obtain ⟨value, inner, module⟩ := describes.modules.mem law (law.sectionValue good _) listed
      exact (module.obeys law inner).2 r declared
    · exact describes.resources.obeys law (law.sectionValue good _) r outside
  modules := by
    intro m member
    obtain ⟨value, inner, module⟩ := describes.modules.mem law (law.sectionValue good _) member
    exact (module.obeys law inner).1
  environments := by
    intro e member
    obtain ⟨value, inner, -, mapping⟩ :=
      describes.environments.mem law (law.sectionValue good _) member
    exact mapping.obeys law inner
  extraAssets := by
    intro e member
    obtain ⟨value, inner, mapping⟩ :=
      describes.extraAssets.mem law (law.sectionValue good _) member
    exact mapping.obeys law inner
  extra := by
    rw [describes.extra]
    exact law.filter _ good

/-- A configuration is normalised as one that defaults were merged into. -/
theorem describes_merged {catalog : Catalog} {raw : Fields} {p : Platform} (law : Value.Law F V)
    (good : F raw) (success : ofConfig catalog raw = .ok p) :
    ∃ merged : Fields, catalog.withDefaults defaultsName raw = .ok merged ∧ F merged ∧
      Describes merged p := by
  obtain ⟨merged, completed, read⟩ := Except.bind_eq_ok_iff.mp success
  have completed := ofTemplates_eq_ok_iff.mp completed
  exact ⟨merged, completed, law.withDefaults good completed, ofFields_eq_ok_iff.mp read⟩

theorem obeys_ofConfig {catalog : Catalog} {raw : Fields} {p : Platform} (law : Value.Law F V)
    (good : F raw) (success : ofConfig catalog raw = .ok p) : p.Obeys F := by
  obtain ⟨merged, -, inner, describes⟩ := describes_merged law good success
  exact describes.obeys law inner

/-- A configuration is normalised as one without repeated keys, completed by defaults. -/
theorem describes_ofConfig {catalog : Catalog} {raw : Fields} {p : Platform}
    (keyed : raw.WellKeyed) (success : ofConfig catalog raw = .ok p) :
    ∃ merged : Fields, catalog.withDefaults defaultsName raw = .ok merged ∧ merged.WellKeyed ∧
      Describes merged p := describes_merged Value.law_wellKeyed keyed success

/-- A configuration without repeated keys is normalised to one, whatever the defaults are. -/
theorem namesTargets_ofConfig {catalog : Catalog} {raw : Fields} {p : Platform}
    (keyed : raw.WellKeyed) (success : ofConfig catalog raw = .ok p) : p.NamesTargets := by
  obtain ⟨merged, -, inner, describes⟩ := describes_ofConfig keyed success
  exact describes.namesTargets inner

/-- The declared resources of a configuration without repeated keys have none either. -/
theorem wellKeyed_resources {catalog : Catalog} {raw : Fields} {p : Platform}
    (keyed : raw.WellKeyed) (success : ofConfig catalog raw = .ok p) :
    ∀ r ∈ (p.modules.flatMap fun m => m.2.resources) ++ p.resources, r.config.WellKeyed :=
  (obeys_ofConfig Value.law_wellKeyed keyed success).resources

end Platform

end Groundwork
