import Groundwork.Proofs.Environment
import Groundwork.Proofs.Record

set_option autoImplicit false

/- Laws over whole runs. Building a resource or an environment merges defaults into its fields,
writes single keys and writes complete variables back, none of which a law of values can be broken
by. So if the configuration obeys a law, everything that a run holds after any history of phase
calls obeys it: resources, modules, environments and the manifest, with their variables. -/
namespace Groundwork

variable {F : Fields → Prop} {V : Value → Prop}

namespace Variable

/-- The variable as it is written back, and its default, meet a condition. -/
structure Obeys (V : Value → Prop) (v : Variable) : Prop where
  value : V v.toValue
  default : V v.default

theorem Obeys.config {v : Variable} (obeys : v.Obeys V) (law : Value.Law F V) : F v.config :=
  law.fields obeys.value rfl

theorem isMarked_complete (target : String) (fields : Fields) :
    Value.isMarked (complete target fields) = true := by
  unfold Value.isMarked complete
  rw [Dict.get?_insert_of_ne _ _ (by decide), Dict.get?_insert_self]

theorem default_declare {catalog : Catalog} {target : String} {config : Fields} {v : Variable}
    (declared : declare catalog target config = .ok v) :
    v.default = (v.config.get? defaultKey).getD .null := by
  unfold declare at declared
  split at declared
  · cases declared
  · obtain ⟨merged, -, declared⟩ := Except.bind_eq_ok_iff.mp declared
    obtain ⟨text, -, rfl⟩ := Except.bind_pure_eq_ok_iff.mp declared
    rfl

theorem obeys_declare (law : Value.Law F V) {catalog : Catalog} {target : String}
    {config : Fields} {v : Variable} (good : F config)
    (declared : declare catalog target config = .ok v) : v.Obeys V := by
  obtain ⟨merged, declares⟩ := declare_ok declared
  have completed : F merged := law.withDefaults good declares.completed
  have targeted := law.insert targetKey completed (law.string target)
  have marked := law.insert Value.marker targeted (law.bool true)
  have complete : F v.config := by
    rw [declares.config_eq]
    exact law.insert Value.nameKey marked (law.string _)
  constructor
  -- The marker is among the complete fields, so the law sees them as those of a variable.
  · have value := law.ofFields complete
    rwa [Value.ofFields, declares.config_eq, if_pos (isMarked_complete target merged),
      ← declares.config_eq] at value
  · rw [default_declare declared]
    cases found : v.config.get? defaultKey with
    | none => exact law.null
    | some given => exact law.get? complete found

theorem obeys_extract (law : Value.Law F V) {catalog : Catalog} {fields : Fields}
    {vars : List Variable} (good : F fields) (extracted : extract catalog fields = .ok vars) :
    ∀ v ∈ vars, v.Obeys V := by
  intro v member
  obtain ⟨config, marked, declared⟩ := extract_sound extracted v member
  exact obeys_declare law (law.fields (law.each good _ marked) rfl) declared

/-- Writing variables back into the fields they were found in. -/
theorem obeys_written (law : Value.Law F V) {fields : Fields} {vars : List Variable}
    (good : F fields) (each : ∀ v ∈ vars, v.Obeys V) :
    F (vars.foldl (fun (fields : Fields) v => fields.insert v.target v.toValue) fields) :=
  List.foldlRecOn (motive := F) vars _ good fun _ kept v member =>
    law.insert v.target kept (each v member).value

/-- Writing variables into a mapping that is none. -/
theorem obeys_recorded (law : Value.Law F V) {fields : Fields} {vars : List Variable}
    (good : V (.map fields)) (each : ∀ v ∈ vars, v.Obeys V) :
    V (.map (vars.foldl (fun (fields : Fields) v => fields.insert v.target v.toValue) fields)) :=
  List.foldlRecOn (motive := fun fields => V (.map fields)) vars _ good fun _ kept v member =>
    law.write v.target kept (each v member).value

end Variable

/-- The fields, and all variables declared among them, meet a condition. -/
structure FieldsObey (F : Fields → Prop) (V : Value → Prop) (config : Fields)
    (vars : List Variable) : Prop where
  config : F config
  vars : ∀ v ∈ vars, v.Obeys V

abbrev Resource.Obeys (F : Fields → Prop) (V : Value → Prop) (r : Resource) : Prop :=
  FieldsObey F V r.config r.vars

abbrev Environment.Obeys (F : Fields → Prop) (V : Value → Prop) (e : Environment) : Prop :=
  FieldsObey F V e.config e.vars

structure Module.Obeys (F : Fields → Prop) (V : Value → Prop) (m : Module) : Prop where
  fields : FieldsObey F V m.config m.vars
  resources : ∀ r ∈ m.resources, r.Obeys F V

/-- The fields of a module's variables stand in its summary without their constructor. -/
structure Module.Summary.Obeys (F : Fields → Prop) (V : Value → Prop)
    (s : Module.Summary) : Prop where
  vars : ∀ fields ∈ s.vars, V (.variable fields)
  config : F s.config

namespace Resource

theorem obeys_nameIn (law : Value.Law F V) {config : Fields} (good : F config) (type : String)
    (pool : NamePool) : F (nameIn type config pool).1 := by
  by_cases missing : Nameless config
  · rw [nameIn_of_nameless missing]
    exact law.insert nameKey good (law.string _)
  · rw [nameIn_of_named missing]
    exact good

theorem obeys_build (law : Value.Law F V) {catalog : Catalog} {type : String} {config : Fields}
    {pool after : NamePool} {r : Resource} (good : F config)
    (success : build catalog type config pool = (.ok r, after)) : r.Obeys F V := by
  obtain ⟨merged, completed, -, assembles⟩ := build_ok success
  have complete : F merged := law.withDefaults good completed
  have named : F (nameIn type merged pool).1 := obeys_nameIn law complete type pool
  have placed := law.insert moduleKey named (law.string r.moduleName)
  have vars := Variable.obeys_extract law placed assembles.vars
  refine ⟨?_, vars⟩
  rw [assembles.config]
  exact Variable.obeys_written law placed vars

theorem obeys_buildAll (law : Value.Law F V) {catalog : Catalog}
    {entries : List (String × Fields)} {pool last : NamePool} {rs : List Resource}
    (good : ∀ e ∈ entries, F e.2) (success : buildAll catalog entries pool = (.ok rs, last)) :
    ∀ r ∈ rs, r.Obeys F V := by
  obtain ⟨cs, rfl, rfl, -⟩ := exists_creations success
  intro r member
  obtain ⟨c, inside, rfl⟩ := List.mem_map.mp member
  obtain ⟨pool, after, built⟩ := c.built
  exact obeys_build law (good c.entry (List.mem_map_of_mem inside)) built

end Resource

namespace Module

theorem Obeys.add {m : Module} (obeys : m.Obeys F V) {r : Resource} (added : r.Obeys F V) :
    (m.add r).Obeys F V := by
  constructor
  · refine ⟨obeys.fields.config, fun v member => ?_⟩
    exact (mem_addVariables member).elim (obeys.fields.vars v) (added.vars v)
  · intro other member
    rcases List.mem_append.mp member with old | new
    · exact obeys.resources other old
    · rw [List.mem_singleton.mp new]
      exact added

theorem obeys_empty {config : Fields} (good : F config) (name : String) :
    (empty name config).Obeys F V :=
  ⟨⟨good, fun _ member => nomatch member⟩, fun _ member => nomatch member⟩

theorem Obeys.summary {m : Module} (obeys : m.Obeys F V) : m.summary.Obeys F V := by
  refine ⟨fun fields member => ?_, obeys.fields.config⟩
  obtain ⟨v, inside, rfl⟩ := List.mem_map.mp member
  exact (obeys.fields.vars v inside).value

end Module

theorem Build.obeys_assembled (law : Value.Law F V) {p : Platform} (good : p.Obeys F)
    {rs : List Resource} (built : ∀ r ∈ rs, r.Obeys F V) :
    ∀ m ∈ Build.assembled p rs, m.Obeys F V := by
  have placeable : Build.Placeable rs (Module.Obeys F V) :=
    ⟨fun r _ => Module.obeys_empty law.nil r.moduleName,
      fun _ r listed obeys => obeys.add (built r listed)⟩
  refine placeable.assembled (fun e member => ?_) fun _ obeys => ⟨obeys.fields, obeys.resources⟩
  exact Module.obeys_empty (good.modules e member) e.1

namespace Environment

theorem obeys_declaredFields (law : Value.Law F V) {config : Fields} (good : F config) :
    V (.map (declaredFields config)) := by
  unfold declaredFields
  split
  · rename_i found
    exact law.get? good found
  · exact law.emptyMap

theorem obeys_inSection (law : Value.Law F V) {catalog : Catalog} {config : Fields}
    {vars : List Variable} (good : F config)
    (declared : List.Forall₂ (SectionVariable catalog) (declaredFields config) vars) :
    ∀ v ∈ vars, v.Obeys V := by
  intro v member
  obtain ⟨entry, inside, fields, found, declared⟩ := mem_of_forall₂ declared member
  have entries : F (declaredFields config) := law.fields (obeys_declaredFields law good) rfl
  exact Variable.obeys_declare law (law.fields (law.each entries entry inside) found) declared

theorem Obeys.refresh (law : Value.Law F V) {e : Environment} (obeys : e.Obeys F V) :
    e.refresh.Obeys F V := by
  have named := law.insert "name" obeys.config (law.string e.name)
  have coded := law.insert "main.tf" named (law.string e.mainCode)
  have declared := law.insert "var.tf" coded (law.string e.variableCode)
  have listed := law.insert "variables_names" declared (law.ofNames e.variableNames)
  have recorded := Variable.obeys_recorded law (obeys_declaredFields law listed) obeys.vars
  exact ⟨law.insert variablesKey listed recorded, obeys.vars⟩

theorem obeys_build (law : Value.Law F V) {catalog : Catalog} {name : String} {config : Fields}
    {e : Environment} (good : F config) (success : build catalog name config = .ok e) :
    e.Obeys F V := by
  obtain ⟨merged, inSection, marked, template, builds, rfl⟩ := build_ok success
  have complete : F merged := law.withDefaults good builds.completed
  have first := obeys_inSection law complete builds.inSection
  have second := Variable.obeys_extract law complete builds.marked
  apply Obeys.refresh law
  exact ⟨complete, fun v member => (Module.mem_addVariables member).elim (first v) (second v)⟩

theorem Obeys.extend (law : Value.Law F V) {catalog : Catalog} {e extended : Environment}
    {providers : List Provider} {modules : List Module} (obeys : e.Obeys F V)
    (success : e.extend catalog providers modules = .ok extended) : extended.Obeys F V := by
  obtain ⟨mainCode, -, rfl⟩ := extend_eq_ok_iff.mp success
  apply Obeys.refresh law
  exact ⟨obeys.config, obeys.vars⟩

theorem obeys_buildAll (law : Value.Law F V) {catalog : Catalog} {providers : List Provider}
    {modules : List Module} {entries : Dict Fields} {es : List Environment}
    (good : ∀ entry ∈ entries, F entry.2)
    (success : buildAll catalog providers modules entries = .ok es) :
    ∀ e ∈ es, e.Obeys F V := by
  intro e member
  obtain ⟨entry, inside, built, first, extended⟩ :=
    mem_of_forall₂ (forall₂_buildAll success) member
  exact (obeys_build law (good entry inside) first).extend law extended

end Environment

structure Manifest.Obeys (F : Fields → Prop) (V : Value → Prop) (m : Manifest) : Prop where
  providers : ∀ p ∈ m.providers, F p.params
  resources : ∀ r ∈ m.resources, F r.2
  modules : ∀ e ∈ m.modules, e.2.Obeys F V
  environments : ∀ e ∈ m.environments, F e.2
  extraAssets : ∀ e ∈ m.extraAssets, F e.2
  extra : F m.extra

namespace Build

/-- All that a run holds meets a condition. -/
structure Obeys (F : Fields → Prop) (V : Value → Prop) (b : Build) : Prop where
  platform : b.platform.Obeys F
  resources : ∀ r ∈ b.resources, r.Obeys F V
  modules : ∀ m ∈ b.modules, m.Obeys F V
  environments : ∀ e ∈ b.environments, e.Obeys F V
  manifest : b.manifest.Obeys F V

theorem obeys_moduleEntries (law : Value.Law F V) {p : Platform} (good : p.Obeys F) :
    ∀ entry ∈ moduleEntries p, F entry.2 := by
  intro entry member
  obtain ⟨m, listed, inside⟩ := List.mem_flatMap.mp member
  obtain ⟨r, declared, rfl⟩ := List.mem_map.mp inside
  have known := good.resources r
    (List.mem_append_left _ (List.mem_flatMap.mpr ⟨m, listed, declared⟩))
  exact law.insert Resource.moduleKey known (law.string m.1)

theorem obeys_topLevelEntries {p : Platform} (good : p.Obeys F) :
    ∀ entry ∈ topLevelEntries p, F entry.2 := by
  intro entry member
  obtain ⟨r, declared, rfl⟩ := List.mem_map.mp member
  exact good.resources r (List.mem_append_right _ declared)

theorem obeys_assetEntries (law : Value.Law F V) {p : Platform} (good : p.Obeys F) :
    ∀ entry ∈ assetEntries p, F entry.2 := by
  intro entry member
  rcases List.mem_append.mp member with declared | document
  · exact good.extraAssets entry (List.mem_filter.mp declared).1
  · rw [List.mem_singleton.mp document]
    cases found : p.extraAssets.get? Asset.actionRequiredName with
    | none => exact law.nil
    | some fields => exact good.extraAssets _ (Dict.mem_of_get? found)

/-- Where modules are assembled from resources, all of them are recorded. -/
theorem Obeys.assemble (law : Value.Law F V) {b c : Build} (obeys : b.Obeys F V)
    (platform : c.platform = b.platform) (environments : c.environments = b.environments)
    (manifest : c.manifest = b.manifest) (built : ∀ r ∈ c.resources, r.Obeys F V) :
    c.assemble.Obeys F V := by
  have good : c.platform.Obeys F := platform ▸ obeys.platform
  have recorded : c.manifest.Obeys F V := manifest ▸ obeys.manifest
  have modules := obeys_assembled law good built
  refine ⟨good, built, modules, environments ▸ obeys.environments, { recorded with
    resources := fun record member => ?_
    modules := fun record member => ?_ }⟩
  · obtain ⟨r, inside, rfl⟩ := List.mem_map.mp member
    exact (built r inside).config
  · obtain ⟨m, inside, rfl⟩ := List.mem_map.mp member
    exact (modules m inside).summary

theorem Obeys.run (law : Value.Law F V) {b : Build} (obeys : b.Obeys F V) (phase : Phase) :
    (b.run phase).2.Obeys F V := by
  cases phase with
  | modules =>
      refine settle_state obeys fun c success => ?_
      obtain ⟨rs, built, rfl⟩ := withModules_eq_ok_iff.mp success
      have built := Resource.obeys_buildAll law (obeys_moduleEntries law obeys.platform)
        (Prod.ext built rfl)
      refine obeys.assemble law rfl rfl rfl fun r member => ?_
      rcases List.mem_append.mp member with new | old
      · exact built r new
      · exact obeys.resources r (List.mem_append_right _ old)
  | resources =>
      refine settle_state obeys fun c success => ?_
      obtain ⟨rs, built, rfl⟩ := withResources_eq_ok_iff.mp success
      have built := Resource.obeys_buildAll law (obeys_topLevelEntries obeys.platform)
        (Prod.ext built rfl)
      refine obeys.assemble law rfl rfl rfl fun r member => ?_
      rcases List.mem_append.mp member with old | new
      · exact obeys.resources r (List.mem_append_left _ old)
      · exact built r new
  | environments =>
      refine settle_state obeys fun c success => ?_
      obtain ⟨es, built, rfl⟩ := withEnvironments_eq_ok_iff.mp success
      have built := Environment.obeys_buildAll law obeys.platform.environments built
      refine { obeys with
        environments := built
        manifest := { obeys.manifest with environments := fun record member => ?_ } }
      have written : record ∈ es.map fun e => (e.name, e.config) :=
        (Dict.ofList_sound _).2 record member
      obtain ⟨e, inside, rfl⟩ := List.mem_map.mp written
      exact (built e inside).config
  | extraAssets =>
      have declared : b.recordAssets.Obeys F V := { obeys with
        manifest := { obeys.manifest with
          extraAssets := obeys_assetEntries law obeys.platform } }
      refine settle_state declared fun c success => ?_
      obtain ⟨as, -, rfl⟩ := withAssets_eq_ok_iff.mp success
      exact { declared with }

theorem obeys_ofPlatform {p : Platform} (good : p.Obeys F) (destination : String)
    (context : Context) (generatedAt : String) :
    (ofPlatform p destination context generatedAt).Obeys F V where
  platform := good
  resources := fun _ member => nomatch member
  modules := fun _ member => nomatch member
  environments := fun _ member => nomatch member
  manifest := {
    providers := good.providers
    resources := fun _ member => nomatch member
    modules := fun _ member => nomatch member
    environments := fun _ member => nomatch member
    extraAssets := fun _ member => nomatch member
    extra := good.extra }

/-- A law that the configuration obeys is obeyed by all that a run holds after any history of phase
calls. -/
theorem obeys_progress (law : Value.Law F V) {raw : Fields} {destination : String}
    {context : Context} {generatedAt : String} {start : Build} (good : F raw)
    (started : ofConfig raw destination context generatedAt = .ok start) (calls : List Call) :
    (start.progress calls).state.Obeys F V := by
  obtain ⟨platform, read, rfl⟩ := ofConfig_eq_ok_iff.mp started
  have first : (ofPlatform platform destination context generatedAt).Obeys F V :=
    obeys_ofPlatform (Platform.obeys_ofConfig law good read) destination context generatedAt
  refine progress_rec (P := fun p => p.state.Obeys F V) first ?_ calls
  intro p c _ known
  have found : (p.state.reading c.disk).Obeys F V := { known with }
  rw [state_call]
  exact found.run law c.phase

end Build

end Groundwork
