import Groundwork.Proofs.Lawful

set_option autoImplicit false

/- No mapping that a run holds repeats a key, at any depth. Fields come from the configuration and
from defaults, and not to repeat a key is a law of values; what is recorded of modules, environments
and assets is recorded under different names. So the manifest that a run has written after any
history is a mapping of mappings without repeated keys. -/
namespace Groundwork

theorem Value.wellKeyed_ofNames (names : List String) : (Value.ofNames names).WellKeyed :=
  Value.law_wellKeyed.ofNames names

/-- A mapping of mappings, none of which repeats a key. -/
theorem Value.wellKeyed_mappings {α : Type} {d : Dict α} (distinct : Dict.Distinct d)
    (fields : α → Fields) (each : ∀ e ∈ d, (fields e.2).WellKeyed) :
    Value.WellKeyed (.map (d.map fun e => (e.1, .map (fields e.2)))) := by
  refine .map ?_ fun entry member => ?_
  · show ((d.map fun e => (e.1, Value.map (fields e.2))).map Prod.fst).Nodup
    rw [List.map_map]
    exact distinct
  · obtain ⟨e, inside, rfl⟩ := List.mem_map.mp member
    exact (each e inside).map

/-- A summary is written as nine different fields. -/
theorem Module.Summary.Obeys.wellKeyed {s : Module.Summary}
    (obeys : s.Obeys Fields.WellKeyed Value.WellKeyed) : s.toFields.WellKeyed := by
  have declared : Value.WellKeyed (.list (s.vars.map .map)) := by
    refine .list fun value listed => ?_
    obtain ⟨fields, inside, rfl⟩ := List.mem_map.mp listed
    exact ((obeys.vars fields inside).fields rfl).map
  have distinct : (Dict.keys s.toFields).Nodup := by
    show ["name", "main_tf", "var_tf", "variables", "variables_names", "vars_with_def",
      "vars_no_def", "resources", "config"].Nodup
    decide
  refine ⟨distinct, ?_⟩
  simp only [toFields, List.forall_mem_cons]
  exact ⟨.string _, .string _, .string _, declared, Value.wellKeyed_ofNames _,
    Value.wellKeyed_ofNames _, Value.wellKeyed_ofNames _, Value.wellKeyed_ofNames _,
    obeys.config.map, List.forall_mem_nil _⟩

structure Manifest.WellKeyed (m : Manifest) : Prop where
  providers : ∀ p ∈ m.providers, p.params.WellKeyed
  resources : ∀ r ∈ m.resources, r.2.WellKeyed
  modules : Dict.Distinct m.modules ∧ ∀ e ∈ m.modules, e.2.toFields.WellKeyed
  environments : Dict.Distinct m.environments ∧ ∀ e ∈ m.environments, e.2.WellKeyed
  extraAssets : Dict.Distinct m.extraAssets ∧ ∀ e ∈ m.extraAssets, e.2.WellKeyed
  extra : m.extra.WellKeyed

/-- Nothing is recorded twice under one name. -/
structure Manifest.Distinct (m : Manifest) : Prop where
  modules : Dict.Distinct m.modules
  environments : Dict.Distinct m.environments
  extraAssets : Dict.Distinct m.extraAssets

namespace Build

theorem distinct_assemble {b : Build} (distinct : b.manifest.Distinct)
    (names : b.platform.NamesTargets) : b.assemble.manifest.Distinct := by
  refine { distinct with modules := ?_ }
  show (((assembled b.platform b.resources).map fun m => (m.name, m.summary)).map (·.1)).Nodup
  rw [List.map_map]
  exact (names_assembled names.modules b.resources).1

theorem distinct_run {b : Build} (distinct : b.manifest.Distinct)
    (names : b.platform.NamesTargets) (phase : Phase) : (b.run phase).2.manifest.Distinct := by
  cases phase with
  | modules =>
      refine settle_state (motive := fun c => c.manifest.Distinct) distinct fun c success => ?_
      obtain ⟨rs, -, rfl⟩ := withModules_eq_ok_iff.mp success
      exact distinct_assemble distinct names
  | resources =>
      refine settle_state (motive := fun c => c.manifest.Distinct) distinct fun c success => ?_
      obtain ⟨rs, -, rfl⟩ := withResources_eq_ok_iff.mp success
      exact distinct_assemble distinct names
  | environments =>
      refine settle_state (motive := fun c => c.manifest.Distinct) distinct fun c success => ?_
      obtain ⟨es, -, rfl⟩ := withEnvironments_eq_ok_iff.mp success
      exact { distinct with environments := (Dict.ofList_sound _).1 }
  | extraAssets =>
      have declared : b.recordAssets.manifest.Distinct :=
        { distinct with extraAssets := distinct_assetEntries names.extraAssets }
      refine settle_state (motive := fun c => c.manifest.Distinct) declared fun c success => ?_
      obtain ⟨as, -, rfl⟩ := withAssets_eq_ok_iff.mp success
      exact declared

theorem distinct_progress {raw : Fields} {destination : String} {context : Context}
    {generatedAt : String} {start : Build} (keyed : raw.WellKeyed)
    (started : ofConfig raw destination context generatedAt = .ok start) (calls : List Call) :
    (start.progress calls).state.manifest.Distinct := by
  obtain ⟨platform, read, rfl⟩ := ofConfig_eq_ok_iff.mp started
  have names : platform.NamesTargets := Platform.namesTargets_ofConfig keyed read
  have first : (Manifest.start generatedAt platform.providers platform.extra).Distinct :=
    ⟨List.nodup_nil, List.nodup_nil, List.nodup_nil⟩
  refine progress_rec (P := fun p => p.state.manifest.Distinct) first ?_ calls
  intro p c further known
  have same : (p.state.reading c.disk).platform = platform := further.platform
  have found : (p.state.reading c.disk).manifest.Distinct := known
  rw [state_call]
  exact distinct_run found (same ▸ names) c.phase

structure WellKeyed (b : Build) : Prop where
  resources : ∀ r ∈ b.resources, r.config.WellKeyed
  manifest : b.manifest.WellKeyed

/-- After any history of phase calls, no mapping that the manifest holds repeats a key. -/
theorem wellKeyed_progress {raw : Fields} {destination : String} {context : Context}
    {generatedAt : String} {start : Build} (keyed : raw.WellKeyed)
    (started : ofConfig raw destination context generatedAt = .ok start) (calls : List Call) :
    (start.progress calls).state.WellKeyed := by
  have obeys := obeys_progress Value.law_wellKeyed keyed started calls
  have distinct := distinct_progress keyed started calls
  refine ⟨fun r member => (obeys.resources r member).config, { obeys.manifest with
    modules := ⟨distinct.modules, fun e member => ?_⟩
    environments := ⟨distinct.environments, obeys.manifest.environments⟩
    extraAssets := ⟨distinct.extraAssets, obeys.manifest.extraAssets⟩ }⟩
  exact (obeys.manifest.modules e member).wellKeyed

end Build

end Groundwork
