import Groundwork.Proofs.Run

set_option autoImplicit false

/- Resources declared inside modules are top-level resources that name their module. Moving them to
the front of the top-level list changes neither the outcome of a sequential run nor any of its
results. -/
namespace Groundwork

/-- The declaration that names the module it stands in. -/
def DeclaredResource.placedIn (moduleName : String) (e : DeclaredResource) : DeclaredResource where
  type := e.type
  config := e.config.insert Resource.moduleKey (.string moduleName)

/-- All resources at the top level, those of modules first and in module order. -/
def Platform.flattened (p : Platform) : Platform :=
  { p with
    modules := p.modules.map fun m => (m.1, { m.2 with resources := [] })
    resources := (p.modules.flatMap fun m => m.2.resources.map (·.placedIn m.1)) ++ p.resources }

namespace Build

theorem moduleEntries_flattened (p : Platform) : moduleEntries p.flattened = [] := by
  simp only [moduleEntries, Platform.flattened, List.flatMap_map, List.map_nil]
  exact List.flatMap_eq_nil_iff.mpr fun _ _ => rfl

theorem topLevelEntries_flattened (p : Platform) :
    topLevelEntries p.flattened = moduleEntries p ++ topLevelEntries p := by
  simp only [topLevelEntries, moduleEntries, Platform.flattened, List.map_append,
    List.map_flatMap, List.map_map]
  rfl

theorem givenName?_placedIn (moduleName : String) (e : DeclaredResource) :
    Resource.givenName? (e.placedIn moduleName).config = Resource.givenName? e.config := by
  unfold Resource.givenName? DeclaredResource.placedIn
  rw [Dict.get?_insert_of_ne _ _ (by decide)]

theorem givenNames_flattened (p : Platform) : givenNames p.flattened = givenNames p := by
  have emptied : (p.flattened.modules.flatMap fun m => m.2.resources) = [] := by
    simp only [Platform.flattened, List.flatMap_map]
    exact List.flatMap_eq_nil_iff.mpr fun _ _ => rfl
  rw [givenNames, emptied, List.nil_append]
  simp only [Platform.flattened, givenNames, List.filterMap_append, List.filterMap_flatMap,
    List.filterMap_map, Function.comp_def, givenName?_placedIn]

theorem assembled_flattened (p : Platform) (rs : List Resource) :
    assembled p.flattened rs = assembled p rs := by
  simp only [assembled, Platform.flattened, List.map_map, Function.comp_def]

structure Alike (b c : Build) : Prop where
  context : b.context = c.context
  providers : b.platform.providers = c.platform.providers
  declaredEnvironments : b.platform.environments = c.platform.environments
  declaredAssets : b.platform.extraAssets = c.platform.extraAssets
  resources : b.resources = c.resources
  modules : b.modules = c.modules
  environments : b.environments = c.environments
  assets : b.assets = c.assets
  manifest : b.manifest = c.manifest

theorem Alike.environmentPhase {b c : Build} (alike : Alike b c) :
    (b.run .environments).1 = (c.run .environments).1 ∧
      Alike (b.run .environments).2 (c.run .environments).2 := by
  have built : Environment.buildAll b.context.catalog b.platform.providers b.modules
      b.platform.environments = Environment.buildAll c.context.catalog c.platform.providers
        c.modules c.platform.environments := by
    rw [alike.context, alike.providers, alike.modules, alike.declaredEnvironments]
  unfold run withEnvironments
  rw [built]
  cases Environment.buildAll c.context.catalog c.platform.providers c.modules
    c.platform.environments with
  | error e => exact ⟨rfl, alike⟩
  | ok es =>
      exact ⟨rfl, { alike with
        environments := rfl
        manifest := congrArg (Manifest.withEnvironments · es) alike.manifest }⟩

theorem Alike.assetPhase {b c : Build} (alike : Alike b c) :
    (b.run .extraAssets).1 = (c.run .extraAssets).1 ∧
      Alike (b.run .extraAssets).2 (c.run .extraAssets).2 := by
  have entries : assetEntries b.platform = assetEntries c.platform := by
    unfold assetEntries
    rw [alike.declaredAssets]
  have manifest : b.recordAssets.manifest = c.recordAssets.manifest := by
    unfold recordAssets
    rw [entries, alike.manifest]
  have recorded : Alike b.recordAssets c.recordAssets := { alike with manifest }
  have built : Asset.buildAll b.recordAssets.context.catalog b.recordAssets.manifest
      (assetEntries b.recordAssets.platform) = Asset.buildAll c.recordAssets.context.catalog
        c.recordAssets.manifest (assetEntries c.recordAssets.platform) := by
    rw [recorded.context, manifest]
    exact congrArg _ entries
  unfold run withAssets
  rw [built]
  cases Asset.buildAll c.recordAssets.context.catalog c.recordAssets.manifest
    (assetEntries c.recordAssets.platform) with
  | error e => exact ⟨rfl, recorded⟩
  | ok as => exact ⟨rfl, { recorded with assets := rfl }⟩

/-- The phases behind the resources see nothing of the difference. -/
theorem Alike.runEach {b c : Build} (alike : Alike b c) (phases : List Phase)
    (later : ∀ phase ∈ phases, phase = .environments ∨ phase = .extraAssets) :
    (b.runEach phases).1 = (c.runEach phases).1 ∧
      Alike (b.runEach phases).2 (c.runEach phases).2 := by
  induction phases generalizing b c with
  | nil => exact ⟨rfl, alike⟩
  | cons phase rest ih =>
      have step : (b.run phase).1 = (c.run phase).1 ∧ Alike (b.run phase).2 (c.run phase).2 := by
        rcases later phase List.mem_cons_self with rfl | rfl
        · exact alike.environmentPhase
        · exact alike.assetPhase
      rw [runEach_cons, runEach_cons, ← step.1]
      cases (b.run phase).1 with
      | error e => exact ⟨rfl, step.2⟩
      | ok _ => exact ih step.2 fun other member => later other (List.mem_cons_of_mem phase member)

theorem mem_moduleEntries {p : Platform} {entry : String × Fields} :
    entry ∈ moduleEntries p ↔ ∃ m ∈ p.modules, ∃ e ∈ m.2.resources,
      ((e.placedIn m.1).type, (e.placedIn m.1).config) = entry := by
  simp only [moduleEntries, List.mem_flatMap, List.mem_map, DeclaredResource.placedIn]

theorem mem_givenNames_of_module {p : Platform} {m : String × DeclaredModule}
    {e : DeclaredResource} {name : String} (inModules : m ∈ p.modules)
    (inModule : e ∈ m.2.resources) (given : Resource.givenName? e.config = some name) :
    name ∈ givenNames p :=
  List.mem_filterMap.mpr
    ⟨e, List.mem_append_left _ (List.mem_flatMap.mpr ⟨m, inModules, inModule⟩), given⟩

section Resources

variable {p : Platform} {destination generatedAt : String} {context : Context}

/-- Behind the resources of modules, the running pool of one list agrees with the pool that the second
phase sets up anew. -/
theorem pools_flattened {rs : List Resource} {b c : Build} {seed other : Nat} {last : NamePool}
    (sequential : b.context.naming = .sequential) (naming : c.context.naming = .sequential)
    (distinct : ∀ m ∈ p.modules, ∀ e ∈ m.2.resources, e.config.Distinct)
    (nameless : ∀ m ∈ p.modules, ∀ e ∈ m.2.resources,
      Resource.NamesNoInstance context.catalog e.type)
    (built : Resource.buildAll context.catalog (moduleEntries p)
      (b.poolWith seed (givenNames p)) = (.ok rs, last)) :
    NamePool.Agree last (c.poolWith other (givenNames p ++ rs.map (·.instanceName))) := by
  have start := poolWith_agree sequential sequential (givenNames p) seed seed
  have agree := (Resource.buildAll_agree start context.catalog (moduleEntries p)).2
  rw [built] at agree
  refine ⟨agree.sequential, ?_, ?_⟩
  · rw [poolWith, NamePool.foldl_reserve_naming, agree.sequential]
    exact naming
  · intro type k
    rw [Resource.buildAll_taken built ?_ ?_ ?_, poolWith, poolWith,
      NamePool.mem_taken_foldl_reserve, NamePool.mem_taken_foldl_reserve, List.mem_append,
      ← or_assoc]
    · exact or_congr or_comm Iff.rfl
    · intro entry member
      obtain ⟨m, inModules, e, inModule, rfl⟩ := mem_moduleEntries.mp member
      exact (distinct m inModules e inModule).insert _ _
    · intro entry member
      obtain ⟨m, inModules, e, inModule, rfl⟩ := mem_moduleEntries.mp member
      exact nameless m inModules e inModule
    · intro entry member name given
      obtain ⟨m, inModules, e, inModule, rfl⟩ := mem_moduleEntries.mp member
      rw [givenName?_placedIn] at given
      rw [poolWith, NamePool.mem_taken_foldl_reserve]
      exact .inl (mem_givenNames_of_module inModules inModule given)

/-- Both ways of declaring give the same outcome of the phases that build resources, and states that are
alike if they succeed. -/
theorem resourcePhases_flattened (sequential : context.naming = .sequential)
    (distinct : ∀ m ∈ p.modules, ∀ e ∈ m.2.resources, e.config.Distinct)
    (nameless : ∀ m ∈ p.modules, ∀ e ∈ m.2.resources,
      Resource.NamesNoInstance context.catalog e.type) :
    ((ofPlatform p.flattened destination context generatedAt).runEach [.modules, .resources]).1 =
      ((ofPlatform p destination context generatedAt).runEach [.modules, .resources]).1 ∧
    (((ofPlatform p destination context generatedAt).runEach [.modules, .resources]).1 = .ok () →
      Alike ((ofPlatform p.flattened destination context generatedAt).runEach
          [.modules, .resources]).2
        ((ofPlatform p destination context generatedAt).runEach [.modules, .resources]).2) := by
  let flat := ofPlatform p.flattened destination context generatedAt
  let declared := ofPlatform p destination context generatedAt
  have none : (Resource.buildAll flat.context.catalog (moduleEntries flat.platform)
      (flat.poolWith flat.context.seed (givenNames flat.platform))).1 = .ok [] := by
    change (Resource.buildAll context.catalog (moduleEntries p.flattened) _).1 = _
    rw [moduleEntries_flattened]
    rfl
  have all : (Resource.buildAll flat.context.catalog (topLevelEntries flat.platform)
      (flat.poolWith (flat.context.seed + 1) (givenNames flat.platform ++
        ([] : List Resource).map (·.instanceName)))) =
      Resource.buildAll context.catalog (moduleEntries p ++ topLevelEntries p)
        (flat.poolWith (context.seed + 1) (givenNames p)) := by
    change Resource.buildAll context.catalog (topLevelEntries p.flattened)
      (flat.poolWith (context.seed + 1) (givenNames p.flattened ++ [])) = _
    rw [topLevelEntries_flattened, givenNames_flattened, List.append_nil]
  have start := poolWith_agree (b := flat) (c := declared) sequential sequential (givenNames p)
    (context.seed + 1) context.seed
  have first := (Resource.buildAll_agree start context.catalog (moduleEntries p)).1
  rw [runEach_resourcePhases flat, runEach_resourcePhases declared, none]
  dsimp only
  rw [all, Resource.buildAll_append]
  rcases built : Resource.buildAll context.catalog (moduleEntries p)
    (flat.poolWith (context.seed + 1) (givenNames p)) with ⟨e | rs, last⟩
  · rw [built] at first
    have same : (Resource.buildAll declared.context.catalog (moduleEntries declared.platform)
        (declared.poolWith declared.context.seed (givenNames declared.platform))).1 =
        .error e := first.symm
    rw [same]
    exact ⟨rfl, fun success => nomatch success⟩
  · rw [built] at first
    have same : (Resource.buildAll declared.context.catalog (moduleEntries declared.platform)
        (declared.poolWith declared.context.seed (givenNames declared.platform))).1 =
        .ok rs := first.symm
    have agree : NamePool.Agree last (declared.poolWith (context.seed + 1)
        (givenNames p ++ rs.map (·.instanceName))) :=
      pools_flattened sequential sequential distinct nameless built
    have second : (Resource.buildAll context.catalog (topLevelEntries p) last).1 =
        (Resource.buildAll declared.context.catalog (topLevelEntries declared.platform)
          (declared.poolWith (declared.context.seed + 1)
            (givenNames declared.platform ++ rs.map (·.instanceName)))).1 :=
      (Resource.buildAll_agree agree context.catalog (topLevelEntries p)).1
    rw [same]
    dsimp only
    rw [second]
    cases (Resource.buildAll declared.context.catalog (topLevelEntries declared.platform)
        (declared.poolWith (declared.context.seed + 1)
          (givenNames declared.platform ++ rs.map (·.instanceName)))).1 with
    | error e => exact ⟨rfl, fun success => nomatch success⟩
    | ok ts =>
        have modules := assembled_flattened p (rs ++ ts)
        have recorded : (((Manifest.start generatedAt p.providers p.extra).withResources
            (rs ++ ts)).withModules (assembled p.flattened (rs ++ ts))) =
            (((Manifest.start generatedAt p.providers p.extra).withResources
              (rs ++ ts)).withModules (assembled p (rs ++ ts))) := by rw [modules]
        exact ⟨rfl, fun _ => ⟨rfl, rfl, rfl, rfl, rfl, modules, rfl, rfl, recorded⟩⟩

/-- Module-declared resources are top-level ones that name their module. Over the flattened description
a run has the same outcome, the same error included; unless a resource cannot be built, it also ends
with the same resources in the same order, the same modules, environments and assets, and the same
manifest. -/
theorem runAll_flattened (sequential : context.naming = .sequential)
    (distinct : ∀ m ∈ p.modules, ∀ e ∈ m.2.resources, e.config.Distinct)
    (nameless : ∀ m ∈ p.modules, ∀ e ∈ m.2.resources,
      Resource.NamesNoInstance context.catalog e.type) :
    (ofPlatform p.flattened destination context generatedAt).runAll.1 =
      (ofPlatform p destination context generatedAt).runAll.1 ∧
    (((ofPlatform p destination context generatedAt).runEach [.modules, .resources]).1 = .ok () →
      Alike (ofPlatform p.flattened destination context generatedAt).runAll.2
        (ofPlatform p destination context generatedAt).runAll.2) := by
  obtain ⟨outcome, alike⟩ :=
    @resourcePhases_flattened p destination generatedAt context sequential distinct nameless
  have parts : Phase.all = [.modules, .resources] ++ [.environments, .extraAssets] := rfl
  unfold runAll
  rw [parts, runEach_append, runEach_append, outcome]
  rcases reached : ((ofPlatform p destination context generatedAt).runEach
    [.modules, .resources]).1 with e | _
  · exact ⟨rfl, fun success => nomatch success⟩
  · have rest := (alike reached).runEach [.environments, .extraAssets] (by decide)
    exact ⟨rest.1, fun _ => rest.2⟩

end Resources

/-- The nameless resource in a module keeps its generated name outside of it. -/
theorem runAll_flattened_storage :
    (Sample.start 0).runAll.1 = .ok () ∧
      Alike (ofPlatform Sample.platform.flattened "out" (Sample.context 0) "now").runAll.2
        (Sample.start 0).runAll.2 := by
  have defaults : Sample.catalog.defaults "bucket" = .ok [] :=
    Catalog.defaults_of_missing (by decide) (by decide +kernel)
  have nameless : ∀ m ∈ Sample.platform.modules, ∀ e ∈ m.2.resources,
      Resource.NamesNoInstance (Sample.context 0).catalog e.type := by
    intro m inModules e inModule found given
    cases List.mem_singleton.mp inModules
    cases List.mem_singleton.mp inModule
    cases Except.ok.inj (defaults.symm.trans given)
    rfl
  have distinct : ∀ m ∈ Sample.platform.modules, ∀ e ∈ m.2.resources, e.config.Distinct := by
    intro m inModules e inModule
    cases List.mem_singleton.mp inModules
    cases List.mem_singleton.mp inModule
    exact List.pairwise_singleton _ "public"
  have reached : ((Sample.start 0).runEach [.modules, .resources]).1 = .ok () := by
    decide +kernel
  have flattened := @runAll_flattened Sample.platform "out" "now" (Sample.context 0) rfl distinct
    nameless
  exact ⟨by decide +kernel, flattened.2 reached⟩

end Build

end Groundwork
