import Groundwork.Build
import Groundwork.Proofs.Resource
import Mathlib.Control.Monad.Basic

set_option autoImplicit false

/- Runs and reruns. A phase rebuilds its results from the description and from the results of the
phases before it, so a full run ends in one state, whatever stale results it started from, and every
phase called after it finds its own results again. -/
namespace Groundwork.Build

/-- The state after phase calls in any order, each of which succeeds or fails. -/
def after (b : Build) (calls : List Phase) : Build :=
  calls.foldl (fun b phase => (b.run phase).2) b

theorem withModules_eq_ok_iff {b c : Build} :
    b.withModules = .ok c ↔ ∃ rs,
      (Resource.buildAll b.context.catalog (moduleEntries b.platform)
        (b.poolWith b.context.seed (givenNames b.platform))).1 = .ok rs ∧
      { b with moduleResources := rs }.assemble = c :=
  Except.bind_pure_eq_ok_iff

theorem withResources_eq_ok_iff {b c : Build} :
    b.withResources = .ok c ↔ ∃ rs,
      (Resource.buildAll b.context.catalog (topLevelEntries b.platform)
        (b.poolWith (b.context.seed + 1)
          (givenNames b.platform ++ b.moduleResources.map (·.instanceName)))).1 = .ok rs ∧
      { b with topLevelResources := rs }.assemble = c :=
  Except.bind_pure_eq_ok_iff

theorem withEnvironments_eq_ok_iff {b c : Build} :
    b.withEnvironments = .ok c ↔ ∃ es,
      Environment.buildAll b.context.catalog b.platform.providers b.modules
        b.platform.environments = .ok es ∧
      { b with environments := es, manifest := b.manifest.withEnvironments es } = c :=
  Except.bind_pure_eq_ok_iff

theorem withAssets_eq_ok_iff {b c : Build} :
    b.withAssets = .ok c ↔ ∃ as,
      Asset.buildAll b.context.catalog b.manifest (assetEntries b.platform) = .ok as ∧
      { b with assets := as } = c :=
  Except.bind_pure_eq_ok_iff

theorem run_modules (b : Build) :
    b.run .modules =
      match (Resource.buildAll b.context.catalog (moduleEntries b.platform)
        (b.poolWith b.context.seed (givenNames b.platform))).1 with
      | .ok rs => (.ok (), { b with moduleResources := rs }.assemble)
      | .error e => (.error e, b) := by
  unfold run withModules
  dsimp only
  cases (Resource.buildAll b.context.catalog (moduleEntries b.platform)
    (b.poolWith b.context.seed (givenNames b.platform))).1 <;> rfl

theorem run_resources (b : Build) :
    b.run .resources =
      match (Resource.buildAll b.context.catalog (topLevelEntries b.platform)
        (b.poolWith (b.context.seed + 1)
          (givenNames b.platform ++ b.moduleResources.map (·.instanceName)))).1 with
      | .ok rs => (.ok (), { b with topLevelResources := rs }.assemble)
      | .error e => (.error e, b) := by
  unfold run withResources
  dsimp only
  cases (Resource.buildAll b.context.catalog (topLevelEntries b.platform)
    (b.poolWith (b.context.seed + 1)
      (givenNames b.platform ++ b.moduleResources.map (·.instanceName)))).1 <;> rfl

theorem settle_eq_ok_iff {b c : Build} {step : Except Failure Build} :
    b.settle step = (.ok (), c) ↔ step = .ok c := by
  cases step with
  | error e => exact ⟨fun failed => (nomatch congrArg Prod.fst failed), fun failed => nomatch failed⟩
  | ok d => exact ⟨fun same => congrArg (Except.ok ·.2) same, fun same => by cases same; rfl⟩

theorem runEach_cons (b : Build) (phase : Phase) (rest : List Phase) :
    b.runEach (phase :: rest) =
      match (b.run phase).1 with
      | .ok () => (b.run phase).2.runEach rest
      | .error e => (.error e, (b.run phase).2) := by
  rw [runEach]
  rcases b.run phase with ⟨_ | ⟨⟩, c⟩ <;> rfl

theorem runEach_cons_eq_ok_iff {b c : Build} {phase : Phase} {rest : List Phase} :
    b.runEach (phase :: rest) = (.ok (), c) ↔
      ∃ d, b.run phase = (.ok (), d) ∧ d.runEach rest = (.ok (), c) := by
  rw [runEach_cons]
  rcases b.run phase with ⟨_ | ⟨⟩, d⟩
  · exact ⟨fun failed => (nomatch congrArg Prod.fst failed),
      fun ⟨_, failed, _⟩ => (nomatch congrArg Prod.fst failed)⟩
  · constructor
    · exact fun success => ⟨d, rfl, success⟩
    · rintro ⟨_, ⟨⟩, success⟩
      exact success

theorem runEach_append (b : Build) (first second : List Phase) :
    b.runEach (first ++ second) =
      match (b.runEach first).1 with
      | .ok () => (b.runEach first).2.runEach second
      | .error e => (.error e, (b.runEach first).2) := by
  induction first generalizing b with
  | nil => rfl
  | cons phase rest ih =>
      rw [List.cons_append, runEach_cons, runEach_cons]
      cases (b.run phase).1 with
      | error e => rfl
      | ok _ => exact ih (b.run phase).2

/-- The two phases that build resources, as one: the second continues with the names of the first. -/
theorem runEach_resourcePhases (b : Build) :
    b.runEach [.modules, .resources] =
      match (Resource.buildAll b.context.catalog (moduleEntries b.platform)
        (b.poolWith b.context.seed (givenNames b.platform))).1 with
      | .error e => (.error e, b)
      | .ok rs =>
          match (Resource.buildAll b.context.catalog (topLevelEntries b.platform)
            (b.poolWith (b.context.seed + 1)
              (givenNames b.platform ++ rs.map (·.instanceName)))).1 with
          | .error e => (.error e, { b with moduleResources := rs }.assemble)
          | .ok ts => (.ok (),
              { { b with moduleResources := rs }.assemble with topLevelResources := ts }.assemble) := by
  rw [runEach_cons, run_modules]
  cases (Resource.buildAll b.context.catalog (moduleEntries b.platform)
    (b.poolWith b.context.seed (givenNames b.platform))).1 with
  | error e => rfl
  | ok rs =>
      have second : ({ b with moduleResources := rs }.assemble).run .resources =
          match (Resource.buildAll b.context.catalog (topLevelEntries b.platform)
            (b.poolWith (b.context.seed + 1)
              (givenNames b.platform ++ rs.map (·.instanceName)))).1 with
          | .ok ts => (.ok (),
              { { b with moduleResources := rs }.assemble with topLevelResources := ts }.assemble)
          | .error e => (.error e, { b with moduleResources := rs }.assemble) := run_resources _
      dsimp only
      rw [runEach_cons, second]
      cases (Resource.buildAll b.context.catalog (topLevelEntries b.platform)
        (b.poolWith (b.context.seed + 1)
          (givenNames b.platform ++ rs.map (·.instanceName)))).1 <;> rfl

/-- A full run succeeds when its four phases do, one after the other. -/
theorem runAll_eq_ok_iff {b c : Build} :
    b.runAll = (.ok (), c) ↔ ∃ m r e, b.withModules = .ok m ∧ m.withResources = .ok r ∧
      r.withEnvironments = .ok e ∧ e.recordAssets.withAssets = .ok c := by
  unfold runAll Phase.all
  simp only [runEach_cons_eq_ok_iff, run, settle_eq_ok_iff]
  constructor
  · rintro ⟨m, modules, r, resources, e, environments, d, assets, ⟨⟩⟩
    exact ⟨m, r, e, modules, resources, environments, assets⟩
  · rintro ⟨m, r, e, modules, resources, environments, assets⟩
    exact ⟨m, modules, r, resources, e, environments, c, assets, rfl⟩

/-- The parts of a state that no phase writes. -/
structure Keeps (b c : Build) : Prop where
  platform : c.platform = b.platform
  destination : c.destination = b.destination
  context : c.context = b.context
  generatedAt : c.manifest.generatedAt = b.manifest.generatedAt
  providers : c.manifest.providers = b.manifest.providers
  extra : c.manifest.extra = b.manifest.extra

theorem Keeps.refl (b : Build) : Keeps b b := ⟨rfl, rfl, rfl, rfl, rfl, rfl⟩

theorem Keeps.trans {b c d : Build} (first : Keeps b c) (second : Keeps c d) : Keeps b d :=
  ⟨second.platform.trans first.platform, second.destination.trans first.destination,
    second.context.trans first.context, second.generatedAt.trans first.generatedAt,
    second.providers.trans first.providers, second.extra.trans first.extra⟩

/-- A settled step leaves either the state it started in or the state it found. -/
theorem settle_state {motive : Build → Prop} {b : Build} {step : Except Failure Build}
    (before : motive b) (found : ∀ c, step = .ok c → motive c) : motive (b.settle step).2 := by
  cases step with
  | error e => exact before
  | ok c => exact found c rfl

theorem keeps_run (b : Build) (phase : Phase) : Keeps b (b.run phase).2 := by
  cases phase with
  | modules =>
      refine settle_state (Keeps.refl b) fun c success => ?_
      obtain ⟨rs, -, rfl⟩ := withModules_eq_ok_iff.mp success
      exact ⟨rfl, rfl, rfl, rfl, rfl, rfl⟩
  | resources =>
      refine settle_state (Keeps.refl b) fun c success => ?_
      obtain ⟨rs, -, rfl⟩ := withResources_eq_ok_iff.mp success
      exact ⟨rfl, rfl, rfl, rfl, rfl, rfl⟩
  | environments =>
      refine settle_state (Keeps.refl b) fun c success => ?_
      obtain ⟨es, -, rfl⟩ := withEnvironments_eq_ok_iff.mp success
      exact ⟨rfl, rfl, rfl, rfl, rfl, rfl⟩
  | extraAssets =>
      have recorded : Keeps b b.recordAssets := ⟨rfl, rfl, rfl, rfl, rfl, rfl⟩
      refine settle_state recorded fun c success => ?_
      obtain ⟨as, -, rfl⟩ := withAssets_eq_ok_iff.mp success
      exact ⟨rfl, rfl, rfl, rfl, rfl, rfl⟩

theorem keeps_after (b : Build) (calls : List Phase) : Keeps b (b.after calls) := by
  induction calls generalizing b with
  | nil => exact Keeps.refl b
  | cons phase rest ih => exact (keeps_run b phase).trans (ih (b.run phase).2)

/-- The state that holds the results of a full run. -/
def rebuilt (b : Build) (rs ts : List Resource) (es : List Environment) (as : List Asset) : Build :=
  { b with
    moduleResources := rs
    topLevelResources := ts
    modules := assembled b.platform (rs ++ ts)
    environments := es
    assets := as
    manifest := (((b.manifest.withResources (rs ++ ts)).withModules
      (assembled b.platform (rs ++ ts))).withEnvironments es).withExtraAssets
        (assetEntries b.platform) }

/-- These are the results of a full run. No condition reads a result that the state held before. -/
structure Completes (b : Build) (rs ts : List Resource) (es : List Environment)
    (as : List Asset) : Prop where
  modules : (Resource.buildAll b.context.catalog (moduleEntries b.platform)
    (b.poolWith b.context.seed (givenNames b.platform))).1 = .ok rs
  resources : (Resource.buildAll b.context.catalog (topLevelEntries b.platform)
    (b.poolWith (b.context.seed + 1)
      (givenNames b.platform ++ rs.map (·.instanceName)))).1 = .ok ts
  environments : Environment.buildAll b.context.catalog b.platform.providers
    (assembled b.platform (rs ++ ts)) b.platform.environments = .ok es
  assets : Asset.buildAll b.context.catalog (b.rebuilt rs ts es as).manifest
    (assetEntries b.platform) = .ok as

theorem runAll_eq_ok_iff_completes {b c : Build} :
    b.runAll = (.ok (), c) ↔ ∃ rs ts es as, Completes b rs ts es as ∧ c = b.rebuilt rs ts es as := by
  rw [runAll_eq_ok_iff]
  constructor
  · rintro ⟨m, r, e, modules, resources, environments, assets⟩
    obtain ⟨rs, builtModules, rfl⟩ := withModules_eq_ok_iff.mp modules
    obtain ⟨ts, builtResources, rfl⟩ := withResources_eq_ok_iff.mp resources
    obtain ⟨es, builtEnvironments, rfl⟩ := withEnvironments_eq_ok_iff.mp environments
    obtain ⟨as, builtAssets, rfl⟩ := withAssets_eq_ok_iff.mp assets
    exact ⟨rs, ts, es, as, ⟨builtModules, builtResources, builtEnvironments, builtAssets⟩, rfl⟩
  · rintro ⟨rs, ts, es, as, completes, rfl⟩
    exact ⟨_, _, _, withModules_eq_ok_iff.mpr ⟨rs, completes.modules, rfl⟩,
      withResources_eq_ok_iff.mpr ⟨ts, completes.resources, rfl⟩,
      withEnvironments_eq_ok_iff.mpr ⟨es, completes.environments, rfl⟩,
      withAssets_eq_ok_iff.mpr ⟨as, completes.assets, rfl⟩⟩

theorem completes_of_runAll {b : Build} (success : b.runAll.1 = .ok ()) :
    ∃ rs ts es as, Completes b rs ts es as ∧ b.runAll = (.ok (), b.rebuilt rs ts es as) := by
  have whole : b.runAll = (.ok (), b.runAll.2) := Prod.ext success rfl
  obtain ⟨rs, ts, es, as, completes, final⟩ := runAll_eq_ok_iff_completes.mp whole
  exact ⟨rs, ts, es, as, completes, whole.trans (congrArg (Prod.mk _) final)⟩

theorem Completes.runAll {b : Build} {rs ts : List Resource} {es : List Environment}
    {as : List Asset} (completes : Completes b rs ts es as) :
    b.runAll = (.ok (), b.rebuilt rs ts es as) :=
  runAll_eq_ok_iff_completes.mpr ⟨rs, ts, es, as, completes, rfl⟩

/-- Every phase finds the results of a full run again. -/
theorem Completes.run {b : Build} {rs ts : List Resource} {es : List Environment} {as : List Asset}
    (completes : Completes b rs ts es as) (phase : Phase) :
    (b.rebuilt rs ts es as).run phase = (.ok (), b.rebuilt rs ts es as) := by
  cases phase with
  | modules =>
      exact settle_eq_ok_iff.mpr (withModules_eq_ok_iff.mpr ⟨rs, completes.modules, rfl⟩)
  | resources =>
      exact settle_eq_ok_iff.mpr (withResources_eq_ok_iff.mpr ⟨ts, completes.resources, rfl⟩)
  | environments =>
      exact settle_eq_ok_iff.mpr
        (withEnvironments_eq_ok_iff.mpr ⟨es, completes.environments, rfl⟩)
  | extraAssets =>
      exact settle_eq_ok_iff.mpr (withAssets_eq_ok_iff.mpr ⟨as, completes.assets, rfl⟩)

/-- Two sequential runs with the same inputs: they may differ in the results that they hold, and in
where a random sequence would start. -/
structure SameInputs (b c : Build) : Prop where
  platform : b.platform = c.platform
  destination : b.destination = c.destination
  catalog : b.context.catalog = c.context.catalog
  formatter : b.context.formatter = c.context.formatter
  sequential : b.context.naming = .sequential
  naming : c.context.naming = .sequential
  generatedAt : b.manifest.generatedAt = c.manifest.generatedAt
  providers : b.manifest.providers = c.manifest.providers
  extra : b.manifest.extra = c.manifest.extra

theorem SameInputs.symm {b c : Build} (same : SameInputs b c) : SameInputs c b :=
  ⟨same.platform.symm, same.destination.symm, same.catalog.symm, same.formatter.symm, same.naming,
    same.sequential, same.generatedAt.symm, same.providers.symm, same.extra.symm⟩

/-- Sequential pools with the same reserved names agree, wherever a random sequence would start. -/
theorem poolWith_agree {b c : Build} (sequential : b.context.naming = .sequential)
    (naming : c.context.naming = .sequential) (names : List String) (seed other : Nat) :
    NamePool.Agree (b.poolWith seed names) (c.poolWith other names) := by
  refine ⟨?_, ?_, ?_⟩
  · rw [poolWith, NamePool.foldl_reserve_naming]
    exact sequential
  · rw [poolWith, poolWith, NamePool.foldl_reserve_naming, NamePool.foldl_reserve_naming]
    exact naming.trans sequential.symm
  · intro type k
    rw [poolWith, poolWith, NamePool.mem_taken_foldl_reserve, NamePool.mem_taken_foldl_reserve]
    exact Iff.rfl

theorem SameInputs.rebuilt {b c : Build} (same : SameInputs b c) (rs ts : List Resource)
    (es : List Environment) (as : List Asset) :
    b.rebuilt rs ts es as = { c.rebuilt rs ts es as with context := b.context } := by
  simp only [Build.rebuilt, Manifest.withResources, Manifest.withModules,
    Manifest.withEnvironments, Manifest.withExtraAssets, same.platform, same.destination,
    same.generatedAt, same.providers, same.extra]

theorem SameInputs.completes {b c : Build} (same : SameInputs b c) {rs ts : List Resource}
    {es : List Environment} {as : List Asset} (completes : Completes b rs ts es as) :
    Completes c rs ts es as := by
  have manifest : (b.rebuilt rs ts es as).manifest = (c.rebuilt rs ts es as).manifest := by
    rw [same.rebuilt]
  obtain ⟨modules, resources, environments, assets⟩ := completes
  rw [same.catalog, same.platform] at modules resources environments assets
  rw [manifest] at assets
  have first := poolWith_agree same.sequential same.naming (givenNames c.platform)
    b.context.seed c.context.seed
  have second := poolWith_agree same.sequential same.naming
    (givenNames c.platform ++ rs.map (·.instanceName)) (b.context.seed + 1) (c.context.seed + 1)
  refine ⟨?_, ?_, environments, assets⟩
  · rw [← (Resource.buildAll_agree first _ _).1]
    exact modules
  · rw [← (Resource.buildAll_agree second _ _).1]
    exact resources

theorem ofConfig_eq_ok_iff {raw : Fields} {destination : String} {context : Context}
    {generatedAt : String} {b : Build} :
    ofConfig raw destination context generatedAt = .ok b ↔ ∃ platform,
      Platform.ofConfig context.catalog raw = .ok platform ∧
      ofPlatform platform destination context generatedAt = b :=
  Except.bind_pure_eq_ok_iff

/-- Whatever was called on a state, it has the inputs of a new run over the same configuration. -/
theorem sameInputs_after {raw : Fields} {destination : String} {context : Context}
    {generatedAt : String} {start fresh : Build} {seed : Nat}
    (sequential : context.naming = .sequential)
    (started : ofConfig raw destination context generatedAt = .ok start)
    (restarted : ofConfig raw destination { context with seed } generatedAt = .ok fresh)
    (calls : List Phase) : SameInputs (start.after calls) fresh := by
  obtain ⟨platform, read, rfl⟩ := ofConfig_eq_ok_iff.mp started
  obtain ⟨again, reread, rfl⟩ := ofConfig_eq_ok_iff.mp restarted
  cases Except.ok.inj (read.symm.trans reread)
  have keeps := keeps_after (ofPlatform platform destination context generatedAt) calls
  have contextEq : ((ofPlatform platform destination context generatedAt).after calls).context =
      context := keeps.context
  refine ⟨keeps.platform, keeps.destination, ?_, ?_, ?_, sequential, keeps.generatedAt,
    keeps.providers, keeps.extra⟩
  · rw [contextEq]
    rfl
  · rw [contextEq]
    rfl
  · rw [contextEq]
    exact sequential

/-- No residue of earlier calls survives a full run: from any state that calls have led to, it succeeds
exactly when a new run does and ends in the same state; from then on every phase succeeds and changes
nothing. -/
theorem runAll_after {raw : Fields} {destination : String} {context : Context}
    {generatedAt : String} {start fresh : Build} {seed : Nat}
    (sequential : context.naming = .sequential)
    (started : ofConfig raw destination context generatedAt = .ok start)
    (restarted : ofConfig raw destination { context with seed } generatedAt = .ok fresh)
    (calls : List Phase) :
    ((start.after calls).runAll.1 = .ok () ↔ fresh.runAll.1 = .ok ()) ∧
    ((start.after calls).runAll.1 = .ok () →
      (start.after calls).runAll.2 = { fresh.runAll.2 with context } ∧
      ∀ phase, (start.after calls).runAll.2.run phase = (.ok (), (start.after calls).runAll.2)) := by
  have same := sameInputs_after sequential started restarted calls
  have contextEq : (start.after calls).context = context := by
    obtain ⟨platform, -, rfl⟩ := ofConfig_eq_ok_iff.mp started
    exact (keeps_after _ calls).context
  refine ⟨⟨?_, ?_⟩, ?_⟩
  · intro success
    obtain ⟨rs, ts, es, as, completes, -⟩ := completes_of_runAll success
    rw [(same.completes completes).runAll]
  · intro success
    obtain ⟨rs, ts, es, as, completes, -⟩ := completes_of_runAll success
    rw [(same.symm.completes completes).runAll]
  · intro success
    obtain ⟨rs, ts, es, as, completes, final⟩ := completes_of_runAll success
    rw [final, (same.completes completes).runAll, ← contextEq]
    exact ⟨same.rebuilt rs ts es as, completes.run⟩

namespace Sample

/-- A template root with one resource type, an empty root code and an empty document. -/
def disk : Disk where
  workingDirectory := []
  entries :=
    [(["root"], .directory), (["root", "infra_templates"], .directory),
      (["root", "infra_templates", "bucket.tf"], .file "bucket = <resource_name>\n".toUTF8),
      (["root", "infra_templates", "_config_environment.tf"], .file "".toUTF8),
      (["root", "extra_assets"], .directory),
      (["root", "extra_assets", "action_required"], .directory),
      (["root", "extra_assets", "action_required", "action_required.md"], .file "".toUTF8)]

def catalog : Catalog := ⟨disk, "root", .own⟩

def context (seed : Nat) : Context := ⟨catalog, .sequential, seed, ⟨"terraform"⟩⟩

/-- A nameless resource in a module and another one outside all modules. -/
def raw : Fields :=
  [("modules", .map [("storage", .map [("resources",
      .list [.map [("bucket", .map [("public", .bool false)])]])])]),
    ("resources", .list [.map [("bucket", .map [("public", .bool true)])]]),
    ("environments", .map [("dev", .null)])]

def platform : Platform where
  providers := []
  resources := [⟨"bucket", [("public", .bool true)]⟩]
  modules := [("storage", ⟨[⟨"bucket", [("public", .bool false)]⟩], []⟩)]
  environments := [("dev", [])]
  extraAssets := []
  extra := []

def start (seed : Nat) : Build := ofPlatform platform "out" (context seed) "now"

/-- The template root has no defaults for configurations. -/
theorem ofConfig_of_ofFields {raw : Fields} {platform : Platform}
    (read : Platform.ofFields raw = .ok platform) (destination : String) (seed : Nat) :
    ofConfig raw destination (context seed) "now" =
      .ok (ofPlatform platform destination (context seed) "now") := by
  have defaults : catalog.defaults Platform.defaultsName = .ok [] :=
    Catalog.defaults_of_missing (by decide) (by decide +kernel)
  have merged : catalog.withDefaults Platform.defaultsName raw = .ok raw :=
    Catalog.withDefaults_eq_ok_iff.mpr ⟨[], defaults, (Dict.merge_nil raw).symm⟩
  refine ofConfig_eq_ok_iff.mpr ⟨platform, ?_, rfl⟩
  exact Except.bind_eq_ok_iff.mpr ⟨raw, ofTemplates_eq_ok_iff.mpr merged, read⟩

theorem ofConfig_raw (seed : Nat) :
    ofConfig raw "out" (context seed) "now" = .ok (start seed) :=
  ofConfig_of_ofFields rfl "out" seed

end Sample

/-- Resources built before the modules are there, then again a full run. -/
theorem runAll_after_resources :
    ((Sample.start 0).after [.resources, .extraAssets]).runAll.1 = .ok () ∧
      ((Sample.start 0).after [.resources, .extraAssets]).runAll.2 =
        { (Sample.start 7).runAll.2 with context := Sample.context 0 } :=
  have success : ((Sample.start 0).after [.resources, .extraAssets]).runAll.1 = .ok () := by
    decide +kernel
  ⟨success, ((runAll_after rfl (Sample.ofConfig_raw 0) (Sample.ofConfig_raw 7)
    [.resources, .extraAssets]).2 success).1⟩

end Groundwork.Build
