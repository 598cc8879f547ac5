import Groundwork.Proofs.History
import Groundwork.Proofs.Lookup

set_option autoImplicit false

/- What a run reads. All that a run asks of its files goes through a catalog, so a run over other
files that answer every lookup alike gives the same answers and goes through the same states.
Whatever names a configuration uses, files outside the directories of the template root make no
difference. -/
namespace Groundwork

namespace Catalog.Alike

variable {c other : Catalog}

theorem withDefaults (alike : Alike c other) (name : String) (config : Fields) :
    other.withDefaults name config = c.withDefaults name config := by
  unfold Catalog.withDefaults
  rw [alike.defaults]

theorem render (alike : Alike c other) (name text : String) (fields : Fields) :
    other.render name text fields = c.render name text fields := by
  unfold Catalog.render
  rw [alike.libraries]

theorem declare (alike : Alike c other) (target : String) (config : Fields) :
    Variable.declare other target config = Variable.declare c target config := by
  have render : ∀ config, Variable.render other target config = Variable.render c target config := by
    intro config
    unfold Variable.render
    simp only [alike.template, alike.render]
  unfold Variable.declare
  simp only [alike.withDefaults, render]

theorem extract (alike : Alike c other) (fields : Fields) :
    Variable.extract other fields = Variable.extract c fields := by
  fun_induction Variable.extract c fields with
  | case1 => rfl
  | case2 field config rest ih => rw [Variable.extract, alike.declare, ih]
  | case3 entry rest unmarked ih => rw [Variable.extract, ih]; exact unmarked

theorem assemble (alike : Alike c other) (type : String) (config : Fields) :
    Resource.assemble other type config = Resource.assemble c type config := by
  unfold Resource.assemble Resource.render Resource.source
  simp only [alike.extract, alike.template, alike.render]

theorem build (alike : Alike c other) (type : String) (config : Fields) (pool : NamePool) :
    Resource.build other type config pool = Resource.build c type config pool := by
  unfold Resource.build
  simp only [alike.withDefaults, alike.assemble]

theorem buildAll (alike : Alike c other) (entries : List (String × Fields)) (pool : NamePool) :
    Resource.buildAll other entries pool = Resource.buildAll c entries pool := by
  induction entries generalizing pool with
  | nil => rfl
  | cons entry rest ih => simp only [Resource.buildAll, alike.build, ih]

theorem declareAll (alike : Alike c other) (entity : Entity) (fields : Fields) :
    Environment.declareAll other entity fields = Environment.declareAll c entity fields := by
  induction fields with
  | nil => rfl
  | cons entry rest ih => simp only [Environment.declareAll, alike.declare, ih]

theorem environment (alike : Alike c other) (name : String) (config : Fields) :
    Environment.build other name config = Environment.build c name config := by
  unfold Environment.build Environment.sectionVariables
  simp only [alike.withDefaults, alike.declareAll, alike.extract, alike.template]

theorem extend (alike : Alike c other) (e : Environment) (providers : List Provider)
    (modules : List Module) :
    e.extend other providers modules = e.extend c providers modules := by
  unfold Environment.extend
  rw [alike.render]

theorem environments (alike : Alike c other) (providers : List Provider) (modules : List Module)
    (entries : Dict Fields) :
    Environment.buildAll other providers modules entries =
      Environment.buildAll c providers modules entries := by
  induction entries with
  | nil => rfl
  | cons entry rest ih => simp only [Environment.buildAll, alike.environment, alike.extend, ih]

theorem single_actionRequiredFile : Path.Single Asset.actionRequiredFile :=
  (Path.single_of_plain (by decide)).append (by decide) (by decide)

theorem renderContext (alike : Alike c other) (m : Manifest) (base : Fields) :
    m.renderContext other base = m.renderContext c base := by
  unfold Manifest.renderContext Catalog.checkJson
  rw [alike.libraries]

theorem asset (alike : Alike c other) (m : Manifest) (name : String) (config : Fields) :
    Asset.build other m name config = Asset.build c m name config := by
  unfold Asset.build
  simp only [alike.assetFile _ _ single_actionRequiredFile, alike.assetDirectory,
    alike.renderContext, alike.render]

theorem assets (alike : Alike c other) (m : Manifest) (entries : Dict Fields) :
    Asset.buildAll other m entries = Asset.buildAll c m entries := by
  induction entries with
  | nil => rfl
  | cons entry rest ih => simp only [Asset.buildAll, alike.asset, ih]

theorem platform (alike : Alike c other) (raw : Fields) :
    Platform.ofConfig other raw = Platform.ofConfig c raw := by
  unfold Platform.ofConfig
  rw [alike.withDefaults]

end Catalog.Alike

namespace Build

/-- What each call of a sequence answers, with the state it leaves. -/
def trace (b : Build) : List Phase → List (Except Failure Unit × Build)
  | [] => []
  | phase :: rest => b.run phase :: trace (b.run phase).2 rest

/-- The same answer, with the same state over other files. -/
def rereading (other : Disk) (r : Except Failure Unit × Build) : Except Failure Unit × Build :=
  (r.1, r.2.reading other)

variable {b : Build} {other : Disk}

/-- Over the other files, every lookup of a run is answered as over its own. -/
abbrev ReadsAlike (b : Build) (other : Disk) : Prop :=
  Catalog.Alike b.context.catalog { b.context.catalog with disk := other }

theorem settle_reading (kept : Build) (step : Except Failure Build) :
    (kept.reading other).settle (step.map (·.reading other)) =
      rereading other (kept.settle step) := by
  cases step <;> rfl

-- In each phase, only what is built is looked up; the rest of the state is made of it and of the
-- description, so both sides agree by computation once the builds do.

theorem withModules_reading (alike : b.ReadsAlike other) :
    (b.reading other).withModules = b.withModules.map (·.reading other) := by
  have built := alike.buildAll (moduleEntries b.platform)
    (b.poolWith b.context.seed (givenNames b.platform))
  unfold withModules
  rw [Except.map_bind_pure, ← built]
  rfl

theorem withResources_reading (alike : b.ReadsAlike other) :
    (b.reading other).withResources = b.withResources.map (·.reading other) := by
  have built := alike.buildAll (topLevelEntries b.platform)
    (b.poolWith (b.context.seed + 1)
      (givenNames b.platform ++ b.moduleResources.map (·.instanceName)))
  unfold withResources
  rw [Except.map_bind_pure, ← built]
  rfl

theorem withEnvironments_reading (alike : b.ReadsAlike other) :
    (b.reading other).withEnvironments = b.withEnvironments.map (·.reading other) := by
  have built := alike.environments b.platform.providers b.modules b.platform.environments
  unfold withEnvironments
  rw [Except.map_bind_pure, ← built]
  rfl

theorem withAssets_reading (alike : b.ReadsAlike other) :
    (b.reading other).withAssets = b.withAssets.map (·.reading other) := by
  have built := alike.assets b.manifest (assetEntries b.platform)
  unfold withAssets
  rw [Except.map_bind_pure, ← built]
  rfl

/-- A call answers alike, and leaves the same state over the other files. -/
theorem run_reading (alike : b.ReadsAlike other) (phase : Phase) :
    (b.reading other).run phase = rereading other (b.run phase) := by
  cases phase with
  | modules =>
      unfold run
      dsimp only
      rw [withModules_reading alike, settle_reading]
  | resources =>
      unfold run
      dsimp only
      rw [withResources_reading alike, settle_reading]
  | environments =>
      unfold run
      dsimp only
      rw [withEnvironments_reading alike, settle_reading]
  | extraAssets =>
      have recorded : (b.reading other).recordAssets = b.recordAssets.reading other := rfl
      have known : b.recordAssets.ReadsAlike other := alike
      unfold run
      dsimp only
      rw [recorded, withAssets_reading known, settle_reading]

/-- Calls change no lookup. -/
theorem ReadsAlike.run (alike : b.ReadsAlike other) (phase : Phase) :
    (b.run phase).2.ReadsAlike other := by
  rw [ReadsAlike, (keeps_run b phase).context]
  exact alike

theorem ReadsAlike.after (alike : b.ReadsAlike other) (calls : List Phase) :
    (b.after calls).ReadsAlike other := by
  rw [ReadsAlike, (keeps_after b calls).context]
  exact alike

theorem after_reading (alike : b.ReadsAlike other) (calls : List Phase) :
    (b.reading other).after calls = (b.after calls).reading other := by
  induction calls generalizing b with
  | nil => rfl
  | cons phase rest ih =>
      have first := congrArg Prod.snd (run_reading alike phase)
      show ((b.reading other).run phase).2.after rest = ((b.run phase).2.after rest).reading other
      rw [first]
      exact ih (alike.run phase)

theorem trace_reading (alike : b.ReadsAlike other) (calls : List Phase) :
    (b.reading other).trace calls = (b.trace calls).map (rereading other) := by
  induction calls generalizing b with
  | nil => rfl
  | cons phase rest ih =>
      rw [trace, trace, run_reading alike, List.map_cons]
      exact congrArg _ (ih (alike.run phase))

theorem runEach_reading (alike : b.ReadsAlike other) (phases : List Phase) :
    (b.reading other).runEach phases = rereading other (b.runEach phases) := by
  induction phases generalizing b with
  | nil => rfl
  | cons phase rest ih =>
      rw [runEach_cons, runEach_cons, run_reading alike]
      have further := ih (alike.run phase)
      dsimp only [rereading] at further ⊢
      cases (b.run phase).1 with
      | error e => rfl
      | ok _ => exact further

theorem ofConfig_reading {context : Context} {raw : Fields} {destination generatedAt : String}
    (alike : Catalog.Alike context.catalog { context.catalog with disk := other }) :
    ofConfig raw destination { context with catalog := { context.catalog with disk := other } }
        generatedAt =
      (ofConfig raw destination context generatedAt).map (·.reading other) := by
  unfold ofConfig
  rw [alike.platform]
  cases Platform.ofConfig context.catalog raw <;> rfl

/-- Files that are not below the directories of the template root make no difference: whatever the
configuration says, over other files with the same below these directories a run starts or fails
alike, every sequence of calls gets the same answers and goes through the same states, and so does a full
run from any of them. -/
theorem reads_below {raw : Fields} {destination generatedAt : String}
    {context : Context} (same : Disk.SameBelow context.catalog.root context.catalog.disk other) :
    ofConfig raw destination { context with catalog := { context.catalog with disk := other } }
        generatedAt =
        (ofConfig raw destination context generatedAt).map (·.reading other) ∧
      ∀ start, ofConfig raw destination context generatedAt = .ok start →
        (∀ calls, (start.reading other).trace calls = (start.trace calls).map (rereading other)) ∧
        ∀ calls, ((start.reading other).after calls).runAll =
          rereading other (start.after calls).runAll := by
  have lookups := Catalog.alike_of_sameBelow same
  refine ⟨ofConfig_reading lookups, fun start started => ?_⟩
  obtain ⟨platform, -, rfl⟩ := ofConfig_eq_ok_iff.mp started
  have alike : (ofPlatform platform destination context generatedAt).ReadsAlike other := lookups
  refine ⟨trace_reading alike, fun calls => ?_⟩
  rw [after_reading alike]
  exact runEach_reading (alike.after calls) Phase.all

namespace Sample

/-- Beside the directories of the template root there is another template. -/
def exposed : Disk := disk.put ["root", "secret.tf"] (.file "secret = <resource_name>\n".toUTF8)

/-- A resource of a module asks for that template. -/
def steering : Fields :=
  [("modules", .map [("storage", .map [("resources",
      .list [.map [("../secret", .map [("public", .bool true)])]])])]),
    ("resources", .list [.map [("bucket", .map [("public", .bool true)])]])]

theorem sameBelow_exposed : Disk.SameBelow "root" disk exposed := by
  have leads : disk.walk (disk.origin "root") (Path.names "root") = .ok (.directory ["root"]) := rfl
  have otherwise : exposed.walk (exposed.origin "root") (Path.names "root") =
      .ok (.directory ["root"]) := rfl
  have apart : ∀ dir ∈ Catalog.directories, dir ≠ "secret.tf" := by decide
  refine Disk.sameBelow_of_entries leads otherwise fun dir known names => ?_
  refine Disk.entry?_put_of_ne disk _ fun same => ?_
  exact apart dir known (List.cons.inj (List.cons.inj same).2).1

end Sample

/-- The other template is there to be found, and is not. -/
theorem reads_below_secret :
    (Sample.disk.isFile "root/infra_templates/../secret.tf" = false ∧
      Sample.exposed.isFile "root/infra_templates/../secret.tf" = true) ∧
    ∃ start, ofConfig Sample.steering "out" (Sample.context 0) "now" = .ok start ∧
      (start.trace Phase.all).map (·.1) =
        [.error (.template (.invalidName "../secret")), .ok (), .ok (), .ok ()] ∧
      (start.reading Sample.exposed).trace Phase.all =
        (start.trace Phase.all).map (rereading Sample.exposed) := by
  have exposes : Sample.disk.isFile "root/infra_templates/../secret.tf" = false ∧
      Sample.exposed.isFile "root/infra_templates/../secret.tf" = true := by
    decide +kernel
  have outcome : (ofConfig Sample.steering "out" (Sample.context 0) "now").map
      (fun start => (start.trace Phase.all).map (·.1)) =
        .ok [.error (.template (.invalidName "../secret")), .ok (), .ok (), .ok ()] := by
    decide +kernel
  obtain ⟨start, started, answers⟩ := Except.map_eq_ok_iff.mp outcome
  have same : Disk.SameBelow (Sample.context 0).catalog.root (Sample.context 0).catalog.disk
      Sample.exposed := Sample.sameBelow_exposed
  exact ⟨exposes, start, started, answers, ((reads_below same).2 start started).1 Phase.all⟩

end Build

end Groundwork
