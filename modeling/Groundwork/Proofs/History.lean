import Groundwork.Proofs.Creation
import Groundwork.Proofs.Lookup
import Groundwork.Proofs.Target

set_option autoImplicit false

/- Histories of phase calls. Phases are called in any order, each succeeds or fails, and the files
that they read may differ from call to call. What a state holds then depends on the phases that have
succeeded: it has the resources that were built from the description, sorted into modules as soon as
there are any, and environments and assets under the names of the description. -/
namespace Groundwork

/-- A copied directory is one of those known, and comes from among the sources of a template root. -/
def Asset.Stored (root : String) : Asset → Prop
  | .actionRequired _ => True
  | .staticCopy name source =>
      name ∈ staticNames ∧ source = Path.joinAll root [Catalog.assetsDirectory, name]

namespace Asset

theorem Made.stored {catalog : Catalog} {m : Manifest} {entry : String × Fields} {a : Asset}
    (made : Made catalog m entry a) : a.Stored catalog.root := by
  cases made with
  | document _ _ => exact True.intro
  | copy known found => exact ⟨known, (Catalog.assetDirectory_ok found).2⟩

theorem stored_buildAll {catalog : Catalog} {m : Manifest} {entries : Dict Fields}
    {as : List Asset} (success : buildAll catalog m entries = .ok as) :
    ∀ a ∈ as, a.Stored catalog.root := by
  intro a member
  obtain ⟨entry, -, made⟩ := mem_of_forall₂ (buildAll_eq_ok_iff.mp success) member
  exact made.stored

theorem Stored.single {root : String} {a : Asset} (stored : a.Stored root) :
    Path.Single a.targetName := by
  cases a with
  | actionRequired rendered => exact single_targetOf actionRequiredName List.mem_cons_self
  | staticCopy name source =>
      have single := single_targetOf name (List.mem_cons_of_mem _ stored.1)
      rwa [targetOf_static name stored.1] at single

end Asset

namespace Build

open Resource (Creation)

/-- A phase call, and the files that it finds. -/
structure Call where
  phase : Phase
  disk : Disk

/-- The same state over other files; the template root keeps its path. -/
def reading (b : Build) (disk : Disk) : Build :=
  { b with context := { b.context with catalog := { b.context.catalog with disk } } }

/-- A state, and the phases that succeeded on the way to it. -/
structure Progress where
  done : List Phase
  state : Build

namespace Progress

def call (p : Progress) (c : Call) : Progress :=
  match (p.state.reading c.disk).run c.phase with
  | (.ok (), b) => ⟨p.done ++ [c.phase], b⟩
  | (.error _, b) => ⟨p.done, b⟩

end Progress

/-- The state after these calls, with the phases of those that succeeded. -/
def progress (b : Build) (calls : List Call) : Progress := calls.foldl Progress.call ⟨[], b⟩

/-- What a call of a phase makes of a state. -/
inductive Leads (b : Build) (done : List Phase) : Phase → Progress → Prop
  | modules {rs : List Resource} {last : NamePool}
      (built : Resource.buildAll b.context.catalog (moduleEntries b.platform)
        (b.poolWith b.context.seed (givenNames b.platform)) = (.ok rs, last)) :
      Leads b done .modules ⟨done ++ [.modules], { b with moduleResources := rs }.assemble⟩
  | resources {ts : List Resource} {last : NamePool}
      (built : Resource.buildAll b.context.catalog (topLevelEntries b.platform)
        (b.poolWith (b.context.seed + 1)
          (givenNames b.platform ++ b.moduleResources.map (·.instanceName))) = (.ok ts, last)) :
      Leads b done .resources ⟨done ++ [.resources], { b with topLevelResources := ts }.assemble⟩
  | environments {es : List Environment}
      (built : Environment.buildAll b.context.catalog b.platform.providers b.modules
        b.platform.environments = .ok es) :
      Leads b done .environments ⟨done ++ [.environments],
        { b with environments := es, manifest := b.manifest.withEnvironments es }⟩
  | extraAssets {as : List Asset}
      (built : Asset.buildAll b.context.catalog b.recordAssets.manifest
        (assetEntries b.platform) = .ok as) :
      Leads b done .extraAssets ⟨done ++ [.extraAssets], { b.recordAssets with assets := as }⟩
  /-- The failing phase has recorded at most the declared assets. -/
  | failed (phase : Phase) (manifest : Manifest) : Leads b done phase ⟨done, { b with manifest }⟩

/-- A step settles in the state that it finds, or in the one that it starts from. -/
theorem leads_settle {b kept : Build} {done : List Phase} {phase : Phase}
    {step : Except Failure Build} (stays : Leads b done phase ⟨done, kept⟩)
    (found : ∀ next, step = .ok next → Leads b done phase ⟨done ++ [phase], next⟩) :
    Leads b done phase (match kept.settle step with
      | (.ok (), next) => ⟨done ++ [phase], next⟩
      | (.error _, next) => ⟨done, next⟩) := by
  cases step with
  | error e => exact stays
  | ok next => exact found next rfl

theorem leads_call (p : Progress) (c : Call) :
    Leads (p.state.reading c.disk) p.done c.phase (p.call c) := by
  obtain ⟨phase, disk⟩ := c
  let b := p.state.reading disk
  show Leads b p.done phase (match b.run phase with
    | (.ok (), next) => ⟨p.done ++ [phase], next⟩
    | (.error _, next) => ⟨p.done, next⟩)
  have stays : Leads b p.done phase ⟨p.done, b⟩ := .failed phase b.manifest
  cases phase with
  | modules =>
      refine leads_settle stays fun next success => ?_
      obtain ⟨rs, built, rfl⟩ := withModules_eq_ok_iff.mp success
      exact .modules (Prod.ext built rfl)
  | resources =>
      refine leads_settle stays fun next success => ?_
      obtain ⟨ts, built, rfl⟩ := withResources_eq_ok_iff.mp success
      exact .resources (Prod.ext built rfl)
  | environments =>
      refine leads_settle stays fun next success => ?_
      obtain ⟨es, built, rfl⟩ := withEnvironments_eq_ok_iff.mp success
      exact .environments built
  | extraAssets =>
      refine leads_settle (.failed .extraAssets b.recordAssets.manifest) fun next success => ?_
      obtain ⟨as, built, rfl⟩ := withAssets_eq_ok_iff.mp success
      exact .extraAssets built

/-- The description, the destination and how resources are named stay the same over all calls, and so
do the path of the template root and the libraries. -/
structure Continues (start b : Build) : Prop where
  platform : b.platform = start.platform
  destination : b.destination = start.destination
  naming : b.context.naming = start.context.naming
  root : b.context.catalog.root = start.context.catalog.root
  libraries : b.context.catalog.libraries = start.context.catalog.libraries

theorem Continues.refl (b : Build) : Continues b b := ⟨rfl, rfl, rfl, rfl, rfl⟩

theorem Continues.reading {start b : Build} (continues : Continues start b) (disk : Disk) :
    Continues start (b.reading disk) :=
  ⟨continues.platform, continues.destination, continues.naming, continues.root,
    continues.libraries⟩

theorem Continues.leads {start b : Build} {done : List Phase} {phase : Phase} {p : Progress}
    (continues : Continues start b) (leads : Leads b done phase p) :
    Continues start p.state := by
  cases leads <;>
    exact ⟨continues.platform, continues.destination, continues.naming, continues.root,
      continues.libraries⟩

theorem continues_progress (start : Build) (calls : List Call) :
    Continues start (start.progress calls).state := by
  have refl : Continues start (Progress.mk [] start).state := Continues.refl start
  refine List.foldlRecOn (motive := fun p => Continues start p.state) calls Progress.call refl ?_
  intro p continues c _
  exact (continues.reading c.disk).leads (leads_call p c)

/-- What holds at the start and is kept by every call holds after any history. -/
theorem progress_rec {start : Build} {P : Progress → Prop} (first : P ⟨[], start⟩)
    (step : ∀ p c, Continues start (p.state.reading c.disk) → P p → P (p.call c))
    (calls : List Call) : P (start.progress calls) := by
  let holds : Progress → Prop := fun p => Continues start p.state ∧ P p
  have first : holds ⟨[], start⟩ := ⟨Continues.refl start, first⟩
  refine (List.foldlRecOn (motive := holds) calls Progress.call first ?_).2
  rintro p ⟨continues, known⟩ c _
  have further := continues.reading c.disk
  exact ⟨further.leads (leads_call p c), step p c further known⟩

/-- The declarations inside modules, as soon as they have been built. -/
def builtInModules (p : Platform) (done : List Phase) : List (String × Fields) :=
  if .modules ∈ done then moduleEntries p else []

/-- The declarations outside of modules, as soon as they have been built. -/
def builtAtTop (p : Platform) (done : List Phase) : List (String × Fields) :=
  if .resources ∈ done then topLevelEntries p else []

theorem builtInModules_append (p : Platform) (done : List Phase) (phase : Phase) :
    builtInModules p (done ++ [phase]) =
      if phase = .modules then moduleEntries p else builtInModules p done := by
  by_cases last : phase = .modules <;> simp [builtInModules, last, eq_comm]

theorem builtAtTop_append (p : Platform) (done : List Phase) (phase : Phase) :
    builtAtTop p (done ++ [phase]) =
      if phase = .resources then topLevelEntries p else builtAtTop p done := by
  by_cases last : phase = .resources <;> simp [builtAtTop, last, eq_comm]

/-- The modules, as soon as resources have been sorted into them. -/
def builtModules (p : Platform) (done : List Phase) (rs : List Resource) : List Module :=
  if .modules ∈ done ∨ .resources ∈ done then assembled p rs else []

theorem builtModules_append (p : Platform) (done : List Phase) (phase : Phase)
    (rs : List Resource) :
    builtModules p (done ++ [phase]) rs =
      if phase = .modules ∨ phase = .resources then assembled p rs else builtModules p done rs := by
  cases phase <;> simp [builtModules]

/-- These resources were built from these declarations, in order. -/
def BuiltFrom (entries : List (String × Fields)) (rs : List Resource) : Prop :=
  ∃ cs : List Creation, cs.map (·.resource) = rs ∧ cs.map (·.entry) = entries

theorem builtFrom_nil : BuiltFrom [] [] := ⟨[], rfl, rfl⟩

theorem BuiltFrom.eq_nil {rs : List Resource} (built : BuiltFrom [] rs) : rs = [] := by
  obtain ⟨cs, rfl, none⟩ := built
  rw [List.map_eq_nil_iff.mp none, List.map_nil]

theorem builtFrom_buildAll {catalog : Catalog} {entries : List (String × Fields)}
    {pool last : NamePool} {rs : List Resource}
    (success : Resource.buildAll catalog entries pool = (.ok rs, last)) : BuiltFrom entries rs := by
  obtain ⟨cs, resources, declared, -⟩ := Resource.exists_creations success
  exact ⟨cs, resources, declared⟩

theorem BuiltFrom.plain_moduleName {entries : List (String × Fields)} {rs : List Resource}
    (built : BuiltFrom entries rs) : ∀ r ∈ rs, isPlainName r.moduleName = true := by
  obtain ⟨cs, rfl, -⟩ := built
  intro r member
  obtain ⟨c, -, rfl⟩ := List.mem_map.mp member
  exact c.plain_moduleName

/-- The results in a state, told by the phases that have succeeded. -/
structure Results (start : Build) (done : List Phase) (b : Build) : Prop where
  moduleResources : BuiltFrom (builtInModules start.platform done) b.moduleResources
  topLevelResources : BuiltFrom (builtAtTop start.platform done) b.topLevelResources
  modules : b.modules = builtModules start.platform done b.resources
  environments : ∀ e ∈ b.environments, e.name ∈ Dict.keys start.platform.environments
  assets : ∀ a ∈ b.assets, a.Stored start.context.catalog.root

theorem Results.reading {start b : Build} {done : List Phase} (results : Results start done b)
    (disk : Disk) : Results start done (b.reading disk) := { results with }

/-- A phase that builds no resources leaves the others' results as they are. -/
theorem Results.kept {start b : Build} {done : List Phase} (results : Results start done b)
    {phase : Phase} (other : phase ≠ .modules ∧ phase ≠ .resources) :
    Results start (done ++ [phase]) b := by
  refine ⟨?_, ?_, ?_, results.environments, results.assets⟩
  · rw [builtInModules_append, if_neg other.1]
    exact results.moduleResources
  · rw [builtAtTop_append, if_neg other.2]
    exact results.topLevelResources
  · rw [builtModules_append, if_neg (not_or.mpr other)]
    exact results.modules

theorem Results.leads {start b : Build} {done : List Phase} {phase : Phase} {p : Progress}
    (results : Results start done b) (continues : Continues start b)
    (leads : Leads b done phase p) : Results start p.done p.state := by
  cases leads with
  | modules built =>
      refine ⟨?_, ?_, ?_, results.environments, results.assets⟩
      · rw [builtInModules_append, if_pos rfl, ← continues.platform]
        exact builtFrom_buildAll built
      · rw [builtAtTop_append, if_neg (by decide)]
        exact results.topLevelResources
      · rw [builtModules_append, if_pos (.inl rfl), ← continues.platform]
        rfl
  | resources built =>
      refine ⟨?_, ?_, ?_, results.environments, results.assets⟩
      · rw [builtInModules_append, if_neg (by decide)]
        exact results.moduleResources
      · rw [builtAtTop_append, if_pos rfl, ← continues.platform]
        exact builtFrom_buildAll built
      · rw [builtModules_append, if_pos (.inr rfl), ← continues.platform]
        rfl
  | environments built =>
      have kept : Results start (done ++ [.environments]) b := results.kept (by decide)
      refine { kept with environments := fun e member => ?_ }
      rw [← continues.platform, ← Environment.names_buildAll built]
      exact List.mem_map_of_mem member
  | extraAssets built =>
      have kept : Results start (done ++ [.extraAssets]) b := results.kept (by decide)
      refine { kept with assets := ?_ }
      rw [← continues.root]
      exact Asset.stored_buildAll built
  | failed => exact { results with }

/-- A new run holds nothing yet. -/
theorem results_ofPlatform (p : Platform) (destination : String) (context : Context)
    (generatedAt : String) :
    Results (ofPlatform p destination context generatedAt) []
      (ofPlatform p destination context generatedAt) :=
  ⟨builtFrom_nil, builtFrom_nil, rfl, fun _ member => (nomatch member),
    fun _ member => (nomatch member)⟩

theorem results_progress {raw : Fields} {destination : String} {context : Context}
    {generatedAt : String} {start : Build}
    (started : ofConfig raw destination context generatedAt = .ok start) (calls : List Call) :
    Results start (start.progress calls).done (start.progress calls).state := by
  obtain ⟨platform, -, rfl⟩ := ofConfig_eq_ok_iff.mp started
  let start := ofPlatform platform destination context generatedAt
  have first : Results start [] start := results_ofPlatform platform destination context generatedAt
  refine progress_rec (P := fun p => Results start p.done p.state) first ?_ calls
  intro p c further results
  exact (results.reading c.disk).leads further (leads_call p c)

/-- Every module has a name that is declared or that a resource asks for. -/
theorem Results.plain_modules {start b : Build} {done : List Phase}
    (results : Results start done b) (names : start.platform.NamesTargets) :
    ∀ m ∈ b.modules, isPlainName m.name = true := by
  intro m member
  rw [results.modules, builtModules] at member
  split at member
  · have named := List.mem_map_of_mem (f := (·.name)) member
    rcases (names_assembled names.modules _).2 _ named with declared | ⟨r, built, same⟩
    · exact names.plainModules _ declared
    · rw [← same]
      rcases List.mem_append.mp built with inModule | atTop
      · exact results.moduleResources.plain_moduleName r inModule
      · exact results.topLevelResources.plain_moduleName r atTop
  · cases member

/-- Whatever phases were called on a run, each of its targets is one step below the directory that it is
put into. -/
theorem singleTargets_progress {raw : Fields} {destination : String} {context : Context}
    {generatedAt : String} {start : Build} (keyed : raw.WellKeyed)
    (started : ofConfig raw destination context generatedAt = .ok start) (calls : List Call) :
    (start.progress calls).state.SingleTargets := by
  have results := results_progress started calls
  obtain ⟨platform, read, rfl⟩ := ofConfig_eq_ok_iff.mp started
  have names : platform.NamesTargets := Platform.namesTargets_ofConfig keyed read
  refine ⟨?_, ?_, ?_⟩
  · exact fun m member => Path.single_of_plain (results.plain_modules names m member)
  · exact fun e member =>
      Path.single_of_plain (names.plainEnvironments _ (results.environments e member))
  · exact fun a member => (results.assets a member).single

namespace Sample

theorem wellKeyed_raw : raw.WellKeyed := by
  have bucket : ∀ shared : Bool,
      Value.WellKeyed (.list [.map [("bucket", .map [("public", .bool shared)])]]) := by
    intro shared
    have config : Fields.WellKeyed [("public", .bool shared)] :=
      Fields.wellKeyed_singleton (.bool shared)
    have entry : Fields.WellKeyed [("bucket", .map [("public", .bool shared)])] :=
      Fields.wellKeyed_singleton config.map
    exact .list fun v member => List.mem_singleton.mp member ▸ entry.map
  have storage : Fields.WellKeyed
      [("resources", .list [.map [("bucket", .map [("public", .bool false)])]])] :=
    Fields.wellKeyed_singleton (bucket false)
  have modules : Fields.WellKeyed [("storage",
      .map [("resources", .list [.map [("bucket", .map [("public", .bool false)])]])])] :=
    Fields.wellKeyed_singleton storage.map
  have environments : Fields.WellKeyed [("dev", .null)] := Fields.wellKeyed_singleton .null
  have behind : Fields.WellKeyed [("environments", .map [("dev", .null)])] :=
    Fields.wellKeyed_singleton environments.map
  exact (behind.cons (by decide) (bucket true)).cons (by decide) modules.map

/-- Resources are built before the modules are there, and then again. -/
def calls : List Call := [⟨.resources, disk⟩, ⟨.modules, disk⟩, ⟨.resources, disk⟩]

end Sample

end Build

end Groundwork
