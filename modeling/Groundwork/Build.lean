import Groundwork.Formatter
import Groundwork.Output
import Groundwork.Platform

set_option autoImplicit false

/- A generation run. Its four phases build modules with their resources, the top-level resources,
the environments and the extra assets; each rebuilds its results from the platform's description,
and the manifest records them. The first three change nothing if they fail; the last has recorded
the extra assets by then. -/
namespace Groundwork

/-- What every phase works with. -/
structure Context where
  catalog : Catalog
  naming : Naming
  /-- Where random naming starts. -/
  seed : Nat
  formatter : Formatter

structure Build where
  platform : Platform
  destination : String
  context : Context
  moduleResources : List Resource
  topLevelResources : List Resource
  modules : List Module
  environments : List Environment
  assets : List Asset
  manifest : Manifest

namespace Build

def ofPlatform (platform : Platform) (destination : String) (context : Context)
    (generatedAt : String) : Build where
  platform
  destination
  context
  moduleResources := []
  topLevelResources := []
  modules := []
  environments := []
  assets := []
  manifest := .start generatedAt platform.providers platform.extra

/-- A run over a configuration, nothing built yet. -/
def ofConfig (raw : Fields) (destination : String) (context : Context) (generatedAt : String) :
    Except Failure Build := do
  return ofPlatform (← Platform.ofConfig context.catalog raw) destination context generatedAt

def ofFile (path destination : String) (context : Context) (generatedAt : String) :
    Except Failure Build := do
  ofConfig (← Platform.readFile context.catalog.disk path) destination context generatedAt

/-- Module-declared resources, then top-level ones. -/
def resources (b : Build) : List Resource := b.moduleResources ++ b.topLevelResources

/-- The instance names that the description gives, those inside modules first. -/
def givenNames (p : Platform) : List String :=
  ((p.modules.flatMap fun m => m.2.resources) ++ p.resources).filterMap fun e =>
    Resource.givenName? e.config

def poolWith (b : Build) (seed : Nat) (names : List String) : NamePool :=
  names.foldl NamePool.reserve (.empty b.context.naming seed)

/-- Adds a resource to the module it belongs to, which is new if none has its name. -/
def place : List Module → Resource → List Module
  | [], r => [(Module.empty r.moduleName []).add r]
  | m :: rest, r => if m.name = r.moduleName then m.add r :: rest else m :: place rest r

/-- The declared modules and those that resources name, with all their resources. -/
def assembled (p : Platform) (rs : List Resource) : List Module :=
  (rs.foldl place (p.modules.map fun m => Module.empty m.1 m.2.fields)).map Module.finish

/-- Rebuilds the modules and records resources and modules. -/
def assemble (b : Build) : Build :=
  let modules := assembled b.platform b.resources
  { b with
    modules
    manifest := (b.manifest.withResources b.resources).withModules modules }

/-- The resources declared inside modules, each assigned to its module. -/
def moduleEntries (p : Platform) : List (String × Fields) :=
  p.modules.flatMap fun m => m.2.resources.map fun e =>
    (e.type, e.config.insert Resource.moduleKey (.string m.1))

def topLevelEntries (p : Platform) : List (String × Fields) :=
  p.resources.map fun e => (e.type, e.config)

def withModules (b : Build) : Except Failure Build := do
  let pool := b.poolWith b.context.seed (givenNames b.platform)
  let moduleResources ←
    (Resource.buildAll b.context.catalog (moduleEntries b.platform) pool).1
  return { b with moduleResources }.assemble

def withResources (b : Build) : Except Failure Build := do
  let pool := b.poolWith (b.context.seed + 1)
    (givenNames b.platform ++ b.moduleResources.map (·.instanceName))
  let topLevelResources ←
    (Resource.buildAll b.context.catalog (topLevelEntries b.platform) pool).1
  return { b with topLevelResources }.assemble

def withEnvironments (b : Build) : Except Failure Build := do
  let environments ← Environment.buildAll b.context.catalog b.platform.providers b.modules
    b.platform.environments
  return { b with environments, manifest := b.manifest.withEnvironments environments }

/-- The configured assets, the follow-up document always among them and last. -/
def assetEntries (p : Platform) : Dict Fields :=
  p.extraAssets.erase Asset.actionRequiredName ++
    [(Asset.actionRequiredName, (p.extraAssets.get? Asset.actionRequiredName).getD [])]

/-- Records the extra assets. -/
def recordAssets (b : Build) : Build :=
  { b with manifest := b.manifest.withExtraAssets (assetEntries b.platform) }

def withAssets (b : Build) : Except Failure Build := do
  let assets ← Asset.buildAll b.context.catalog b.manifest (assetEntries b.platform)
  return { b with assets }

inductive Phase where
  | modules
  | resources
  | environments
  | extraAssets
deriving DecidableEq

def Phase.all : List Phase := [.modules, .resources, .environments, .extraAssets]

/-- Takes the result of a step, or keeps the state it failed in. -/
def settle (b : Build) : Except Failure Build → Except Failure Unit × Build
  | .ok next => (.ok (), next)
  | .error e => (.error e, b)

def run (b : Build) : Phase → Except Failure Unit × Build
  | .modules => b.settle b.withModules
  | .resources => b.settle b.withResources
  | .environments => b.settle b.withEnvironments
  | .extraAssets => b.recordAssets.settle b.recordAssets.withAssets

/-- Runs phases in order, up to the first that fails. -/
def runEach (b : Build) : List Phase → Except Failure Unit × Build
  | [] => (.ok (), b)
  | phase :: rest =>
      match b.run phase with
      | (.ok (), b) => runEach b rest
      | (.error e, b) => (.error e, b)

def runAll (b : Build) : Except Failure Unit × Build := b.runEach Phase.all

def manifestText (b : Build) : Except Failure String :=
  (b.context.catalog.libraries.writeYaml b.manifest.toDatum).mapError .yaml

/-- Writes modules, environments and assets below the destination. -/
def save (b : Build) : Output.Writing Unit := do
  Output.openDestination b.destination
  b.modules.forM (Output.saveModule b.destination)
  b.environments.forM (Output.saveEnvironment b.destination)
  b.assets.forM (Output.saveAsset b.destination)

/-- Writes the manifest into the destination and answers where. -/
def saveManifest (b : Build) : Output.Writing String := do
  let path := Path.join b.destination Manifest.fileName
  let text ← b.manifestText
  Output.performing (Disk.writeFile path text)
  return path

/-- Formats the saved code, if that is wanted. -/
def format (b : Build) (d : Disk) (wanted : Bool) : Formatting :=
  if wanted then b.context.formatter.run d b.destination else .skipped

end Build

end Groundwork
