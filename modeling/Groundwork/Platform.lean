import Groundwork.Catalog
import Groundwork.Provider
import Groundwork.Resource

set_option autoImplicit false

/- The normalised description of a data platform: its known sections, checked and in input order,
and all other top-level fields. -/
namespace Groundwork

/-- A resource as it is declared: its type over its fields. -/
structure DeclaredResource where
  type : String
  config : Fields

structure DeclaredModule where
  resources : List DeclaredResource
  /-- The module's other fields. -/
  fields : Fields

structure Platform where
  providers : List Provider
  resources : List DeclaredResource
  modules : Dict DeclaredModule
  environments : Dict Fields
  extraAssets : Dict Fields
  extra : Fields

namespace DeclaredResource

def ofValue (owner : Entity) : Value → Except Failure DeclaredResource :=
  Value.single .mk (.configuration owner .resourceNotSingle) fun type found =>
    .configuration (.resource type) (.expectedMapping found)

def ofValues (owner : Entity) : List Value → Except Failure (List DeclaredResource)
  | [] => .ok []
  | entry :: rest => do
      let r ← ofValue owner entry
      return r :: (← ofValues owner rest)

def ofSection (owner : Entity) : Option Value → Except Failure (List DeclaredResource)
  | none => .ok []
  | some .null => .ok []
  | some (.list entries) => ofValues owner entries
  | some v => .error (.configuration owner (.expectedList v.kind))

end DeclaredResource

namespace Platform

def resourcesKey : String := "resources"

/-- The names of the sections that a platform consists of. -/
def sectionNames : List String :=
  ["providers", "resources", "modules", "environments", "extra_assets"]

/-- Top-level names that a run computes itself. -/
def computedNames : List String := ["generated_at", "resource_types", "extra_asset_names"]

/-- The defaults of the whole configuration. -/
def defaultsName : String := "_config_infra"

def sectionMapping (name : String) : Option Value → Except Failure Fields
  | none => .ok []
  | some .null => .ok []
  | some (.map fields) => .ok fields
  | some v => .error (.configuration (.sectionNamed name) (.expectedMapping v.kind))

def entryMapping (entity : Entity) : Value → Except Failure Fields
  | .null => .ok []
  | .map fields => .ok fields
  | v => .error (.configuration entity (.expectedMapping v.kind))

def declaredModule (name : String) (value : Value) : Except Failure DeclaredModule := do
  let entity := Entity.moduleNamed name
  requireDirectoryName entity name
  let fields ← entryMapping entity value
  let resources ← DeclaredResource.ofSection entity (fields.get? resourcesKey)
  return ⟨resources, fields.erase resourcesKey⟩

def declaredEnvironment (name : String) (value : Value) : Except Failure Fields := do
  let entity := Entity.environment name
  requireDirectoryName entity name
  entryMapping entity value

/-- Reads every entry of a section, in order. -/
def eachEntry {α : Type} (read : String → Value → Except Failure α) :
    Fields → Except Failure (Dict α)
  | [] => .ok []
  | (name, value) :: rest => do
      let x ← read name value
      return (name, x) :: (← eachEntry read rest)

def ofFields (raw : Fields) : Except Failure Platform := do
  let providers ← Provider.ofSection (raw.get? "providers")
  let resources ←
    DeclaredResource.ofSection (.sectionNamed resourcesKey) (raw.get? resourcesKey)
  let modules ← eachEntry declaredModule (← sectionMapping "modules" (raw.get? "modules"))
  let environments ←
    eachEntry declaredEnvironment (← sectionMapping "environments" (raw.get? "environments"))
  let extraAssets ← eachEntry (fun name => entryMapping (.extraAsset name))
    (← sectionMapping "extra_assets" (raw.get? "extra_assets"))
  let extra := (raw.eraseAll sectionNames).eraseAll computedNames
  return { providers, resources, modules, environments, extraAssets, extra }

/-- Normalises a configuration with the catalog's defaults. -/
def ofConfig (catalog : Catalog) (raw : Fields) : Except Failure Platform := do
  ofFields (← ofTemplates (catalog.withDefaults defaultsName raw))

/-- Reads a configuration file. -/
def readFile (disk : Disk) (path : String) : Except Failure Fields := do
  let text ← (disk.readText path).mapError fun e => .configuration (.file path) (.unreadable e)
  (Fields.ofText text path).mapError fun e => .configuration (.file path) (.malformed e)

end Platform

end Groundwork
