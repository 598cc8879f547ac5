import Groundwork.Environment
import Groundwork.Value.Datum

set_option autoImplicit false

/- The record of a run: what was declared and what was generated. It is written next to the
generated code, and the follow-up document is rendered over it. -/
namespace Groundwork

structure Manifest where
  generatedAt : String
  providers : List Provider
  /-- Type and complete fields of every resource. -/
  resources : List (String × Fields)
  /-- In byte order, each once. -/
  resourceTypes : List String
  modules : Dict Module.Summary
  environments : Dict Fields
  extraAssets : Dict Fields
  /-- In byte order, each once. -/
  extraAssetNames : List String
  extra : Fields

namespace Manifest

def fileName : String := "manifest.yaml"

def start (generatedAt : String) (providers : List Provider) (extra : Fields) : Manifest :=
  { generatedAt, providers, resources := [], resourceTypes := [], modules := [],
    environments := [], extraAssets := [], extraAssetNames := [], extra }

/-- Inserts into a strictly ascending list. -/
def insertName (name : String) : List String → List String
  | [] => [name]
  | n :: rest =>
      if name < n then name :: n :: rest
      else if name = n then n :: rest
      else n :: insertName name rest

/-- The names in byte order, each once. -/
def sortedNames (names : List String) : List String := names.foldr insertName []

def withResources (m : Manifest) (rs : List Resource) : Manifest :=
  { m with
    resources := rs.map fun r => (r.type, r.config)
    resourceTypes := sortedNames (rs.map (·.type)) }

def withModules (m : Manifest) (modules : List Module) : Manifest :=
  { m with modules := modules.map fun x => (x.name, x.summary) }

def withEnvironments (m : Manifest) (es : List Environment) : Manifest :=
  { m with environments := Dict.ofList (es.map fun e => (e.name, e.config)) }

def withExtraAssets (m : Manifest) (assets : Dict Fields) : Manifest :=
  { m with extraAssets := assets, extraAssetNames := sortedNames assets.keys }

def resourceValue (r : String × Fields) : Value := .map [(r.1, .map r.2)]

/-- The manifest's entries in the order they are written in, the extra fields last. -/
def entries (m : Manifest) : List (String × Value) :=
  [("generated_at", .string m.generatedAt),
    ("providers", .list (m.providers.map (·.toValue))),
    ("resources", .list (m.resources.map resourceValue)),
    ("resource_types", .ofNames m.resourceTypes),
    ("modules", .map (m.modules.map fun e => (e.1, .map e.2.toFields))),
    ("environments", .map (m.environments.map fun e => (e.1, .map e.2))),
    ("extra_assets", .map (m.extraAssets.map fun e => (e.1, .map e.2))),
    ("extra_asset_names", .ofNames m.extraAssetNames)] ++ m.extra

def toDatum (m : Manifest) : Yaml.Datum := .mapping (Value.toEntries m.entries)

/-- The base fields overlaid with the manifest's entries, ordered by key at every level. -/
def context (m : Manifest) (base : Fields) : Fields :=
  Dict.sorted (Value.sortFields (base ++ m.entries))

/-- The context of the follow-up document, unless one of its two parts cannot be turned into JSON. -/
def renderContext (catalog : Catalog) (m : Manifest) (base : Fields) : Except Failure Fields := do
  catalog.checkJson base
  catalog.checkJson m.entries
  return m.context base

end Manifest

end Groundwork
