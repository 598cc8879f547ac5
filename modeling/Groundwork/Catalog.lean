import Groundwork.Disk
import Groundwork.Libraries
import Groundwork.Placeholder
import Groundwork.Yaml.Document

set_option autoImplicit false

/- The store of templates: one directory each for template texts, for default fields and for the
sources of extra assets. Names come from configurations and become file names, so they are
restricted to letters, digits, underscores and dashes. -/
namespace Groundwork

/-- The fields that a YAML text spells; `path` is only named in faults. -/
def Fields.ofText (text path : String) : Except TemplateFault Fields :=
  if Text.allBlank text then .ok []
  else match Yaml.load text with
    | .error e => .error (.yaml e)
    | .ok d => (Fields.ofDocument d).mapError (.invalidConfig path)

/-- Letters, digits, underscores and dashes, at least one of them. -/
def isPlainName (name : String) : Bool :=
  name ≠ "" && name.toList.all fun c => (c.toNat < 128 && c.isAlphanum) || c = '_' || c = '-'

structure Catalog where
  disk : Disk
  root : String
  /-- What the texts of the store are rendered with. -/
  libraries : Libraries

namespace Catalog

def templatesDirectory : String := "infra_templates"

def defaultsDirectory : String := "infra_defaults"

def assetsDirectory : String := "extra_assets"

def requirePlainName (name : String) : Except TemplateFault Unit :=
  if isPlainName name then .ok () else .error (.invalidName name)

def path (c : Catalog) (parts : List String) : String := Path.joinAll c.root parts

def read (c : Catalog) (path : String) : Except TemplateFault String :=
  (c.disk.readText path).mapError .io

/-- The template of a type. -/
def template (c : Catalog) (name : String) : Except TemplateFault String := do
  requirePlainName name
  let path := c.path [templatesDirectory, name ++ ".tf"]
  if c.disk.isFile path then c.read path else .error (.notFound name path)

/-- The default fields of a type; a missing file means that there are none. -/
def defaults (c : Catalog) (name : String) : Except TemplateFault Fields := do
  requirePlainName name
  let path := c.path [defaultsDirectory, name ++ ".yaml"]
  if c.disk.isFile path then Fields.ofText (← c.read path) path else return []

/-- The source directory of an extra asset. -/
def assetDirectory (c : Catalog) (name : String) : Except TemplateFault String := do
  requirePlainName name
  let path := c.path [assetsDirectory, name]
  if c.disk.isDirectory path then return path else .error (.notFound ("asset " ++ name) path)

/-- A text file of an extra asset. -/
def assetFile (c : Catalog) (asset file : String) : Except TemplateFault String := do
  let path := Path.join (← c.assetDirectory asset) file
  if c.disk.isFile path then c.read path else .error (.notFound (asset ++ "/" ++ file) path)

/-- One sentence for each of the three directories that is missing. -/
def complaints (c : Catalog) : List String :=
  ([templatesDirectory, defaultsDirectory, assetsDirectory].filter fun dir =>
    !c.disk.isDirectory (c.path [dir])).map fun dir =>
      "Missing " ++ dir ++ "/ directory in " ++ Text.quotedPath c.root

/-- Adds the default fields of a type that a configuration does not have. -/
def withDefaults (c : Catalog) (name : String) (config : Fields) : Except TemplateFault Fields := do
  return config.merge (← c.defaults name)

/-- Renders the conditional parts of a template's text over fields. -/
def render (c : Catalog) (name text : String) (fields : Fields) : Except TemplateFault String :=
  (c.libraries.render fields text).mapError (.renderingFailed name)

/-- Fails unless fields can be turned into JSON. -/
def checkJson (c : Catalog) (fields : Fields) : Except Failure Unit :=
  (c.libraries.checkJson fields).mapError .json

end Catalog

end Groundwork
