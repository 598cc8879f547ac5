import Groundwork.Disk
import Groundwork.Text.Quoted
import Groundwork.Value.Datum
import Groundwork.Yaml.Fault

set_option autoImplicit false

/- Why a generation run stops: what is wrong with which part of the configuration, or what the
templates or the file system refused. -/
namespace Groundwork

/-- What a library answers when it refuses its work, in its own words. -/
structure Refusal where
  message : String
deriving DecidableEq

/-- What can go wrong with templates, default fields and the sources of assets. -/
inductive TemplateFault where
  | notFound (what path : String)
  | invalidName (name : String)
  | invalidConfig (path : String) (cause : Unreadable)
  | unsupportedValue (field : String) (found : Kind)
  | renderingFailed (template : String) (cause : Refusal)
  | io (cause : Disk.Fault)
  | yaml (cause : Yaml.Fault)
deriving DecidableEq

def TemplateFault.message : TemplateFault → String
  | .notFound what path => "Template not found: " ++ what ++ " (" ++ Text.quotedPath path ++ ")"
  | .invalidName name => "Invalid template name: " ++ name
  | .invalidConfig path cause => "Invalid config in " ++ path ++ ": " ++ cause.message
  | .unsupportedValue field found =>
      "Unsupported value for field " ++ field ++ ": " ++ found.text
  | .renderingFailed template cause =>
      "Template rendering failed for " ++ template ++ ": " ++ cause.message
  | .io cause => "IO error: " ++ cause.message
  | .yaml cause => "YAML error: " ++ cause.message

/-- The part of a configuration that a problem is about. -/
inductive Entity where
  | sectionNamed (name : String)
  | file (path : String)
  | provider (name : String)
  | resource (type : String)
  | variable (target : String)
  | moduleNamed (name : String)
  | environment (name : String)
  | extraAsset (name : String)
  | field (name : String)
deriving DecidableEq

def Entity.text : Entity → String
  | .sectionNamed name => name
  | .file path => path
  | .provider name => "provider " ++ name
  | .resource type => "resource " ++ type
  | .variable target => "variable " ++ target
  | .moduleNamed name => "module " ++ name
  | .environment name => "environment " ++ name
  | .extraAsset name => "extra asset " ++ name
  | .field name => "field `" ++ name ++ "`"

inductive Problem where
  | expectedList (found : Kind)
  | expectedMapping (found : Kind)
  | expectedParameters (found : Kind)
  | providerNotSingle
  | resourceNotSingle
  | duplicated
  | missingField (name : String)
  | badName
  | emptyResource
  | moduleNotNamed (found : Kind)
  | jinjaNotBool (found : Kind)
  | variablesNotMapping (found : Kind)
  | variableNotMapping (target : String) (found : Kind)
  | unsupportedValue (found : Kind)
  | unknownAsset (known : List String)
  | unreadable (cause : Disk.Fault)
  | malformed (cause : TemplateFault)
  | within (entity : Entity) (problem : Problem)
deriving DecidableEq

def Problem.message : Problem → String
  | .expectedList found => "expected a list, found " ++ found.text
  | .expectedMapping found => "expected a mapping, found " ++ found.text
  | .expectedParameters found => "expected a mapping of parameters, found " ++ found.text
  | .providerNotSingle => "each provider must be a single-key mapping"
  | .resourceNotSingle => "each resource must be a single-key mapping"
  | .duplicated => "provider has been duplicated"
  | .missingField name => "missing required field `" ++ name ++ "`"
  | .badName => "name must be non-empty and use only letters, digits, `_` or `-`"
  | .emptyResource => "resource config is empty"
  | .moduleNotNamed found => "`_module` must be a module name, found " ++ found.text
  | .jinjaNotBool found => "`_jinja` must be a boolean, found " ++ found.text
  | .variablesNotMapping found => "`variables` must be a mapping, found " ++ found.text
  | .variableNotMapping target found =>
      "variable `" ++ target ++ "` must be a mapping, found " ++ found.text
  | .unsupportedValue found =>
      "unsupported value type " ++ found.text ++ " during substitution"
  | .unknownAsset known => "unknown extra asset, expected one of " ++ ", ".intercalate known
  | .unreadable cause => "cannot read config: " ++ cause.message
  | .malformed cause => cause.message
  | .within entity problem => entity.text ++ ": " ++ problem.message

inductive Failure where
  | configuration (entity : Entity) (problem : Problem)
  | template (cause : TemplateFault)
  | destinationConflict (path : String)
  | assetCopy (cause : Disk.Fault)
  | io (cause : Disk.Fault)
  | yaml (cause : Refusal)
  | json (cause : Refusal)
deriving DecidableEq

/-- The broad categories that decide how a run ends. -/
inductive Category where
  | configuration
  | template
  | destinationConflict
  | io
deriving DecidableEq

namespace Failure

def message : Failure → String
  | .configuration entity problem =>
      "Configuration error in " ++ entity.text ++ ": " ++ problem.message
  | .template cause => "Template error: " ++ cause.message
  | .destinationConflict path => "Destination already exists: " ++ path
  | .assetCopy cause => "Asset copy failed: " ++ cause.message
  | .io cause => "IO error: " ++ cause.message
  | .yaml cause => "YAML error: " ++ cause.message
  | .json cause => "JSON error: " ++ cause.message

def category : Failure → Category
  | .configuration .. => .configuration
  | .template _ => .template
  | .destinationConflict _ => .destinationConflict
  | .assetCopy _ => .io
  | .io _ => .io
  | .yaml _ => .configuration
  | .json _ => .template

/-- A value without a literal is a fault of the configuration, not of the template. -/
def ofTemplate : TemplateFault → Failure
  | .unsupportedValue field found => .configuration (.field field) (.unsupportedValue found)
  | fault => .template fault

/-- Names the larger part in which a configuration problem was found. -/
def within (entity : Entity) : Failure → Failure
  | .configuration inner problem => .configuration entity (.within inner problem)
  | failure => failure

theorem category_within (entity : Entity) (f : Failure) :
    (f.within entity).category = f.category := by cases f <;> rfl

end Failure

/-- A template step as a step of a run. -/
def ofTemplates {α : Type} (r : Except TemplateFault α) : Except Failure α :=
  r.mapError .ofTemplate

end Groundwork
