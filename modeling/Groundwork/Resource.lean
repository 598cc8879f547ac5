import Groundwork.NamePool
import Groundwork.Variable

set_option autoImplicit false

/- Resources: one rendered unit of infrastructure each. A resource's fields are completed by its
type's defaults, an instance name and the name of the module it belongs to. -/
namespace Groundwork

structure Resource where
  type : String
  /-- The complete fields, variables included. -/
  config : Fields
  moduleName : String
  usesJinja : Bool
  vars : List Variable
  code : String

/-- Module and environment names become directories. -/
def requireDirectoryName (entity : Entity) (name : String) : Except Failure Unit :=
  if isPlainName name then .ok () else .error (.configuration entity .badName)

namespace Resource

def moduleKey : String := "_module"

def jinjaKey : String := "_jinja"

def nameKey : String := "resource_name"

def mainModule : String := "main"

/-- The instance name that fields give, if they give a string. -/
def givenName? (config : Fields) : Option String := (config.get? nameKey).bind Value.string?

/-- The instance name, unless it is no string. -/
def instanceName (r : Resource) : String := (givenName? r.config).getD ""

/-- Generates an instance name where none is given. -/
def nameIn (type : String) (config : Fields) (pool : NamePool) : Fields × NamePool :=
  match config.get? nameKey with
  | none | some .null =>
      let (name, pool) := pool.fresh type
      (config.insert nameKey (.string name), pool)
  | some _ => (config, pool)

def moduleOf (type : String) (config : Fields) : Except Failure String :=
  match config.get? moduleKey with
  | none | some .null => .ok mainModule
  | some (.string name) => do
      requireDirectoryName (.resource type) name
      return name
  | some v => .error (.configuration (.resource type) (.moduleNotNamed v.kind))

def jinjaOf (type : String) (config : Fields) : Except Failure Bool :=
  match config.get? jinjaKey with
  | none | some .null => .ok false
  | some (.bool b) => .ok b
  | some v => .error (.configuration (.resource type) (.jinjaNotBool v.kind))

/-- The text whose placeholders are filled: the type's template, conditional parts first, where the
resource has them. -/
def source (catalog : Catalog) (type : String) (usesJinja : Bool) (config : Fields) :
    Except Failure String := do
  let text ← ofTemplates (catalog.template type)
  if usesJinja then ofTemplates (catalog.render type text config) else return text

/-- The code of complete fields. -/
def render (catalog : Catalog) (type : String) (usesJinja : Bool) (config : Fields) :
    Except Failure String := do
  let text ← source catalog type usesJinja config
  (ofTemplates (Placeholder.fill text config)).mapError (.within (.resource type))

/-- Writes every variable's complete fields back to the field it was found in. -/
def resolve (config : Fields) (vars : List Variable) : Fields :=
  vars.foldl (fun fields v => fields.insert v.target v.toValue) config

/-- The resource of complete and named fields. -/
def assemble (catalog : Catalog) (type : String) (config : Fields) : Except Failure Resource := do
  let moduleName ← moduleOf type config
  let config := config.insert moduleKey (.string moduleName)
  let usesJinja ← jinjaOf type config
  let vars ← (Variable.extract catalog config).mapError (.within (.resource type))
  let code ← render catalog type usesJinja config
  return { type, config := resolve config vars, moduleName, usesJinja, vars, code }

/-- Builds a resource. The name pool changes as soon as a name is generated, even if a later step
fails. -/
def build (catalog : Catalog) (type : String) (config : Fields) (pool : NamePool) :
    Except Failure Resource × NamePool :=
  if config.isEmpty then (.error (.configuration (.resource type) .emptyResource), pool)
  else match ofTemplates (catalog.withDefaults type config) with
    | .error e => (.error e, pool)
    | .ok config =>
        let (config, pool) := nameIn type config pool
        (assemble catalog type config, pool)

/-- Builds resources in order with one pool, up to the first that fails. -/
def buildAll (catalog : Catalog) :
    List (String × Fields) → NamePool → Except Failure (List Resource) × NamePool
  | [], pool => (.ok [], pool)
  | (type, config) :: rest, pool =>
      match build catalog type config pool with
      | (.error e, pool) => (.error e, pool)
      | (.ok r, pool) =>
          let (more, pool) := buildAll catalog rest pool
          (more.map (r :: ·), pool)

end Resource

end Groundwork
