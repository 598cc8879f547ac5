import Groundwork.Module
import Groundwork.Provider

set_option autoImplicit false

/- Deployment environments. An environment's root code refers to every module and provider, and its
recorded fields mirror the code, the declarations and the variables that belong to it. -/
namespace Groundwork

structure Environment where
  name : String
  config : Fields
  vars : List Variable
  template : String
  mainCode : String
  variableCode : String

namespace Environment

def templateName : String := "_config_environment"

def variablesKey : String := "variables"

def variableNames (e : Environment) : List String := e.vars.map (·.name)

/-- The plain mapping under `variables`, if there is one. -/
def declaredFields (config : Fields) : Fields :=
  match config.get? variablesKey with
  | some (.map fields) => fields
  | _ => []

def declareAll (catalog : Catalog) (entity : Entity) : Fields → Except Failure (List Variable)
  | [] => .ok []
  | (target, value) :: rest => do
      match value.fields? with
      | none => .error (.configuration entity (.variableNotMapping target value.kind))
      | some fields =>
          let v ← (Variable.declare catalog target fields).mapError (.within entity)
          return v :: (← declareAll catalog entity rest)

/-- The variables of the `variables` section. -/
def sectionVariables (catalog : Catalog) (entity : Entity) (config : Fields) :
    Except Failure (List Variable) :=
  match config.get? variablesKey with
  | none | some .null => .ok []
  | some (.map fields) => declareAll catalog entity fields
  | some v => .error (.configuration entity (.variablesNotMapping v.kind))

/-- Writes every variable's complete fields under its target. -/
def recordVariables (declared : Fields) (vars : List Variable) : Fields :=
  vars.foldl (fun fields v => fields.insert v.target v.toValue) declared

/-- Brings the recorded fields up to date. -/
def refresh (e : Environment) : Environment :=
  let config := (e.config.insert "name" (.string e.name)).insert "main.tf" (.string e.mainCode)
  let config := config.insert "var.tf" (.string e.variableCode)
  let config := config.insert "variables_names" (.ofNames e.variableNames)
  let recorded := recordVariables (declaredFields config) e.vars
  { e with config := config.insert variablesKey (.map recorded) }

def build (catalog : Catalog) (name : String) (config : Fields) : Except Failure Environment := do
  let entity := Entity.environment name
  let config ← ofTemplates (catalog.withDefaults templateName config)
  let declared ← sectionVariables catalog entity config
  let marked ← (Variable.extract catalog config).mapError (.within entity)
  let template ← ofTemplates (catalog.template templateName)
  let vars := Module.addVariables declared marked
  return refresh { name, config, vars, template, mainCode := "", variableCode := "" }

/-- What the root code is rendered over. -/
def context (e : Environment) (providers : List Provider) (modules : List Module) : Fields :=
  [("modules", .map (modules.map fun m => (m.name, .map m.summary.toFields))),
    ("providers", .list (providers.map (·.toValue))),
    ("env", .map e.config)]

/-- Renders the root code and the declarations, once all modules are final. -/
def extend (catalog : Catalog) (e : Environment) (providers : List Provider)
    (modules : List Module) : Except Failure Environment := do
  let mainCode ← ofTemplates
    (catalog.render templateName e.template (e.context providers modules))
  let variableCode := "\n\n".intercalate (e.vars.map (·.declaration))
  return refresh { e with mainCode, variableCode }

/-- Builds environments in order against final modules, up to the first that fails. -/
def buildAll (catalog : Catalog) (providers : List Provider) (modules : List Module) :
    Dict Fields → Except Failure (List Environment)
  | [] => .ok []
  | (name, config) :: rest => do
      let e ← build catalog name config
      let e ← e.extend catalog providers modules
      return e :: (← buildAll catalog providers modules rest)

end Environment

end Groundwork
