import Groundwork.Resource

set_option autoImplicit false

/- Modules: buckets of resources whose variables are declared once per name, the first declaration
standing. -/
namespace Groundwork

structure Module where
  name : String
  /-- The fields declared for the module itself. -/
  config : Fields
  mainCode : String
  variableCode : String
  resources : List Resource
  vars : List Variable

/-- What templates and the manifest see of a module. -/
structure Module.Summary where
  name : String
  mainCode : String
  variableCode : String
  vars : List Fields
  variableNames : List String
  withDefault : List String
  withoutDefault : List String
  resources : List String
  config : Fields

namespace Module

def empty (name : String) (config : Fields) : Module := ⟨name, config, "", "", [], []⟩

/-- Adds a variable unless one of its name is there. -/
def addVariable (known : List Variable) (v : Variable) : List Variable :=
  if known.any (·.name = v.name) then known else known ++ [v]

def addVariables (known vs : List Variable) : List Variable := vs.foldl addVariable known

def add (m : Module) (r : Resource) : Module :=
  { m with
    mainCode := m.mainCode ++ r.code ++ "\n\n"
    vars := addVariables m.vars r.vars
    resources := m.resources ++ [r] }

/-- Writes the declarations of all variables. -/
def finish (m : Module) : Module :=
  { m with variableCode := String.join (m.vars.map fun v => v.declaration ++ "\n\n") }

def variableNames (m : Module) : List String := m.vars.map (·.name)

def summary (m : Module) : Module.Summary where
  name := m.name
  mainCode := m.mainCode
  variableCode := m.variableCode
  vars := m.vars.map (·.config)
  variableNames := m.variableNames
  withDefault := (m.vars.filter (·.hasDefault)).map (·.name)
  withoutDefault := (m.vars.filter (!·.hasDefault)).map (·.name)
  resources := m.resources.map (·.instanceName)
  config := m.config

end Module

def Value.ofNames (names : List String) : Value := .list (names.map .string)

namespace Module.Summary

def toFields (s : Module.Summary) : Fields :=
  [("name", .string s.name), ("main_tf", .string s.mainCode), ("var_tf", .string s.variableCode),
    ("variables", .list (s.vars.map .map)), ("variables_names", .ofNames s.variableNames),
    ("vars_with_def", .ofNames s.withDefault), ("vars_no_def", .ofNames s.withoutDefault),
    ("resources", .ofNames s.resources), ("config", .map s.config)]

end Module.Summary

end Groundwork
