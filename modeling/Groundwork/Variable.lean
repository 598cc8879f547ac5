import Groundwork.Catalog
import Groundwork.Failure

set_option autoImplicit false

/- Declared variables. A field marked as a variable gives a declaration, rendered from a template of
its own, and a reference by the variable's name wherever the field is used. -/
namespace Groundwork

structure Variable where
  /-- The field that the variable stands for. -/
  target : String
  name : String
  type : String
  default : Value
  description : String
  config : Fields
  /-- The rendered declaration. -/
  declaration : String

namespace Variable

def template : String := "_config_variable"

def typeKey : String := "type"

def targetKey : String := "target"

def defaultKey : String := "default_value"

def descriptionKey : String := "description"

def hasDefault (v : Variable) : Bool := !v.default.isNull

/-- The variable's complete fields, marked as a variable. -/
def toValue (v : Variable) : Value := .variable v.config

/-- The fields with defaults, target, marker and name filled in. -/
def complete (target : String) (config : Fields) : Fields :=
  let config := (config.insert targetKey (.string target)).insert Value.marker (.bool true)
  config.insert Value.nameKey (.string (referenceName target config))

/-- The declaration text of complete fields. -/
def render (catalog : Catalog) (target : String) (config : Fields) : Except Failure String := do
  let source ← ofTemplates (catalog.template template)
  let rendered ← ofTemplates (catalog.render template source config)
  (ofTemplates (Placeholder.fill rendered config)).mapError (.within (.variable target))

def declare (catalog : Catalog) (target : String) (config : Fields) : Except Failure Variable := do
  match config.text? typeKey with
  | none => .error (.configuration (.variable target) (.missingField typeKey))
  | some type =>
      let config := complete target (← ofTemplates (catalog.withDefaults template config))
      let declaration ← render catalog target config
      return {
        target
        name := referenceName target config
        type
        default := (config.get? defaultKey).getD .null
        description := ((config.get? descriptionKey).bind Value.string?).getD ""
        config
        declaration }

/-- One variable for every field that is marked as one, in field order. -/
def extract (catalog : Catalog) (fields : Fields) : Except Failure (List Variable) :=
  match fields with
  | [] => .ok []
  | (field, .variable config) :: rest => do
      let v ← declare catalog field config
      return v :: (← extract catalog rest)
  | _ :: rest => extract catalog rest

/-- How many variables have a default value, and how many have none. -/
def defaultCounts (vs : List Variable) : Nat × Nat :=
  ((vs.filter (·.hasDefault)).length, (vs.filter (!·.hasDefault)).length)

end Variable

end Groundwork
