import Groundwork.Manifest

set_option autoImplicit false

/- Extra assets beside the generated code: a follow-up document rendered over the manifest, and
source directories copied as they are. -/
namespace Groundwork

inductive Asset where
  | actionRequired (rendered : String)
  | staticCopy (name source : String)

namespace Asset

def actionRequiredName : String := "action_required"

def actionRequiredFile : String := actionRequiredName ++ ".md"

def staticNames : List String := ["airflow_local", "mageai_local"]

def name : Asset → String
  | .actionRequired _ => actionRequiredName
  | .staticCopy name _ => name

/-- The asset of a name, rendered over the manifest and the asset's own fields. -/
def build (catalog : Catalog) (m : Manifest) (name : String) (config : Fields) :
    Except Failure Asset := do
  if name = actionRequiredName then
    let source ← ofTemplates (catalog.assetFile actionRequiredName actionRequiredFile)
    let context ← m.renderContext catalog config
    let rendered ← ofTemplates (catalog.render actionRequiredName source context)
    return .actionRequired rendered
  else if staticNames.contains name then
    return .staticCopy name (← ofTemplates (catalog.assetDirectory name))
  else
    .error (.configuration (.extraAsset name) (.unknownAsset (actionRequiredName :: staticNames)))

def buildAll (catalog : Catalog) (m : Manifest) : Dict Fields → Except Failure (List Asset)
  | [] => .ok []
  | (name, config) :: rest => do
      let a ← build catalog m name config
      return a :: (← buildAll catalog m rest)

end Asset

end Groundwork
