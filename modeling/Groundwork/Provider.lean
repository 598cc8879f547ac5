import Groundwork.Failure

set_option autoImplicit false

/- Provider declarations: a list of mappings with one key each, the provider's name, over its
parameters. Some providers are known and must carry certain parameters. -/
namespace Groundwork

/-- What is made of a mapping with one key: of the key and of the fields that it stands over, null for
none. A value of another shape fails as `shape`, a key over anything else as `content`. -/
def Value.single {α : Type} (make : String → Fields → α) (shape : Failure)
    (content : String → Kind → Failure) : Value → Except Failure α
  | .map [(name, .null)] => .ok (make name [])
  | .map [(name, .map fields)] => .ok (make name fields)
  | .map [(name, v)] => .error (content name v.kind)
  | _ => .error shape

inductive Cloud where
  | aws
  | azure
  | gcp
deriving DecidableEq

namespace Cloud

def text : Cloud → String
  | .aws => "aws"
  | .azure => "azure"
  | .gcp => "gcp"

def registryName : Cloud → String
  | .aws => "aws"
  | .azure => "azurerm"
  | .gcp => "google"

def all : List Cloud := [.aws, .azure, .gcp]

def ofRegistryName? (name : String) : Option Cloud := all.find? (·.registryName = name)

def requiredParams : Cloud → List String
  | .aws => ["region"]
  | .azure => []
  | .gcp => []

end Cloud

structure Provider where
  name : String
  params : Fields

namespace Provider

def sectionEntity : Entity := .sectionNamed "providers"

def cloud? (p : Provider) : Option Cloud := Cloud.ofRegistryName? p.name

/-- The parameters that a known provider lacks. -/
def missingParams (p : Provider) : List String :=
  ((p.cloud?.map Cloud.requiredParams).getD []).filter fun field =>
    ((p.params.get? field).getD .null).isNull

def ofEntry : Value → Except Failure Provider :=
  Value.single .mk (.configuration sectionEntity .providerNotSingle) fun name found =>
    .configuration (.provider name) (.expectedParameters found)

def check (seen : List String) (p : Provider) : Except Failure Unit :=
  if seen.contains p.name then .error (.configuration (.provider p.name) .duplicated)
  else match p.missingParams with
    | [] => .ok ()
    | field :: _ => .error (.configuration (.provider p.name) (.missingField field))

/-- The providers of entries, none of them named like one already seen. -/
def ofEntries (seen : List String) : List Value → Except Failure (List Provider)
  | [] => .ok []
  | entry :: rest => do
      let p ← ofEntry entry
      check seen p
      return p :: (← ofEntries (p.name :: seen) rest)

def ofSection : Option Value → Except Failure (List Provider)
  | none => .ok []
  | some .null => .ok []
  | some (.list entries) => ofEntries [] entries
  | some v => .error (.configuration sectionEntity (.expectedList v.kind))

/-- The entry that declares the provider. -/
def toValue (p : Provider) : Value := .map [(p.name, .map p.params)]

end Provider

end Groundwork
