import Groundwork.NamePool
import Groundwork.Value

set_option autoImplicit false

namespace Groundwork

structure Settings where
  templatesRoot : String
  naming : Naming
  formatter : String
deriving DecidableEq

namespace Settings

def terraform : String := "terraform"

def default : Settings := ⟨".", .random, terraform⟩

def naming? : String → Option Naming
  | "random" => some .random
  | "sequential" => some .sequential
  | _ => none

/-- A naming is stored as its word, or as that word over null. -/
def namingOf? : Value → Option Naming
  | .string s => naming? s
  | .map [(s, .null)] => naming? s
  | _ => none

def ofParts? (root naming formatter : Value) : Option Settings := do
  return ⟨← root.string?, ← namingOf? naming, ← formatter.string?⟩

/-- Reads stored settings. All three parts have to be there, by name or in order, and others are
ignored. -/
def ofValue? : Value → Option Settings
  | .list [root, naming, formatter] => ofParts? root naming formatter
  | v => do
      let fields ← v.fields?
      ofParts? (← fields.get? "templates_root") (← fields.get? "naming")
        (← fields.get? "formatter")

def toFields (s : Settings) : Fields :=
  [("templates_root", .string s.templatesRoot), ("naming", .string s.naming.text),
    ("formatter", .string s.formatter)]

theorem ofValue?_toFields (s : Settings) : ofValue? (.map s.toFields) = some s := by
  rcases s with ⟨root, naming, formatter⟩
  cases naming <;> rfl

end Settings

end Groundwork
