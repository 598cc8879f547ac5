import Groundwork.Dict
import Groundwork.Number

set_option autoImplicit false

/- Configuration values. A mapping that carries `is_variable: true` is kept apart as a variable when
it is read, so later stages tell by the constructor what they hold. -/
namespace Groundwork

inductive Value where
  | null
  | bool (b : Bool)
  | number (n : Number)
  | string (s : String)
  | list (items : List Value)
  | variable (fields : List (String × Value))
  | map (fields : List (String × Value))

abbrev Fields := Dict Value

instance : Inhabited Value := ⟨.null⟩

inductive Kind where
  | null | bool | number | string | list | variable | mapping
deriving DecidableEq

def Kind.text : Kind → String
  | .null => "null"
  | .bool => "bool"
  | .number => "number"
  | .string => "string"
  | .list => "list"
  | .variable => "variable"
  | .mapping => "mapping"

namespace Value

/-- The field that marks a mapping as a variable. -/
def marker : String := "is_variable"

/-- The field that holds a variable's declared name. -/
def nameKey : String := "name"

def kind : Value → Kind
  | .null => .null
  | .bool _ => .bool
  | .number _ => .number
  | .string _ => .string
  | .list _ => .list
  | .variable _ => .variable
  | .map _ => .mapping

def isNull : Value → Bool
  | .null => true
  | _ => false

def isVariable : Value → Bool
  | .variable _ => true
  | _ => false

def string? : Value → Option String
  | .string s => some s
  | _ => none

def bool? : Value → Option Bool
  | .bool b => some b
  | _ => none

/-- The fields of a mapping, marked or not. -/
def fields? : Value → Option Fields
  | .map fields => some fields
  | .variable fields => some fields
  | _ => none

def isTrue : Value → Bool
  | .null => false
  | .bool b => b
  | .number n => !n.isZero
  | .string s => s ≠ ""
  | .list items => !items.isEmpty
  | .variable fields => !fields.isEmpty
  | .map fields => !fields.isEmpty

def boolText (b : Bool) : String := if b then "true" else "false"

/-- Scalars as their text, everything else as its kind in angle brackets. -/
def display : Value → String
  | .null => "null"
  | .bool b => boolText b
  | .number n => n.json
  | .string s => s
  | v => "<" ++ v.kind.text ++ ">"

/-- Whether the marker of `fields` is the boolean true. -/
def isMarked (fields : Fields) : Bool :=
  match fields.get? marker with
  | some (.bool true) => true
  | _ => false

/-- A mapping under the constructor that its marker asks for. -/
def ofFields (fields : Fields) : Value :=
  if isMarked fields then .variable fields else .map fields

end Value

/-- The string under `key`, if it is a non-empty string. -/
def Dict.text? (fields : Fields) (key : String) : Option String :=
  match fields.get? key with
  | some (.string s) => if s = "" then none else some s
  | _ => none

/-- The declared name of a variable bound to `field`; an absent, empty or non-string name falls back
to the field. -/
def referenceName (field : String) (fields : Fields) : String :=
  (Dict.text? fields Value.nameKey).getD field

end Groundwork
