import Groundwork.Value
import Groundwork.Yaml.Datum

set_option autoImplicit false

/- Configuration values and YAML data. When data are read, keys of three kinds become text; anything
that a configuration value cannot hold is refused, the first such place in the order of the
document. A variable is written as the mapping it was read from. -/
namespace Groundwork

open Yaml (Amount Datum)

inductive Unreadable where
  | tag (name : String)
  | key (kind : String)
  | number (text : String)
  | root (kind : String)
deriving DecidableEq

def Unreadable.message : Unreadable → String
  | .tag name => "unsupported YAML tag !" ++ name
  | .key kind => "unsupported mapping key of kind " ++ kind
  | .number text => "non-finite number " ++ text
  | .root kind => "expected a mapping at document root, found " ++ kind

namespace Value

def keyText : Datum → Except Unreadable String
  | .string s => .ok s
  | .number n => .ok n.text
  | .bool b => .ok (boolText b)
  | d => .error (.key d.kindText)

def ofAmount (n : Amount) : Except Unreadable Value :=
  match n.number? with
  | some m => .ok (.number m)
  | none => .error (.number n.text)

mutual

def ofDatum : Datum → Except Unreadable Value
  | .null => .ok .null
  | .bool b => .ok (.bool b)
  | .number n => ofAmount n
  | .string s => .ok (.string s)
  | .sequence items => (ofItems items).map .list
  | .mapping entries => (ofEntries entries).map fun es => ofFields (Dict.ofList es)
  | .tagged tag _ => .error (.tag tag)

def ofItems : List Datum → Except Unreadable (List Value)
  | [] => .ok []
  | d :: rest => do
      let v ← ofDatum d
      let vs ← ofItems rest
      return v :: vs

def ofEntries : List (Datum × Datum) → Except Unreadable (List (String × Value))
  | [] => .ok []
  | (k, d) :: rest => do
      let key ← keyText k
      let v ← ofDatum d
      let vs ← ofEntries rest
      return (key, v) :: vs

end

end Value

/-- The fields of a document: a mapping, or nothing at all. The outermost mapping is never a
variable. -/
def Fields.ofDocument : Datum → Except Unreadable Fields
  | .null => .ok []
  | .mapping entries => (Value.ofEntries entries).map Dict.ofList
  | d => .error (.root d.kindText)

namespace Value

mutual

def toDatum : Value → Datum
  | .null => .null
  | .bool b => .bool b
  | .number n => .number (.ofNumber n)
  | .string s => .string s
  | .list items => .sequence (toItems items)
  | .variable fields => .mapping (toEntries fields)
  | .map fields => .mapping (toEntries fields)

def toItems : List Value → List Datum
  | [] => []
  | v :: rest => toDatum v :: toItems rest

def toEntries : List (String × Value) → List (Datum × Datum)
  | [] => []
  | (k, v) :: rest => (.string k, toDatum v) :: toEntries rest

end

mutual

/-- The value with every mapping plain and ordered by key. -/
def sortKeys : Value → Value
  | .list items => .list (sortItems items)
  | .variable fields => .map (Dict.sorted (sortFields fields))
  | .map fields => .map (Dict.sorted (sortFields fields))
  | v => v

def sortItems : List Value → List Value
  | [] => []
  | v :: rest => sortKeys v :: sortItems rest

def sortFields : List (String × Value) → List (String × Value)
  | [] => []
  | (k, v) :: rest => (k, sortKeys v) :: sortFields rest

end

end Value

end Groundwork
