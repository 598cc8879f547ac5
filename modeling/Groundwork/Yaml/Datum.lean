import Groundwork.Number

set_option autoImplicit false

/- The YAML data model: what a document says once its layout is gone. Mappings keep their order but
are equal in any order, and a number may have no finite value. -/
namespace Groundwork.Yaml

open Decimal (Binary64 Style)

inductive Amount where
  | whole (n : Whole)
  | float (x : Binary64)
deriving DecidableEq

namespace Amount

/-- Integers never equal floats, and all numbers without value are one. -/
def eqv : Amount → Amount → Bool
  | .whole m, .whole n => m = n
  | .float x, .float y => (x.isNaN && y.isNaN) || x.eqv y
  | _, _ => false

def text : Amount → String
  | .whole n => toString n.val
  | .float x =>
      if x.isFinite then Style.yaml.text x
      else if x.isNaN then ".nan"
      else if x.negative then "-.inf"
      else ".inf"

def ofNumber : Number → Amount
  | .whole n => .whole n
  | .float x _ => .float x

def number? : Amount → Option Number
  | .whole n => some (.whole n)
  | .float x => if h : x.isFinite = true then some (.float x h) else none

@[simp] theorem number?_ofNumber (n : Number) : (ofNumber n).number? = some n := by
  cases n with
  | whole n => rfl
  | float x h => simp [ofNumber, number?, h]

end Amount

inductive Datum where
  | null
  | bool (b : Bool)
  | number (n : Amount)
  | string (s : String)
  | sequence (items : List Datum)
  | mapping (entries : List (Datum × Datum))
  | tagged (tag : String) (content : Datum)

namespace Datum

def kindText : Datum → String
  | .null => "null"
  | .bool _ => "bool"
  | .number _ => "number"
  | .string _ => "string"
  | .sequence _ => "sequence"
  | .mapping _ => "mapping"
  | .tagged .. => "tagged value"

mutual

def eqv : Datum → Datum → Bool
  | .null, .null => true
  | .bool a, .bool b => a = b
  | .number m, .number n => m.eqv n
  | .string s, .string t => s = t
  | .sequence xs, .sequence ys => eqvItems xs ys
  | .mapping xs, .mapping ys => xs.length = ys.length && eqvEntries xs ys
  | .tagged s x, .tagged t y => s = t && eqv x y
  | _, _ => false

def eqvItems : List Datum → List Datum → Bool
  | [], [] => true
  | x :: xs, y :: ys => eqv x y && eqvItems xs ys
  | _, _ => false

/-- Whether every entry of the first list stands in the second. -/
def eqvEntries : List (Datum × Datum) → List (Datum × Datum) → Bool
  | [], _ => true
  | (k, v) :: rest, ys => ys.any (fun y => eqv k y.1 && eqv v y.2) && eqvEntries rest ys

end

/-- Whether no key occurs twice. -/
def distinctKeys : List (Datum × Datum) → Bool
  | [] => true
  | (k, _) :: rest => rest.all (fun e => !eqv k e.1) && distinctKeys rest

end Datum

end Groundwork.Yaml
