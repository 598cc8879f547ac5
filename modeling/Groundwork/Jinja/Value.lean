import Groundwork.Decimal.Style
import Groundwork.Text.Quoted
import Groundwork.Value

set_option autoImplicit false

/- The values a template computes with, their truth, their order and their printed form. Numbers and
booleans compare by value across kinds; all other kinds are told apart first. -/
namespace Groundwork.Jinja

open Decimal (Binary64 Style)

inductive Value where
  | undefined
  | none
  | bool (b : Bool)
  | int (n : Int)
  | float (x : Binary64)
  | text (s : String)
  | list (items : List Value)
  | map (entries : List (Value × Value))

instance : Inhabited Value := ⟨.undefined⟩

/-- The kinds in their order. -/
inductive Kind where
  | undefined | none | bool | number | string | sequence | map
deriving DecidableEq

namespace Kind

def rank : Kind → Nat
  | .undefined => 0
  | .none => 1
  | .bool => 2
  | .number => 3
  | .string => 4
  | .sequence => 5
  | .map => 6

def text : Kind → String
  | .undefined => "undefined"
  | .none => "none"
  | .bool => "bool"
  | .number => "number"
  | .string => "string"
  | .sequence => "sequence"
  | .map => "map"

end Kind

namespace Value

def kind : Value → Kind
  | .undefined => .undefined
  | .none => .none
  | .bool _ => .bool
  | .int _ => .number
  | .float _ => .number
  | .text _ => .string
  | .list _ => .sequence
  | .map _ => .map

def isTrue : Value → Bool
  | .undefined => false
  | .none => false
  | .bool b => b
  | .int n => n ≠ 0
  | .float x => !x.isZero
  | .text s => s ≠ ""
  | .list items => !items.isEmpty
  | .map entries => !entries.isEmpty

/-- A number that is exactly an integer, booleans counting as 0 and 1. -/
def int? : Value → Option Int
  | .bool b => some (if b then 1 else 0)
  | .int n => some n
  | .float x =>
      if x.isFinite && x.units % Binary64.unit = 0 then some (x.units / Binary64.unit) else .none
  | _ => .none

/-- The float equal to a number, if there is one. -/
def exactFloat? : Value → Option Binary64
  | .bool b => some (.ofInt (if b then 1 else 0))
  | .int n =>
      let x := Binary64.ofInt n
      if x.units = n * Binary64.unit then some x else .none
  | .float x => some x
  | _ => .none

/-- Two values on common ground: as floats if one is a float, else as integers. -/
inductive Common where
  | ints (m n : Int)
  | floats (x y : Binary64)

def common? (a b : Value) : Option Common :=
  match a, b with
  | .float x, _ => (exactFloat? b).map (.floats x ·)
  | _, .float y => (exactFloat? a).map (.floats · y)
  | _, _ =>
    match int? a, int? b with
    | some m, some n => some (.ints m n)
    | _, _ => .none

mutual

def eqv : Value → Value → Bool
  | .undefined, .undefined => true
  | .none, .none => true
  | .text s, .text t => s = t
  | .list xs, .list ys => eqvItems xs ys
  | .map xs, .map ys => xs.length = ys.length && eqvEntries xs ys
  | a, b =>
      match common? a b with
      | some (.ints m n) => m = n
      | some (.floats x y) => x.eqv y
      | .none => false

def eqvItems : List Value → List Value → Bool
  | [], [] => true
  | x :: xs, y :: ys => eqv x y && eqvItems xs ys
  | _, _ => false

/-- Whether every entry of the first map stands in the second. -/
def eqvEntries : List (Value × Value) → List (Value × Value) → Bool
  | [], _ => true
  | (k, v) :: rest, ys => ys.any (fun y => eqv k y.1 && eqv v y.2) && eqvEntries rest ys

end

/-- Floats by value, negative zero below positive zero. -/
def compareFloats (x y : Binary64) : Ordering :=
  (compare x.units y.units).then (compare y.negative x.negative)

mutual

def order : Value → Value → Ordering
  | .text s, .text t => compare s t
  | .list xs, .list ys => orderItems xs ys
  | .map xs, .map ys => orderEntries xs ys
  | a, b =>
      (compare a.kind.rank b.kind.rank).then <|
        match common? a b with
        | some (.ints m n) => compare m n
        | some (.floats x y) => compareFloats x y
        | .none => .eq

def orderItems : List Value → List Value → Ordering
  | [], [] => .eq
  | [], _ :: _ => .lt
  | _ :: _, [] => .gt
  | x :: xs, y :: ys => (order x y).then (orderItems xs ys)

def orderEntries : List (Value × Value) → List (Value × Value) → Ordering
  | [], [] => .eq
  | [], _ :: _ => .lt
  | _ :: _, [] => .gt
  | (k, v) :: xs, (l, w) :: ys => ((order k l).then (order v w)).then (orderEntries xs ys)

end

/-- The value under a key of a map. -/
def entry? (entries : List (Value × Value)) (key : Value) : Option Value :=
  (entries.find? fun e => e.1.eqv key).map (·.2)

/-- The place an index names in `size` places; negative ones count from the end. -/
def place? (size : Nat) (index : Value) : Option Nat :=
  match index.int? with
  | some i => if i < 0 then (if -i ≤ size then some (size - i.natAbs) else .none) else some i.toNat
  | .none => .none

def part? (v index : Value) : Option Value :=
  match v with
  | .map entries => entry? entries index
  | .list items => (place? items.length index).bind (items[·]?)
  | .text s =>
      let cs := s.toList
      (place? cs.length index).bind fun i => cs[i]?.map fun c => .text (String.singleton c)
  | _ => .none

/-- What a loop over a value visits: items, keys or characters. Nothing at all is visited in a value
that is undefined or none. -/
def visits? : Value → Option (List Value)
  | .undefined => some []
  | .none => some []
  | .list items => some items
  | .map entries => some (entries.map (·.1))
  | .text s => some (s.toList.map fun c => .text (String.singleton c))
  | _ => .none

/-- What a value is taken apart into: items or keys. A text has no parts. -/
def parts? : Value → Option (List Value)
  | .list items => some items
  | .map entries => some (entries.map (·.1))
  | _ => .none

mutual

/-- A value inside a printed list or map. -/
def listed : Value → String
  | .undefined => "undefined"
  | .none => "none"
  | .bool b => Groundwork.Value.boolText b
  | .int n => toString n
  | .float x => Style.listed.text x
  | .text s => Text.quoted s
  | .list items => "[" ++ ", ".intercalate (listedItems items) ++ "]"
  | .map entries => "\x7b" ++ ", ".intercalate (listedEntries entries) ++ "\x7d"

def listedItems : List Value → List String
  | [] => []
  | x :: xs => listed x :: listedItems xs

def listedEntries : List (Value × Value) → List String
  | [] => []
  | (k, v) :: rest => (listed k ++ ": " ++ listed v) :: listedEntries rest

end

/-- A value printed on its own: text as it is, and nothing for what is undefined. -/
def printed : Value → String
  | .undefined => ""
  | .text s => s
  | .float x => Style.plain.text x
  | v => v.listed

mutual

def ofConfig : Groundwork.Value → Value
  | .null => .none
  | .bool b => .bool b
  | .number (.whole n) => .int n.val
  | .number (.float x _) => .float x
  | .string s => .text s
  | .list items => .list (ofConfigItems items)
  | .variable fields => .map (ofConfigFields fields)
  | .map fields => .map (ofConfigFields fields)

def ofConfigItems : List Groundwork.Value → List Value
  | [] => []
  | v :: rest => ofConfig v :: ofConfigItems rest

def ofConfigFields : List (String × Groundwork.Value) → List (Value × Value)
  | [] => []
  | (k, v) :: rest => (.text k, ofConfig v) :: ofConfigFields rest

end

end Value

end Groundwork.Jinja
