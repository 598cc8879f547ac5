import Groundwork.Decimal.Numeral
import Groundwork.Text.CodePoints
import Groundwork.Yaml.Datum
import Groundwork.Yaml.Fault

set_option autoImplicit false

/- What a plain scalar stands for: null, a boolean, an integer in one of four bases, a float, or
else its own text. -/
namespace Groundwork.Yaml.Scalar

open Decimal (Binary64 Numeral)

def isNull (s : String) : Bool := ["null", "Null", "NULL", "~"].contains s

def bool? (s : String) : Option Bool :=
  if ["true", "True", "TRUE"].contains s then some true
  else if ["false", "False", "FALSE"].contains s then some false
  else none

def splitSign : List Char → Option Char × List Char
  | c :: rest => if c = '-' ∨ c = '+' then (some c, rest) else (none, c :: rest)
  | [] => (none, [])

/-- A leading zero in front of other digits makes a string. -/
def isZeroPadded (cs : List Char) : Bool :=
  match (splitSign cs).2 with
  | '0' :: c :: rest => (c :: rest).all Char.isDigit
  | _ => false

def digit? (base : Nat) (c : Char) : Option Nat :=
  if c.isAlphanum && c.toNat < 128 then
    let d := if c.isDigit then c.toNat - 48 else c.toLower.toNat - 87
    if d < base then some d else none
  else none

def natural? (base : Nat) (cs : List Char) : Option Nat :=
  if cs.isEmpty then none
  else cs.foldlM (fun acc c => (digit? base c).map (base * acc + ·)) 0

def based? : List Char → Option Nat
  | '0' :: 'x' :: digits => natural? 16 digits
  | '0' :: 'o' :: digits => natural? 8 digits
  | '0' :: 'b' :: digits => natural? 2 digits
  | _ => none

/-- The integer that the text spells, of any size. -/
def integer? (s : String) : Option Int :=
  let cs := s.toList
  let (sign, body) := splitSign cs
  let magnitude := (based? body).orElse fun _ =>
    if isZeroPadded cs then none else natural? 10 body
  magnitude.map fun (n : Nat) => if sign = some '-' then -(n : Int) else n

/-- Integers of at most 128 bits are recognised as such, those of at most 64 are accepted. -/
def isInteger128 (n : Int) : Bool := -(Nat.pow 2 127 : Int) ≤ n && n < (Nat.pow 2 128 : Int)

/-- A finite or infinite float, or the one without value. Decimals beyond the range of a double are
no floats. -/
def float? (s : String) : Option Binary64 :=
  if [".inf", ".Inf", ".INF", "+.inf", "+.Inf", "+.INF"].contains s then some (.infinity false)
  else if ["-.inf", "-.Inf", "-.INF"].contains s then some (.infinity true)
  else if [".nan", ".NaN", ".NAN"].contains s then some .nan
  else match Numeral.ofText? s with
    | some n => let x := n.toBinary64; if x.isFinite then some x else none
    | none => none

def plain (s : String) : Except Fault Datum :=
  if s = "" || isNull s then .ok .null
  else match bool? s with
    | some b => .ok (.bool b)
    | none =>
      match (integer? s).filter isInteger128 with
      | some n =>
          match Whole.ofInt? n with
          | some w => .ok (.number (.whole w))
          | none => .error (.integerTooLarge s)
      | none =>
          if isZeroPadded s.toList then .ok (.string s)
          else match float? s with
            | some x => .ok (.number (.float x))
            | none => .ok (.string s)

def coreTag (name : String) : String := "tag:yaml.org,2002:" ++ name

/-- A scalar under one of the core tags, which demands its kind. Every other global tag leaves the
text as it is. -/
def underTag (tag s : String) : Except Fault Datum :=
  let refuse : Except Fault Datum := .error (.badScalar tag s)
  if tag = coreTag "bool" then
    match bool? s with
    | some b => .ok (.bool b)
    | none => refuse
  else if tag = coreTag "int" then
    match (integer? s).filter isInteger128 with
    | some n =>
        match Whole.ofInt? n with
        | some w => .ok (.number (.whole w))
        | none => .error (.integerTooLarge s)
    | none => refuse
  else if tag = coreTag "float" then
    match float? s with
    | some x => .ok (.number (.float x))
    | none => refuse
  else if tag = coreTag "null" then if isNull s then .ok .null else refuse
  else .ok (.string s)

example : integer? "-0x1F" = some (-31) := by decide +kernel
example : isZeroPadded "007".toList = true := by decide +kernel
example : float? "1e400" = none := by decide +kernel

end Groundwork.Yaml.Scalar
