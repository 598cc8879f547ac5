import Groundwork.Decimal.Shortest

set_option autoImplicit false

/- How the shortest digits of a number are laid out: which magnitudes are written positionally, and
how an exponent is spelled. A whole number written positionally keeps `.0`. -/
namespace Groundwork.Decimal

structure Style where
  positional : Int → Bool
  exponentPlus : Bool
  tie : Tie

namespace Style

def digitText (ds : List Nat) : String := String.ofList (ds.map fun d => Char.ofNat (48 + d))

def zeros (n : Nat) : List Nat := List.replicate n 0

def positionalText (d : Digits) : String :=
  if d.point ≤ 0 then "0." ++ digitText (zeros (-d.point).toNat ++ d.digits)
  else
    let whole := d.point.toNat
    if d.digits.length ≤ whole then
      digitText (d.digits ++ zeros (whole - d.digits.length)) ++ ".0"
    else digitText (d.digits.take whole) ++ "." ++ digitText (d.digits.drop whole)

def exponentText (style : Style) (d : Digits) : String :=
  let mantissa := match d.digits with
    | first :: second :: rest => digitText [first] ++ "." ++ digitText (second :: rest)
    | ds => digitText ds
  let e := d.point - 1
  let sign := if e < 0 then "-" else if style.exponentPlus then "+" else ""
  mantissa ++ "e" ++ sign ++ toString e.natAbs

def text (style : Style) (x : Binary64) : String :=
  let d := shortest x style.tie
  let magnitude := if style.positional d.point then positionalText d else style.exponentText d
  if x.negative then "-" ++ magnitude else magnitude

end Style

/-- JSON text: positional from `0.00001` up to sixteen digits before the point, exponents signed. -/
def Style.json : Style where
  positional p := -4 ≤ p && p ≤ 16
  exponentPlus := true
  tie := .even

/-- YAML text: as in JSON, but a positive exponent has no sign. -/
def Style.yaml : Style := { Style.json with exponentPlus := false }

/-- Text of a number on its own: never an exponent. -/
def Style.plain : Style where
  positional _ := true
  exponentPlus := false
  tie := .up

/-- Text of a number inside a listed value: positional from `0.0001` up to below `10 ^ 16`. -/
def Style.listed : Style where
  positional p := -3 ≤ p && p ≤ 16
  exponentPlus := false
  tie := .up

example : Style.json.text ⟨0x4341C37937E08000⟩ = "1e+16" := by decide +kernel
example : Style.yaml.text ⟨0x4341C37937E08000⟩ = "1e16" := by decide +kernel
example : Style.json.text ⟨0x3EE4F8B588E368F1⟩ = "0.00001" := by decide +kernel
example : Style.json.text ⟨0x8000000000000000⟩ = "-0.0" := by decide +kernel
example : Style.plain.text ⟨0x4341C37937E08000⟩ = "10000000000000000.0" := by decide +kernel

end Groundwork.Decimal
