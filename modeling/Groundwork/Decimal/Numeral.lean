import Groundwork.Decimal.Binary64

set_option autoImplicit false

/- Decimal numerals `[+-] digits [. digits] [e [+-] digits]` and the number nearest to them. At
least one digit stands beside the point. -/
namespace Groundwork.Decimal

/-- The value `± digits · 10 ^ exponent`. -/
structure Numeral where
  negative : Bool
  digits : Nat
  exponent : Int
deriving DecidableEq

def digitValue (cs : List Char) : Nat :=
  cs.foldl (fun acc c => 10 * acc + (c.toNat - 48)) 0

namespace Numeral

def splitSign : List Char → Bool × List Char
  | '-' :: rest => (true, rest)
  | '+' :: rest => (false, rest)
  | cs => (false, cs)

def exponent? : List Char → Option Int
  | [] => some 0
  | c :: rest =>
      if c = 'e' ∨ c = 'E' then
        let (negative, digits) := splitSign rest
        if digits ≠ [] ∧ digits.all Char.isDigit then
          some (if negative then -(digitValue digits : Int) else digitValue digits)
        else none
      else none

def ofChars? (cs : List Char) : Option Numeral :=
  let (negative, body) := splitSign cs
  let whole := body.takeWhile Char.isDigit
  let afterWhole := body.dropWhile Char.isDigit
  let (fraction, tail) := match afterWhole with
    | '.' :: rest => (rest.takeWhile Char.isDigit, rest.dropWhile Char.isDigit)
    | rest => ([], rest)
  if whole = [] ∧ fraction = [] then none
  else (exponent? tail).map fun e =>
    ⟨negative, digitValue (whole ++ fraction), e - fraction.length⟩

def ofText? (s : String) : Option Numeral := ofChars? s.toList

/-- Magnitudes outside `10 ^ -400 … 10 ^ 400` round to zero or infinity whatever their digits. -/
def toBinary64 (n : Numeral) : Binary64 :=
  let magnitude := n.exponent + (Nat.toDigits 10 n.digits).length
  if n.digits = 0 ∨ magnitude < -400 then .zero n.negative
  else if 400 < magnitude then .infinity n.negative
  else .ofRatio n.negative (n.digits * Nat.pow 10 n.exponent.toNat)
    (Nat.pow 10 (-n.exponent).toNat)

example : (ofText? "1.5e3").map toBinary64 = some ⟨0x4097700000000000⟩ := by decide +kernel
example : ofText? "." = none := by decide +kernel
example : ofText? "5." = some ⟨false, 5, 0⟩ := by decide +kernel

end Numeral

end Groundwork.Decimal
