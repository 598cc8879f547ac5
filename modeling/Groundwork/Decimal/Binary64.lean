set_option autoImplicit false

/- Double-precision numbers as bit patterns. A finite pattern stands for `± significand · 2 ^
exponent`, and every finite value is a multiple of `2 ^ -1074`, so comparison and addition work on
integers. -/
namespace Groundwork.Decimal

structure Binary64 where
  bits : UInt64
deriving DecidableEq

namespace Binary64

def signUnit : Nat := Nat.pow 2 63

def fractionUnit : Nat := Nat.pow 2 52

def negative (x : Binary64) : Bool := signUnit ≤ x.bits.toNat

def exponentField (x : Binary64) : Nat := x.bits.toNat / fractionUnit % 2048

def fraction (x : Binary64) : Nat := x.bits.toNat % fractionUnit

def isFinite (x : Binary64) : Bool := x.exponentField ≠ 2047

def isNaN (x : Binary64) : Bool := x.exponentField = 2047 && x.fraction ≠ 0

def significand (x : Binary64) : Nat :=
  if x.exponentField = 0 then x.fraction else fractionUnit + x.fraction

/-- The exponent of the significand's last bit, raised by 1074. -/
def shift (x : Binary64) : Nat := x.exponentField - 1

/-- The value in units of `2 ^ -1074`. -/
def units (x : Binary64) : Int :=
  let magnitude := x.significand * Nat.pow 2 x.shift
  if x.negative then -(magnitude : Int) else magnitude

def unit : Nat := Nat.pow 2 1074

def ofMagnitude (negative : Bool) (magnitude : Nat) : Binary64 :=
  ⟨UInt64.ofNat (magnitude + if negative then signUnit else 0)⟩

def infinity (negative : Bool) : Binary64 := ofMagnitude negative (2047 * fractionUnit)

def nan : Binary64 := ofMagnitude false (2047 * fractionUnit + fractionUnit / 2)

def zero (negative : Bool) : Binary64 := ofMagnitude negative 0

/-- The quotient rounded to the nearest integer, a half to the even neighbour. -/
def roundDiv (num den : Nat) : Nat :=
  let q := num / den
  let r := num % den
  if 2 * r < den then q
  else if den < 2 * r then q + 1
  else q + q % 2

/-- The number nearest to `num / den`, a tie going to the even significand. -/
def ofRatio (negative : Bool) (num den : Nat) : Binary64 :=
  if num = 0 then zero negative
  else
    let scale := (num.log2 : Int) - den.log2 - 53
    let wide := num * Nat.pow 2 (-scale).toNat / (den * Nat.pow 2 scale.toNat)
    let exponent := max (if wide < Nat.pow 2 53 then scale else scale + 1) (-1074)
    let m := roundDiv (num * Nat.pow 2 (-exponent).toNat) (den * Nat.pow 2 exponent.toNat)
    let magnitude := (exponent + 1074).toNat * fractionUnit + m
    if magnitude < 2047 * fractionUnit then ofMagnitude negative magnitude else infinity negative

def ofInt (n : Int) : Binary64 := ofRatio (n < 0) n.natAbs 1

def neg (x : Binary64) : Binary64 := ⟨x.bits ^^^ UInt64.ofNat signUnit⟩

def isZero (x : Binary64) : Bool := x.significand = 0

/-- Sum of finite numbers. -/
def add (x y : Binary64) : Binary64 :=
  let sum := x.units + y.units
  ofRatio (if sum = 0 then x.negative && y.negative else sum < 0) sum.natAbs unit

/-- Equality by value: both zeros agree, and nothing equals a number without value. -/
def eqv (x y : Binary64) : Bool :=
  !x.isNaN && !y.isNaN &&
    if x.isFinite && y.isFinite then x.units = y.units else x.bits = y.bits

example : ofRatio false 1 10 = ⟨0x3FB999999999999A⟩ := by decide +kernel
example : ofRatio true 1 1 = ⟨0xBFF0000000000000⟩ := by decide +kernel
example : ofRatio false 1 unit = ⟨1⟩ := by decide +kernel
example : ofInt 9007199254740993 = ofInt 9007199254740992 := by decide +kernel

end Binary64

end Groundwork.Decimal
