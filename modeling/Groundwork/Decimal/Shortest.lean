import Groundwork.Decimal.Binary64

set_option autoImplicit false

/- The fewest decimal digits that read back as a given number. Reals that round to the number form
an interval; the two decimals of `n` digits around the number are its nearest ones on that grid, so
the shortest digits are found by trying `n = 1, 2, …, 17`. -/
namespace Groundwork.Decimal

/-- What is chosen when two decimals of one length are equally near. -/
inductive Tie where
  | even
  | up
deriving DecidableEq

/-- The decimal fraction `0.d₁d₂… · 10 ^ point`. -/
structure Digits where
  digits : List Nat
  point : Int
deriving DecidableEq

namespace Binary64

/-- Four times the significand and the ends of its rounding interval in the same unit. Below a power
of two the neighbour is only half as far. -/
def interval (x : Binary64) : Nat × Nat × Nat :=
  let m := x.significand
  let below := if x.fraction = 0 ∧ 1 < x.exponentField then 1 else 2
  (4 * m - below, 4 * m, 4 * m + 2)

/-- Numerator and denominator of a quarter of the significand's last bit. -/
def quarter (x : Binary64) : Nat × Nat :=
  let e : Int := (x.shift : Int) - 1076
  (Nat.pow 2 e.toNat, Nat.pow 2 (-e).toNat)

end Binary64

/-- The exponent `p` with `10 ^ (p - 1) ≤ num / den < 10 ^ p`, searched upward from `start`. -/
def pointFrom (num den : Nat) : Nat → Int → Int
  | 0, p => p
  | fuel + 1, p =>
      if num * Nat.pow 10 (-p).toNat < den * Nat.pow 10 p.toNat then p
      else pointFrom num den fuel (p + 1)

/-- The two integers around `num / den · 10 ^ places`, the lower one first, and which is nearer. -/
structure Neighbours where
  lower : Nat
  lowerFits : Bool
  upperFits : Bool
  nearer : Ordering

def neighbours (x : Binary64) (places : Int) : Neighbours :=
  let (low, mid, high) := x.interval
  let (num, den) := x.quarter
  let up := num * Nat.pow 10 places.toNat
  let down := den * Nat.pow 10 (-places).toNat
  let lower := mid * up / down
  let fits (n : Nat) : Bool :=
    if x.significand % 2 = 0 then low * up ≤ n * down && n * down ≤ high * up
    else low * up < n * down && n * down < high * up
  { lower
    lowerFits := fits lower
    upperFits := fits (lower + 1)
    nearer := compare (2 * (mid * up % down)) down }

def choose (tie : Tie) (n : Neighbours) : Option Nat :=
  match n.lowerFits, n.upperFits with
  | false, false => none
  | true, false => some n.lower
  | false, true => some (n.lower + 1)
  | true, true =>
    match n.nearer, tie with
    | .lt, _ => some n.lower
    | .gt, _ => some (n.lower + 1)
    | .eq, .up => some (n.lower + 1)
    | .eq, .even => some (n.lower + n.lower % 2)

def digitsOf (n : Nat) : List Nat := (Nat.toDigits 10 n).map (·.toNat - 48)

def dropTrailingZeros (ds : List Nat) : List Nat := (ds.reverse.dropWhile (· = 0)).reverse

def search (x : Binary64) (tie : Tie) (point : Int) : Nat → Nat → Digits
  | 0, length =>
      let n := (neighbours x (length - point)).lower
      ⟨dropTrailingZeros (digitsOf n), point⟩
  | fuel + 1, length =>
      match choose tie (neighbours x (length - point)) with
      | some n =>
          let ds := digitsOf n
          ⟨dropTrailingZeros ds, point + (ds.length - length)⟩
      | none => search x tie point fuel (length + 1)

/-- The shortest digits of a finite number's magnitude; zero is a single `0`. -/
def shortest (x : Binary64) (tie : Tie) : Digits :=
  if x.isZero then ⟨[0], 1⟩
  else
    let (_, mid, _) := x.interval
    let (num, den) := x.quarter
    let point := pointFrom (mid * num) den 640 (-330)
    search x tie point 17 1

example : shortest ⟨0x3FB999999999999A⟩ .even = ⟨[1], 0⟩ := by decide +kernel
example : shortest ⟨1⟩ .even = ⟨[5], -323⟩ := by decide +kernel
example : shortest ⟨0x4340000000000000⟩ .even = ⟨digitsOf 9007199254740992, 16⟩ := by
  decide +kernel

end Groundwork.Decimal
