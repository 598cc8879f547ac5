import Groundwork.Decimal.Style

set_option autoImplicit false

/- Numbers of a configuration: integers that fit 64 bits, signed or not, and finite doubles. The two
kinds never mix: `1` and `1.0` are different numbers with different text. -/
namespace Groundwork

open Decimal (Binary64 Style)

/-- The least signed integer of 64 bits. -/
def Whole.least : Int := -9223372036854775808

/-- The greatest unsigned integer of 64 bits. -/
def Whole.greatest : Int := 18446744073709551615

structure Whole where
  val : Int
  lower : Whole.least ≤ val := by decide
  upper : val ≤ Whole.greatest := by decide
deriving DecidableEq

def Whole.ofInt? (n : Int) : Option Whole :=
  if h : least ≤ n ∧ n ≤ greatest then some ⟨n, h.1, h.2⟩ else none

theorem Whole.ofInt?_val (n : Whole) : Whole.ofInt? n.val = some n :=
  dif_pos ⟨n.lower, n.upper⟩

inductive Number where
  | whole (n : Whole)
  | float (x : Binary64) (finite : x.isFinite = true)
deriving DecidableEq

namespace Number

def isZero : Number → Bool
  | .whole n => n.val = 0
  | .float x _ => x.isZero

def text (style : Style) : Number → String
  | .whole n => toString n.val
  | .float x _ => style.text x

def json (n : Number) : String := n.text .json

end Number

end Groundwork
