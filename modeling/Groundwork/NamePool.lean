set_option autoImplicit false

/- Names for resources that declare none: the resource's type, an underscore and a number.
Sequential naming takes the smallest number whose name is free, random naming a number between 10000
and 90000. -/
namespace Groundwork

inductive Naming where
  | random
  | sequential
deriving DecidableEq

def Naming.text : Naming → String
  | .random => "random"
  | .sequential => "sequential"

structure NamePool where
  naming : Naming
  taken : List String
  /-- The state of the random sequence. -/
  seed : Nat

namespace NamePool

def empty (naming : Naming) (seed : Nat) : NamePool := ⟨naming, [], seed⟩

def reserve (p : NamePool) (name : String) : NamePool :=
  if p.taken.contains name then p else { p with taken := name :: p.taken }

def nameOf (type : String) (k : Nat) : String := type ++ "_" ++ toString k

/-- The first number from `k` on whose name is not taken. As many tries as there are taken names, and
one more, are enough. -/
def firstFree (taken : List String) (type : String) : Nat → Nat → Nat
  | 0, k => k
  | fuel + 1, k =>
      if taken.contains (nameOf type k) then firstFree taken type fuel (k + 1) else k

def nextSeed (seed : Nat) : Nat := (seed * 6364136223846793005 + 1442695040888963407) %
    Nat.pow 2 64

def suffix (seed : Nat) : Nat := 10000 + seed / Nat.pow 2 16 % 80001

def number (p : NamePool) (type : String) : Nat :=
  match p.naming with
  | .sequential => firstFree p.taken type p.taken.length 1
  | .random => suffix (nextSeed p.seed)

/-- A new name for a resource of this type; from now on it is taken. -/
def fresh (p : NamePool) (type : String) : String × NamePool :=
  let name := nameOf type (p.number type)
  (name, { p.reserve name with seed := nextSeed p.seed })

end NamePool

end Groundwork
