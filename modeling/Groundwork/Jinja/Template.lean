import Groundwork.Jinja.Fault

set_option autoImplicit false

/- Templates as trees. An expression knows the lines of its leaves; when evaluating it fails, the
line reported is the one of the last leaf that was reached in the order of the text. -/
namespace Groundwork.Jinja

inductive Comparison where
  | eq | ne | lt | le | gt | ge
deriving DecidableEq

inductive BinaryOp where
  | compare (c : Comparison)
  | contains
  | add
  | concat
deriving DecidableEq

inductive Expr where
  | literal (v : Value) (line : Nat)
  | var (name : String) (line : Nat)
  | list (items : List Expr) (line : Nat)
  | map (entries : List (Expr × Expr)) (line : Nat)
  | attribute (base : Expr) (name : String)
  | item (base index : Expr)
  | not (e : Expr)
  | negate (e : Expr)
  | both (left right : Expr)
  | either (left right : Expr)
  | binary (op : BinaryOp) (left right : Expr)
  | filter (base : Expr) (name : String) (args : List Expr)
  | test (base : Expr) (name : String) (args : List Expr)
  | call (name : String) (args : List Expr) (line : Nat)
  | method (base : Expr) (name : String) (args : List Expr)

namespace Expr

mutual

def isConstant : Expr → Bool
  | .literal .. => true
  | .list items _ => areConstant items
  | .map entries _ => areConstantEntries entries
  | _ => false

def areConstant : List Expr → Bool
  | [] => true
  | e :: rest => isConstant e && areConstant rest

def areConstantEntries : List (Expr × Expr) → Bool
  | [] => true
  | (k, v) :: rest => isConstant k && isConstant v && areConstantEntries rest

end

mutual

/-- The line an expression is on once all of it has been evaluated. -/
def lastLine : Expr → Nat
  | .literal _ line => line
  | .var _ line => line
  | .list items line => if areConstant items then line else lastLineOf items line
  | .map entries line =>
      if areConstantEntries entries then line else lastLineOfEntries entries line
  | .attribute base _ => lastLine base
  | .item _ index => lastLine index
  | .not e => lastLine e
  | .negate e => lastLine e
  | .both _ right => lastLine right
  | .either _ right => lastLine right
  | .binary _ _ right => lastLine right
  | .filter base _ args => lastLineOf args (lastLine base)
  | .test base _ args => lastLineOf args (lastLine base)
  | .call _ args line => lastLineOf args line
  | .method base _ args => lastLineOf args (lastLine base)

def lastLineOf : List Expr → Nat → Nat
  | [], line => line
  | e :: rest, _ => lastLineOf rest (lastLine e)

def lastLineOfEntries : List (Expr × Expr) → Nat → Nat
  | [], line => line
  | (_, v) :: rest, _ => lastLineOfEntries rest (lastLine v)

end

end Expr

inductive Node where
  | text (s : String)
  | output (e : Expr)
  | choose (condition : Expr) (yes no : List Node)
  | each (targets : List String) (items : Expr) (body empty : List Node)
  | assign (targets : List String) (e : Expr)

end Groundwork.Jinja
