import Groundwork.Jinja.Builtin
import Groundwork.Jinja.Reader

set_option autoImplicit false

/- Rendering. Names are looked up from the innermost scope outward; a loop opens one scope for all
of its rounds, and an assignment stays in the scope it is made in. -/
namespace Groundwork.Jinja

structure Scope where
  locals : List (String × Value)
  /-- What the name `loop` stands for, unless it is assigned. -/
  loop : Option Value

namespace Scope

def get? (s : Scope) (name : String) : Option Value :=
  (s.locals.lookup name).orElse fun _ => if name = "loop" then s.loop else none

def set (s : Scope) (name : String) (v : Value) : Scope :=
  { s with locals := (name, v) :: s.locals.filter (·.1 ≠ name) }

def lookup (scopes : List Scope) (name : String) : Option Value := scopes.findSome? (·.get? name)

end Scope

/-- A step that fails on the line reached so far. -/
def onLine {α : Type} (line : Nat) (r : Except Problem α) : Except Fault α :=
  r.mapError fun p => .failed p line

namespace Expr

mutual

def eval (scopes : List Scope) : Expr → Except Fault Value
  | .literal v _ => .ok v
  | .var name _ => .ok ((Scope.lookup scopes name).getD .undefined)
  | .list items _ => (evalAll scopes items).map .list
  | .map entries _ => (evalEntries scopes entries).map .map
  | .attribute base name => do
      onLine (lastLine base) (attributeOf (← eval scopes base) name)
  | .item base index => do
      let v ← eval scopes base
      let i ← eval scopes index
      onLine (lastLine index) (itemOf v i)
  | .not e => return .bool (!(← eval scopes e).isTrue)
  | .negate e => do onLine (lastLine e) (Groundwork.Jinja.negate (← eval scopes e))
  | .both left right => do
      let v ← eval scopes left
      if v.isTrue then eval scopes right else return v
  | .either left right => do
      let v ← eval scopes left
      if v.isTrue then return v else eval scopes right
  | .binary op left right => do
      let a ← eval scopes left
      let b ← eval scopes right
      onLine (lastLine right) (op.apply a b)
  | .filter base name args => do
      let v ← eval scopes base
      let vs ← evalAll scopes args
      onLine (lastLineOf args (lastLine base)) (applyFilter name v vs)
  | .test base name args => do
      let v ← eval scopes base
      let vs ← evalAll scopes args
      onLine (lastLineOf args (lastLine base)) ((applyTest name v vs).map .bool)
  | .call name args line => do
      let vs ← evalAll scopes args
      onLine (lastLineOf args line) <|
        match Scope.lookup scopes name with
        | some v => .error (.notCallable v.kind)
        | none => callFunction name vs
  | .method base name args => do
      let v ← eval scopes base
      let _ ← evalAll scopes args
      throw (.failed (callMethod v name) (lastLineOf args (lastLine base)))

def evalAll (scopes : List Scope) : List Expr → Except Fault (List Value)
  | [] => .ok []
  | e :: rest => do
      let v ← eval scopes e
      let vs ← evalAll scopes rest
      return v :: vs

/-- A repeated key keeps its first place and takes its last value. -/
def evalEntries (scopes : List Scope) : List (Expr × Expr) → Except Fault (List (Value × Value))
  | [] => .ok []
  | (k, e) :: rest => do
      let key ← eval scopes k
      let v ← eval scopes e
      let more ← evalEntries scopes rest
      match more.find? (·.1.eqv key) with
      | some later => return (key, later.2) :: more.filter (!·.1.eqv key)
      | none => return (key, v) :: more

end

end Expr

structure Rendering where
  scopes : List Scope
  output : String

abbrev Render := StateT Rendering (Except Fault)

namespace Render

def write (s : String) : Render Unit := modify fun r => { r with output := r.output ++ s }

def evaluate (e : Expr) : Render Value := do e.eval (← get).scopes

def modifyScope (f : Scope → Scope) : Render Unit := modify fun r =>
  match r.scopes with
  | [] => r
  | s :: rest => { r with scopes := f s :: rest }

/-- Binds one name to a whole value, or several to its parts. -/
def bind (targets : List String) (v : Value) (line : Nat) : Render Unit :=
  match targets with
  | [name] => modifyScope (·.set name v)
  | names =>
    match v.parts? with
    | none => throw (.failed .notUnpackable line)
    | some parts =>
        if parts.length = names.length then
          (names.zip parts).forM fun p => modifyScope (·.set p.1 p.2)
        else throw (.failed (.wrongLength names.length parts.length) line)

/-- What a template can ask about the round it is in. No loop calls itself, so all have one depth. -/
def loopValue (index size : Nat) (previous next : Option Value) : Value :=
  .map [(.text "index", .int (index + 1)), (.text "index0", .int index),
    (.text "revindex", .int (size - index)), (.text "revindex0", .int (size - index - 1)),
    (.text "first", .bool (index = 0)), (.text "last", .bool (index + 1 = size)),
    (.text "length", .int size), (.text "depth", .int 1), (.text "depth0", .int 0),
    (.text "previtem", previous.getD .undefined), (.text "nextitem", next.getD .undefined)]

def rounds (targets : List String) (line size : Nat) (body : Render Unit) :
    Nat → Option Value → List Value → Render Unit
  | _, _, [] => return
  | index, previous, v :: rest => do
      modifyScope ({ · with loop := some (loopValue index size previous rest.head?) })
      bind targets v line
      body
      rounds targets line size body (index + 1) (some v) rest

/-- Runs `body` once per value in a scope of its own. -/
def loop (targets : List String) (line : Nat) (body : Render Unit) (vs : List Value) :
    Render Unit := do
  modify fun r => { r with scopes := ⟨[], none⟩ :: r.scopes }
  rounds targets line vs.length body 0 none vs
  modify fun r => { r with scopes := r.scopes.tail }

mutual

def node : Node → Render Unit
  | .text s => write s
  | .output e => do write (← evaluate e).printed
  | .choose condition yes no => do
      if (← evaluate condition).isTrue then all yes else all no
  | .each targets items body empty => do
      let v ← evaluate items
      match v.visits? with
      | none => throw (.failed (.cannotVisit v.kind) items.lastLine)
      | some [] => all empty
      | some vs => loop targets items.lastLine (all body) vs
  | .assign targets e => do bind targets (← evaluate e) e.lastLine

def all : List Node → Render Unit
  | [] => return
  | n :: rest => do
      node n
      all rest

end

end Render

/-- The text that a template gives in a context of named values. -/
def renderIn (context : List (String × Value)) (source : String) : Except Fault String := do
  let nodes ← Node.parse source
  let (_, r) ← (Render.all nodes).run ⟨[⟨context, none⟩], ""⟩
  return r.output

/-- Renders a template over configuration fields. -/
def render (fields : Fields) (source : String) : Except Fault String :=
  renderIn (fields.map fun e => (e.1, Value.ofConfig e.2)) source

end Groundwork.Jinja
