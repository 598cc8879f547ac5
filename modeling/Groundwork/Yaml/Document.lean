import Groundwork.Yaml.Node
import Groundwork.Yaml.Scalar
import Groundwork.Yaml.Scan

set_option autoImplicit false

/- From a document's tree to its data: aliases become copies of what they stand for, plain scalars
are resolved, and repeated keys are refused. Collections nest at most 128 deep, and aliases are
followed at most a hundred times per node of the text, so no document grows beyond bounds. -/
namespace Groundwork.Yaml

def depthLimit : Nat := 128

structure Follow where
  tree : Tree
  /-- Aliases that may still be followed. -/
  left : Nat

abbrev Build := StateT Follow (Except Fault)

namespace Build

/-- The node itself, or the one its alias stands for. -/
def follow : Node → Build Node
  | .alias number => do
      let f ← get
      if f.left = 0 then throw .tooManyAliases
      set { f with left := f.left - 1 }
      match f.tree.target? number with
      | some node => return node
      | none => throw (.unknownAlias "")
  | node => return node

/-- The name of a local tag, without its mark or marks. A lone mark is a name of its own. -/
def localName? (tag : Option String) : Option String :=
  tag.bind fun t =>
    match t.toList with
    | ['!'] => some "!"
    | '!' :: '!' :: c :: name => some (String.ofList (c :: name))
    | '!' :: name => some (String.ofList name)
    | _ => none

def mark (tag : Option String) (d : Datum) : Datum :=
  match localName? tag with
  | some name => .tagged name d
  | none => d

def scalar (tag : Option String) (text : String) (style : ScalarStyle) : Except Fault Datum :=
  match tag, localName? tag, style with
  | none, _, .plain => Scalar.plain text
  | some _, some name, .plain => (Scalar.plain text).map (.tagged name)
  | some _, some name, .quoted => .ok (.tagged name (.string text))
  | some t, none, _ => Scalar.underTag t text
  | none, _, .quoted => .ok (.string text)

/-- The data of a node that may hold `depth` levels of collections. -/
def datum (depth : Nat) (node : Node) : Build Datum := do
  match depth, ← follow node with
  | _, .scalar tag text style => scalar tag text style
  | d + 1, .sequence tag items => return mark tag (.sequence (← items.mapM (datum d)))
  | d + 1, .mapping tag entries => do
      let entries ← entries.mapM fun e => do
        let key ← datum d e.1
        let value ← datum d e.2
        return (key, value)
      if Datum.distinctKeys entries then return mark tag (.mapping entries)
      else throw .duplicateKey
  | 0, _ => throw .tooDeep
  | _, .alias _ => throw .tooManyAliases
termination_by structural depth

end Build

/-- The data of the only document of `text`; nothing at all is null. -/
def load (text : String) : Except Fault Datum := do
  let tree ← Tree.ofTokens (← tokens text)
  match tree.root with
  | none => return .null
  | some root => (Build.datum depthLimit root).run' ⟨tree, 100 * tree.events⟩

end Groundwork.Yaml
