import Groundwork.Yaml.Fault
import Groundwork.Yaml.Lexeme

set_option autoImplicit false

/- From tokens to a tree with aliases still in place. Names are not resolved while the tree is read:
an alias holds the number its name has at that point, and a number stands for the node that was last
anchored under it. -/
namespace Groundwork.Yaml

inductive Node where
  | scalar (tag : Option String) (text : String) (style : ScalarStyle)
  | sequence (tag : Option String) (items : List Node)
  | mapping (tag : Option String) (entries : List (Node × Node))
  | alias (number : Nat)

/-- A node without any text. -/
def Node.empty : Node := .scalar none "" .plain

/-- A node, the number it was anchored under, and how many events began before it. -/
structure Anchored where
  number : Nat
  position : Nat
  node : Node

structure Reader where
  tokens : List Token
  handles : List (String × String)
  /-- The number of each anchor name met so far. -/
  names : List (String × Nat)
  anchored : List Anchored
  /-- How many nodes, ends of collections and aliases have been read. -/
  events : Nat

abbrev Read := StateT Reader (Except Fault)

namespace Read

def fail {α : Type} : Read α := throw .unexpectedToken

/-- Behind the last token the stream goes on ending. -/
def peek : Read Token := return (← get).tokens.head?.getD .streamEnd

def skip : Read Unit := modify fun r => { r with tokens := r.tokens.tail }

def accept (t : Token) : Read Bool := do
  if (← peek) = t then skip; return true else return false

def event : Read Unit := modify fun r => { r with events := r.events + 1 }

def emptyNode : Read Node := do
  event
  return .empty

/-- Gives a name its number: the count of names known before, also when the name is known. -/
def define (name : String) : Read Nat := do
  let r ← get
  let number := r.names.length
  set { r with names := (name, number) :: r.names.filter (·.1 ≠ name) }
  return number

def keep (number position : Nat) (node : Node) : Read Unit :=
  modify fun r => { r with anchored := ⟨number, position, node⟩ :: r.anchored }

structure Properties where
  anchor : Option String
  tag : Option (String × String)

def properties : Read Properties := do
  match ← peek with
  | .anchor name =>
      skip
      match ← peek with
      | .tag handle suffix => skip; return ⟨some name, some (handle, suffix)⟩
      | _ => return ⟨some name, none⟩
  | .tag handle suffix =>
      skip
      match ← peek with
      | .anchor name => skip; return ⟨some name, some (handle, suffix)⟩
      | _ => return ⟨none, some (handle, suffix)⟩
  | _ => return ⟨none, none⟩

def resolveTag : Option (String × String) → Read (Option String)
  | none => return none
  | some (handle, suffix) => do
      if handle = "" then return some suffix
      match (← get).handles.lookup handle with
      | some leader => return some (leader ++ suffix)
      | none => throw .badTag

/-- The tag `!` on a scalar only says that the scalar has no other tag. -/
def scalarNode (tag : Option String) (text : String) (style : ScalarStyle) : Node :=
  .scalar (if tag = some "!" then none else tag) text style

mutual

/-- One node. Block collections are read where `block` allows them, and entries without an own
indentation where `indentless` does. The bound counts the calls that may still be nested. -/
def node : Nat → Bool → Bool → Read Node
  | 0, _, _ => fail
  | fuel + 1, block, indentless => do
      match ← peek with
      | .alias name =>
          skip
          event
          match (← get).names.lookup name with
          | some number => return .alias number
          | none => throw (.unknownAlias name)
      | _ =>
          let p ← properties
          let tag ← resolveTag p.tag
          let position := (← get).events
          let number ← match p.anchor with
            | some name => some <$> define name
            | none => pure none
          event
          let result ← match ← peek with
            | .scalar text style => do skip; pure (scalarNode tag text style)
            | .flowSequenceStart => do
                skip
                pure (.sequence tag (← flowItems fuel true))
            | .flowMappingStart => do
                skip
                pure (.mapping tag (← flowEntries fuel true))
            | t =>
                if indentless && t = .blockEntry then
                  pure (.sequence tag (← indentlessItems fuel))
                else if block && t = .blockSequenceStart then do
                  skip
                  pure (.sequence tag (← blockItems fuel))
                else if block && t = .blockMappingStart then do
                  skip
                  pure (.mapping tag (← blockEntries fuel))
                else if p.anchor.isSome || p.tag.isSome then
                  pure (.scalar tag "" .plain)
                else fail
          match number with
          | some number => keep number position result
          | none => pure ()
          return result

def blockItems : Nat → Read (List Node)
  | 0 => fail
  | fuel + 1 => do
      if ← accept .blockEntry then
        let item ← match ← peek with
          | .blockEntry | .blockEnd => emptyNode
          | _ => node fuel true false
        return item :: (← blockItems fuel)
      else if ← accept .blockEnd then event; return []
      else fail

def indentlessItems : Nat → Read (List Node)
  | 0 => fail
  | fuel + 1 => do
      if ← accept .blockEntry then
        let item ← match ← peek with
          | .blockEntry | .key | .value | .blockEnd => emptyNode
          | _ => node fuel true false
        return item :: (← indentlessItems fuel)
      else event; return []

/-- A key or a value of a block mapping behind its indicator. -/
def blockPart : Nat → Read Node
  | 0 => fail
  | fuel + 1 => do
      match ← peek with
      | .key | .value | .blockEnd => emptyNode
      | _ => node fuel true true

def blockEntries : Nat → Read (List (Node × Node))
  | 0 => fail
  | fuel + 1 => do
      if ← accept .key then
        let key ← blockPart fuel
        let value ← if ← accept .value then blockPart fuel else emptyNode
        return (key, value) :: (← blockEntries fuel)
      else if ← accept .blockEnd then event; return []
      else fail

/-- A value of a flow collection, if its indicator stands here. -/
def flowValue : Nat → Token → Read Node
  | 0, _ => fail
  | fuel + 1, closing => do
      if ← accept .value then
        let t ← peek
        if t = .flowEntry || t = closing then emptyNode else node fuel false false
      else emptyNode

/-- A pair inside a flow sequence, behind its key token. An absent key takes the next token with
it. -/
def flowPair : Nat → Read Node
  | 0 => fail
  | fuel + 1 => do
      event
      let key ← match ← peek with
        | .value | .flowEntry | .flowSequenceEnd => do skip; emptyNode
        | _ => node fuel false false
      let value ← flowValue fuel .flowSequenceEnd
      event
      return .mapping none [(key, value)]

def flowItems : Nat → Bool → Read (List Node)
  | 0, _ => fail
  | fuel + 1, first => do
      if ← accept .flowSequenceEnd then event; return []
      if !first then
        if !(← accept .flowEntry) then fail
        if ← accept .flowSequenceEnd then event; return []
      let item ← if ← accept .key then flowPair fuel else node fuel false false
      return item :: (← flowItems fuel false)

def flowEntries : Nat → Bool → Read (List (Node × Node))
  | 0, _ => fail
  | fuel + 1, first => do
      if ← accept .flowMappingEnd then event; return []
      if !first then
        if !(← accept .flowEntry) then fail
        if ← accept .flowMappingEnd then event; return []
      let entry ← if ← accept .key then do
          let t ← peek
          let key ← if t = .value || t = .flowEntry || t = .flowMappingEnd then emptyNode
            else node fuel false false
          let value ← flowValue fuel .flowMappingEnd
          pure (key, value)
        else do
          let key ← node fuel false false
          pure (key, ← emptyNode)
      return entry :: (← flowEntries fuel false)

end

def directives : Nat → Bool → List (String × String) → Read (List (String × String))
  | 0, _, _ => fail
  | fuel + 1, versioned, handles => do
      match ← peek with
      | .versionDirective major minor =>
          if versioned || major ≠ 1 || (minor ≠ 1 && minor ≠ 2) then throw .badDirective
          skip
          directives fuel true handles
      | .tagDirective handle leader =>
          if (handles.lookup handle).isSome then throw .badDirective
          skip
          directives fuel versioned ((handle, leader) :: handles)
      | _ => return handles

def defaultHandles : List (String × String) := [("!", "!"), ("!!", "tag:yaml.org,2002:")]

/-- The content of a document behind its marker. -/
def content (fuel : Nat) : Read Node := do
  match ← peek with
  | .versionDirective .. | .tagDirective .. | .documentStart | .documentEnd | .streamEnd => emptyNode
  | _ => node fuel true false

def skipMarkers : Nat → Read Unit
  | 0 => return
  | fuel + 1 => do
      if ← accept .documentEnd then skipMarkers fuel

/-- The only document of a stream, or nothing if the stream is empty. -/
def document : Read (Option Node) := do
  let fuel := 4 * (← get).tokens.length + 8
  let root ← match ← peek with
    | .streamEnd => pure none
    | .versionDirective .. | .tagDirective .. | .documentStart => do
        let handles ← directives fuel false []
        modify fun r => { r with handles := handles ++ defaultHandles }
        if !(← accept .documentStart) then fail
        some <$> content fuel
    | _ => some <$> node fuel true false
  skipMarkers fuel
  match ← peek with
  | .streamEnd => return root
  | _ => throw .secondDocument

end Read

/-- A document's tree with what its aliases stand for. -/
structure Tree where
  root : Option Node
  anchored : List Anchored
  events : Nat

def Tree.ofTokens (tokens : List Token) : Except Fault Tree := do
  let (root, r) ← Read.document.run ⟨tokens, Read.defaultHandles, [], [], 0⟩
  return ⟨root, r.anchored, r.events⟩

/-- The node anchored last, in the order of the text, under a number. -/
def Tree.target? (tree : Tree) (number : Nat) : Option Node :=
  let candidates := tree.anchored.filter (·.number = number)
  (candidates.find? fun a => candidates.all (·.position ≤ a.position)).map (·.node)

end Groundwork.Yaml
