import Groundwork.Yaml.Lexeme

set_option autoImplicit false

/- From text to tokens. A key needs no indicator in front of it, so the place where a key may have
begun is remembered, and when a `:` follows on the same line a key token is put there afterwards.
Deeper lines open block collections and shallower ones close them. -/
namespace Groundwork.Yaml

/-- A token that a later `:` may turn into a key. -/
structure Candidate where
  /-- Whether the block mapping is broken if no `:` follows. -/
  required : Bool
  /-- The number of tokens before it. -/
  place : Nat
  index : Nat
  line : Nat
  column : Nat

/-- The state of a scan. There is one candidate slot per flow level, the innermost first, and the
indentation `-1` belongs to the stream itself. -/
structure Scan where
  cursor : Cursor
  tokens : Array Token
  flowLevel : Nat
  indent : Int
  outerIndents : List Int
  keyAllowed : Bool
  candidates : List (Option Candidate)

namespace Scan

def start (text : List Char) : Scan where
  cursor := .start text
  tokens := #[]
  flowLevel := 0
  indent := -1
  outerIndents := []
  keyAllowed := true
  candidates := [none]

def inFlow (s : Scan) : Bool := 0 < s.flowLevel

def push (s : Scan) (t : Token) : Scan := { s with tokens := s.tokens.push t }

def putAt (s : Scan) (place : Nat) (t : Token) : Scan :=
  { s with tokens := (s.tokens.toList.insertIdx place t).toArray }

/-- Closes every block collection indented deeper than `column`. -/
def closeBlocks (column : Int) : List Int → Scan → Scan
  | outer, s =>
      if s.inFlow || s.indent ≤ column then { s with outerIndents := outer }
      else match outer with
        | [] => { s with outerIndents := [], indent := -1 }.push .blockEnd
        | i :: rest => closeBlocks column rest ({ s with indent := i }.push .blockEnd)

def unroll (s : Scan) (column : Int) : Scan := s.closeBlocks column s.outerIndents

/-- Opens a block collection if `column` is deeper than the current one. -/
def roll (s : Scan) (column : Nat) (place : Nat) (opening : Token) : Scan :=
  if s.inFlow || (column : Int) ≤ s.indent then s
  else { s with indent := column, outerIndents := s.indent :: s.outerIndents }.putAt place opening

def candidate? (s : Scan) : Option Candidate := s.candidates.head?.join

def setCandidate (s : Scan) (c : Option Candidate) : Scan :=
  { s with candidates := c :: s.candidates.tail }

def dropCandidate (s : Scan) : Except Fault Scan :=
  match s.candidate? with
  | some c => if c.required then .error .keyWithoutValue else .ok (s.setCandidate none)
  | none => .ok s

def saveCandidate (s : Scan) : Except Fault Scan :=
  if s.keyAllowed then do
    let s ← s.dropCandidate
    let c := s.cursor
    let required := !s.inFlow && s.indent = (c.column : Int)
    return s.setCandidate (some ⟨required, s.tokens.size, c.index, c.line, c.column⟩)
  else .ok s

/-- A key lies on one line and has at most 1024 characters. -/
def liveCandidate (s : Scan) : Except Fault (Option Candidate) :=
  match s.candidate? with
  | none => .ok none
  | some c =>
      if c.line < s.cursor.line || c.index + 1024 < s.cursor.index then
        if c.required then .error .keyWithoutValue else .ok none
      else .ok (some c)

/-- An indicator of `n` characters. -/
def indicator (s : Scan) (n : Nat) (t : Token) : Scan :=
  { s with cursor := s.cursor.skip n }.push t

def marker (s : Scan) (t : Token) : Except Fault Scan := do
  let s ← (s.unroll (-1)).dropCandidate
  return { s with keyAllowed := false }.indicator 3 t

def flowStart (s : Scan) (t : Token) : Except Fault Scan := do
  let s ← s.saveCandidate
  let s := { s with
    candidates := none :: s.candidates, flowLevel := s.flowLevel + 1, keyAllowed := true }
  return s.indicator 1 t

def flowEnd (s : Scan) (t : Token) : Except Fault Scan := do
  let s ← s.dropCandidate
  let s := if s.inFlow then
      { s with candidates := s.candidates.tail, flowLevel := s.flowLevel - 1 }
    else s
  return { s with keyAllowed := false }.indicator 1 t

def flowEntry (s : Scan) : Except Fault Scan := do
  let s ← s.dropCandidate
  return { s with keyAllowed := true }.indicator 1 .flowEntry

def blockEntry (s : Scan) : Except Fault Scan := do
  if !s.inFlow && !s.keyAllowed then .error (.misplacedIndicator '-')
  let s := s.roll s.cursor.column s.tokens.size .blockSequenceStart
  let s ← s.dropCandidate
  return { s with keyAllowed := true }.indicator 1 .blockEntry

def explicitKey (s : Scan) : Except Fault Scan := do
  if !s.inFlow && !s.keyAllowed then .error (.misplacedIndicator '?')
  let s := s.roll s.cursor.column s.tokens.size .blockMappingStart
  let s ← s.dropCandidate
  return { s with keyAllowed := !s.inFlow }.indicator 1 .key

def valueIndicator (s : Scan) : Except Fault Scan := do
  match ← s.liveCandidate with
  | some c =>
      let s := (s.putAt c.place .key).roll c.column c.place .blockMappingStart
      return { s.setCandidate none with keyAllowed := false }.indicator 1 .value
  | none =>
      if !s.inFlow && !s.keyAllowed then .error (.misplacedIndicator ':')
      let s := (s.setCandidate none).roll s.cursor.column s.tokens.size .blockMappingStart
      return { s with keyAllowed := !s.inFlow }.indicator 1 .value

/-- A lexeme that may be a key. -/
def lexeme (s : Scan) (read : Cursor → Except Fault (Token × Cursor)) : Except Fault Scan := do
  let s ← s.saveCandidate
  let (t, c) ← read s.cursor
  return { s with keyAllowed := false, cursor := c }.push t

def block (s : Scan) (literal : Bool) : Except Fault Scan := do
  let s ← s.dropCandidate
  let (text, c) ← blockScalar literal s.indent s.cursor
  return { s with keyAllowed := true, cursor := c }.push (.scalar text .quoted)

def plain (s : Scan) : Except Fault Scan := do
  let s ← s.saveCandidate
  let (scalar, c) ← plainScalar s.inFlow (s.indent + 1) s.cursor
  return { s with keyAllowed := scalar.crossedLine, cursor := c }.push (.scalar scalar.text .plain)

/-- Characters that start no plain scalar, unless something other than a blank follows the first
three of them. A tab starts none either. -/
def reserved : List Char := "-?:,[]\x7b\x7d#&*!|>'\"%@\x60".toList

def startsPlain (inFlow : Bool) (c : Char) (rest : List Char) : Bool :=
  !(isGap c || reserved.contains c) ||
    (c = '-' && !rest.head?.any isGap) ||
    (!inFlow && (c = '?' || c = ':') && !endsWord rest)

/-- Blanks, comments and line breaks before a token. A tab counts as a blank only where no key can
begin, and a new line lets one begin again. A byte order mark at the start of a line takes up a
column. -/
def skipToToken : Nat → Scan → Scan
  | 0, s => s
  | fuel + 1, s =>
      let c := s.cursor
      let c := if c.column = 0 && c.peek? = some byteOrderMark then c.skip 1 else c
      let tabs := s.inFlow || !s.keyAllowed
      let c := (c.skipWhile fun ch => ch = ' ' || (tabs && ch = '\t')).skipComment
      match c.lineBreak? with
      | some (_, next) =>
          skipToToken fuel { s with cursor := next, keyAllowed := s.keyAllowed || !s.inFlow }
      | none => { s with cursor := c }

/-- Adds the tokens that stand at the cursor. -/
def step (s : Scan) : Except Fault Scan :=
  let c := s.cursor
  match c.rest with
  | [] => .ok s
  | ch :: rest =>
      if c.column = 0 && ch = '%' then do
        let s ← (s.unroll (-1)).dropCandidate
        let (t, c) ← directive s.cursor
        return { s with keyAllowed := false, cursor := c }.push t
      else if c.atMarker then s.marker (if ch = '-' then .documentStart else .documentEnd)
      else if ch = '[' then s.flowStart .flowSequenceStart
      else if ch = '\x7b' then s.flowStart .flowMappingStart
      else if ch = ']' then s.flowEnd .flowSequenceEnd
      else if ch = '\x7d' then s.flowEnd .flowMappingEnd
      else if ch = ',' then s.flowEntry
      else if ch = '-' && endsWord rest then s.blockEntry
      else if ch = '?' && (s.inFlow || endsWord rest) then s.explicitKey
      else if ch = ':' && (s.inFlow || endsWord rest) then s.valueIndicator
      else if ch = '*' then s.lexeme fun c => do
        let (name, c) ← anchorName c
        return (.alias name, c)
      else if ch = '&' then s.lexeme fun c => do
        let (name, c) ← anchorName c
        return (.anchor name, c)
      else if ch = '!' then s.lexeme fun c => do
        let (handle, suffix, c) ← tagParts s.inFlow c
        return (.tag handle suffix, c)
      else if ch = '|' && !s.inFlow then s.block true
      else if ch = '>' && !s.inFlow then s.block false
      else if ch = '\x27' then s.lexeme fun c => do
        let (text, c) ← quotedScalar .single c
        return (.scalar text .quoted, c)
      else if ch = '"' then s.lexeme fun c => do
        let (text, c) ← quotedScalar .double c
        return (.scalar text .quoted, c)
      else if startsPlain s.inFlow ch rest then s.plain
      else .error (.badStart ch)

def finish (s : Scan) : Except Fault (List Token) := do
  let s ← (s.unroll (-1)).dropCandidate
  return (s.push .streamEnd).tokens.toList

def run : Nat → Scan → Except Fault (List Token)
  | 0, s => s.finish
  | fuel + 1, s => do
      let s := skipToToken (s.cursor.rest.length + 1) s
      let s := s.unroll s.cursor.column
      if s.cursor.rest.isEmpty then s.finish else run fuel (← s.step)

end Scan

/-- The tokens of a text. Every step consumes a character, so its length bounds their number. -/
def tokens (text : String) : Except Fault (List Token) :=
  match text.toList.find? (!isAllowed ·) with
  | some c => .error (.forbiddenCharacter c)
  | none => (Scan.start text.toList).run (text.length + 1)

end Groundwork.Yaml
