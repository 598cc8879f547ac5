import Groundwork.Text.CodePoints
import Groundwork.Yaml.Cursor

set_option autoImplicit false

/- The lexemes of YAML that span several characters: scalars in their five styles, anchors, tags and
directives. Every function reads from a cursor and answers with the cursor behind what it read.
Loops over a scalar's lines take the length of the remaining text as their bound. -/
namespace Groundwork.Yaml

inductive ScalarStyle where
  | plain
  | quoted
deriving DecidableEq

/-- What the stream of a text consists of. Indentation has become tokens too: a block collection is
opened and closed like a flow collection, and a key has its own token whether it was marked or not. -/
inductive Token where
  | versionDirective (major minor : Nat)
  | tagDirective (handle leader : String)
  | documentStart
  | documentEnd
  | blockSequenceStart
  | blockMappingStart
  | blockEnd
  | flowSequenceStart
  | flowSequenceEnd
  | flowMappingStart
  | flowMappingEnd
  | blockEntry
  | flowEntry
  | key
  | value
  | alias (name : String)
  | anchor (name : String)
  | tag (handle suffix : String)
  | scalar (text : String) (style : ScalarStyle)
  | streamEnd
deriving DecidableEq

/-- White space inside a scalar: blanks on one line, or line breaks with the blanks around them. -/
structure Gap where
  blanks : List Char
  breaks : List Char
  escaped : Bool

namespace Gap

/-- A gap before any of it is read; an escaped line break has already ended the line. -/
def opening (escaped : Bool) : Gap := ⟨[], [], escaped⟩

def crossesLine (g : Gap) : Bool := g.escaped || !g.breaks.isEmpty

/-- A single line break is read as a space and the first of several is dropped, unless it is a
separator character, which stays. -/
def folded (g : Gap) : List Char :=
  if g.escaped then g.breaks
  else match g.breaks with
    | [] => g.blanks
    | ['\n'] => [' ']
    | '\n' :: more => more
    | breaks => breaks

/-- Reads on. Behind a line break a tab left of `margin` is refused. -/
def read (margin : Int) : Nat → Gap → Cursor → Except Fault (Gap × Cursor)
  | 0, g, c => .ok (g, c)
  | fuel + 1, g, c =>
      match c.peek? with
      | none => .ok (g, c)
      | some ch =>
        if isGap ch then
          if g.crossesLine then
            if ch = '\t' ∧ (c.column : Int) < margin then .error .tabAsIndentation
            else read margin fuel g (c.skip 1)
          else read margin fuel { g with blanks := g.blanks ++ [ch] } (c.skip 1)
        else match c.lineBreak? with
          | some (b, next) => read margin fuel { g with breaks := g.breaks ++ [b] } next
          | none => .ok (g, c)

end Gap

def flowIndicators : List Char := [',', '[', ']', '{', '}']

def isFlowIndicator (c : Char) : Bool := flowIndicators.contains c

/-- The characters of a plain scalar up to the next blank or the indicator that ends it. -/
def plainWord (inFlow : Bool) : List Char → Except Fault (List Char)
  | [] => .ok []
  | c :: rest =>
      if isGap c || isBreak c then .ok []
      else if inFlow && c = ':' && rest.head?.any (fun d => d = '?' || isFlowIndicator d) then
        .error (.misplacedIndicator ':')
      else if c = ':' && endsWord rest then .ok []
      else if inFlow && isFlowIndicator c then .ok []
      else (plainWord inFlow rest).map (c :: ·)

structure PlainScalar where
  text : String
  /-- Whether the cursor stands on a later line than the scalar's last character. -/
  crossedLine : Bool

def plainLoop (inFlow : Bool) (margin : Int) :
    Nat → String → Gap → Cursor → Except Fault (PlainScalar × Cursor)
  | 0, text, gap, c => .ok (⟨text, gap.crossesLine⟩, c)
  | fuel + 1, text, gap, c => do
      if c.atMarker || c.peek? = some '#' then return (⟨text, gap.crossesLine⟩, c)
      let word ← plainWord inFlow c.rest
      let c := c.skip word.length
      let (text, gap) :=
        if word.isEmpty then (text, gap)
        else (text ++ String.ofList (gap.folded ++ word), Gap.opening false)
      if !(c.peek?.any fun ch => isGap ch || isBreak ch) then
        return (⟨text, gap.crossesLine⟩, c)
      let (gap, c) ← gap.read margin c.rest.length c
      if !inFlow && (c.column : Int) < margin then return (⟨text, gap.crossesLine⟩, c)
      plainLoop inFlow margin fuel text gap c

def plainScalar (inFlow : Bool) (margin : Int) (c : Cursor) :
    Except Fault (PlainScalar × Cursor) :=
  plainLoop inFlow margin (c.rest.length + 1) "" (Gap.opening false) c

inductive QuoteStyle where
  | single
  | double
deriving DecidableEq

def QuoteStyle.mark : QuoteStyle → Char
  | .single => '\x27'
  | .double => '"'

def isHexDigit (c : Char) : Bool := c.isDigit || ('a' ≤ c && c ≤ 'f') || ('A' ≤ c && c ≤ 'F')

def simpleEscapes : List (Char × Char) :=
  [('0', '\x00'), ('a', '\x07'), ('b', '\x08'), ('t', '\t'), ('\t', '\t'), ('n', '\n'),
    ('v', '\x0b'), ('f', '\x0c'), ('r', '\r'), ('e', '\x1b'), (' ', ' '), ('"', '"'), ('/', '/'),
    ('\\', '\\'), ('N', '\u0085'), ('_', '\u00A0'), ('L', '\u2028'), ('P', '\u2029')]

def escapeLength? : Char → Option Nat
  | 'x' => some 2
  | 'u' => some 4
  | 'U' => some 8
  | _ => none

/-- The character written after a backslash, and how many characters wrote it. -/
def escapedChar? : List Char → Option (Char × Nat)
  | [] => none
  | c :: rest =>
      match escapeLength? c with
      | some n =>
          let digits := rest.take n
          let code := Text.hexValue digits
          if digits.length = n ∧ digits.all isHexDigit ∧ code.isValidChar then
            some (Char.ofNat code, n + 1)
          else none
      | none => (simpleEscapes.lookup c).map (·, 1)

/-- The characters up to a blank, a line break or the closing quote, and whether they end with an
escaped line break, which is behind the cursor then. -/
def quotedRun (style : QuoteStyle) :
    Nat → List Char → Cursor → Except Fault (List Char × Bool × Cursor)
  | 0, run, c => .ok (run.reverse, false, c)
  | fuel + 1, run, c =>
      if endsWord c.rest then .ok (run.reverse, false, c)
      else match style, c.rest with
        | .single, '\x27' :: '\x27' :: _ => quotedRun style fuel ('\x27' :: run) (c.skip 2)
        | .double, '\\' :: rest =>
            match (c.skip 1).lineBreak? with
            | some (_, next) => .ok (run.reverse, true, next)
            | none =>
              match escapedChar? rest with
              | some (ch, n) => quotedRun style fuel (ch :: run) (c.skip (n + 1))
              | none => .error .badEscape
        | _, ch :: _ =>
            if ch = style.mark then .ok (run.reverse, false, c)
            else quotedRun style fuel (ch :: run) (c.skip 1)
        | _, [] => .ok (run.reverse, false, c)

def quotedLoop (style : QuoteStyle) : Nat → String → Cursor → Except Fault (String × Cursor)
  | 0, _, _ => .error .unclosedQuote
  | fuel + 1, text, c => do
      if c.atMarker then .error .markerInQuote
      if c.rest.isEmpty then .error .unclosedQuote
      let (run, escapedBreak, c) ← quotedRun style c.rest.length [] c
      let text := text ++ String.ofList run
      if c.peek? = some style.mark then return (text, c.skip 1)
      let (gap, c) ← (Gap.opening escapedBreak).read 0 c.rest.length c
      quotedLoop style fuel (text ++ String.ofList gap.folded) c

/-- A scalar whose opening quote stands at the cursor. -/
def quotedScalar (style : QuoteStyle) (c : Cursor) : Except Fault (String × Cursor) :=
  quotedLoop style (c.rest.length + 1) "" (c.skip 1)

inductive Chomping where
  | strip
  | clip
  | keep
deriving DecidableEq

structure BlockHeader where
  chomping : Chomping
  /-- Indentation relative to the parent, if it is given. -/
  indentation : Option Nat

def chompingOf? : Char → Option Chomping
  | '+' => some .keep
  | '-' => some .strip
  | _ => none

def blockIndent? (c : Cursor) : Except Fault (Option Nat × Cursor) :=
  match c.peek? with
  | some d =>
      if d = '0' then .error .badBlockHeader
      else if d.isDigit then .ok (some (d.toNat - 48), c.skip 1)
      else .ok (none, c)
  | none => .ok (none, c)

def blockHeader (c : Cursor) : Except Fault (BlockHeader × Cursor) := do
  let (header, c) ← match c.peek?.bind chompingOf? with
    | some chomping => do
        let (indentation, c) ← blockIndent? (c.skip 1)
        pure (BlockHeader.mk chomping indentation, c)
    | none => do
        let (indentation, c) ← blockIndent? c
        match indentation, c.peek?.bind chompingOf? with
        | some _, some chomping => pure (BlockHeader.mk chomping indentation, c.skip 1)
        | _, _ => pure (BlockHeader.mk .clip indentation, c)
  let c := (c.skipWhile isGap).skipComment
  match c.lineBreak? with
  | some (_, next) => return (header, next)
  | none => if c.rest.isEmpty then return (header, c) else .error .badBlockHeader

/-- Blank lines of a block scalar, up to its next line of text. With `indent` zero, the indentation
is still to be found, and `widest` is the widest one met so far. -/
def blockBreaks (indent : Nat) :
    Nat → List Char → Nat → Cursor → Except Fault (List Char × Nat × Cursor)
  | 0, breaks, widest, c => .ok (breaks, widest, c)
  | fuel + 1, breaks, widest, c =>
      let available := (c.rest.takeWhile (· = ' ')).length
      let c := c.skip (if indent = 0 then available else min available (indent - c.column))
      let widest := max widest c.column
      if (indent = 0 || c.column < indent) && c.peek? = some '\t' then .error .tabAsIndentation
      else match c.lineBreak? with
        | some (b, next) => blockBreaks indent fuel (breaks ++ [b]) widest next
        | none => .ok (breaks, widest, c)

structure BlockState where
  text : String
  leadingBreak : List Char
  trailingBreaks : List Char
  leadingBlank : Bool

def blockLoop (literal : Bool) (indent : Nat) :
    Nat → BlockState → Cursor → Except Fault (BlockState × Cursor)
  | 0, s, c => .ok (s, c)
  | fuel + 1, s, c => do
      if c.column ≠ indent || c.rest.isEmpty then return (s, c)
      let blankHere := c.peek?.any isGap
      let joint :=
        if !literal && s.leadingBreak = ['\n'] && !s.leadingBlank && !blankHere then
          if s.trailingBreaks.isEmpty then [' '] else []
        else s.leadingBreak
      let (line, c) := c.spanOf (!isBreak ·)
      let text := s.text ++ String.ofList (joint ++ s.trailingBreaks ++ line)
      let (leadingBreak, c) := match c.lineBreak? with
        | some (b, next) => ([b], next)
        | none => ([], c)
      let (trailingBreaks, _, c) ← blockBreaks indent (c.rest.length + 1) [] 0 c
      blockLoop literal indent fuel ⟨text, leadingBreak, trailingBreaks, blankHere⟩ c

/-- A block scalar behind its `|` or `>`, inside a collection indented by `parent`. -/
def blockScalar (literal : Bool) (parent : Int) (c : Cursor) : Except Fault (String × Cursor) := do
  let (header, c) ← blockHeader (c.skip 1)
  let given := match header.indentation with
    | some n => if 0 ≤ parent then parent.toNat + n else n
    | none => 0
  let (breaks, widest, c) ← blockBreaks given (c.rest.length + 1) [] 0 c
  let indent := if given = 0 then max (max widest (parent + 1).toNat) 1 else given
  let (s, c) ← blockLoop literal indent (c.rest.length + 1) ⟨"", [], breaks, false⟩ c
  let tail := match header.chomping with
    | .strip => []
    | .clip => s.leadingBreak
    | .keep => s.leadingBreak ++ s.trailingBreaks
  return (s.text ++ String.ofList tail, c)

/-- The name behind `&` or `*`. -/
def anchorName (c : Cursor) : Except Fault (String × Cursor) :=
  let (name, c) := (c.skip 1).spanOf isNameChar
  let ends := endsWord c.rest ||
    c.peek?.any fun ch => ['?', ':', ',', ']', '}', '%', '@', '\x60'].contains ch
  if name.isEmpty || !ends then .error .badAnchor else .ok (String.ofList name, c)

def isUriChar (verbatim : Bool) (c : Char) : Bool :=
  isNameChar c || (";/?:@&=+$.!~*'()%".toList.contains c) ||
    (verbatim && [',', '[', ']'].contains c)

/-- Resolves `%XX` escapes of a tag. -/
def unescapeUri (cs : List Char) : Option (List UInt8) :=
  match cs with
  | [] => some []
  | '%' :: a :: b :: rest =>
      if isHexDigit a && isHexDigit b then
        (unescapeUri rest).map (UInt8.ofNat (Text.hexValue [a, b]) :: ·)
      else none
  | c :: rest =>
      if c = '%' then none
      else (unescapeUri rest).map ((String.singleton c).toUTF8.toList ++ ·)

def uriText (cs : List Char) : Except Fault String :=
  match (unescapeUri cs).bind fun bytes => String.fromUTF8? ⟨bytes.toArray⟩ with
  | some s => .ok s
  | none => .error .badTag

/-- A tag's handle and suffix. The tag `!` has an empty handle, and so has `!<…>`. -/
def tagParts (inFlow : Bool) (c : Cursor) : Except Fault (String × String × Cursor) := do
  let (handle, suffix, c) ← match c.rest with
    | '!' :: '<' :: _ => do
        let (uri, c) := (c.skip 2).spanOf (isUriChar true)
        if uri.isEmpty || c.peek? ≠ some '>' then .error .badTag
        pure ("", ← uriText uri, c.skip 1)
    | _ => do
        let (name, afterName) := (c.skip 1).spanOf isNameChar
        if afterName.peek? = some '!' then
          let (uri, c) := (afterName.skip 1).spanOf (isUriChar false)
          if uri.isEmpty then .error .badTag
          pure ("!" ++ String.ofList name ++ "!", ← uriText uri, c)
        else
          let (uri, c) := afterName.spanOf (isUriChar false)
          let suffix ← uriText uri
          let suffix := String.ofList name ++ suffix
          if suffix = "" then pure ("", "!", c) else pure ("!", suffix, c)
  if endsWord c.rest || (inFlow && c.peek? = some ',') then return (handle, suffix, c)
  else .error .badTag

def directiveNumber (c : Cursor) : Except Fault (Nat × Cursor) :=
  let (digits, c) := c.spanOf Char.isDigit
  if digits.isEmpty || 9 < digits.length then .error .badDirective
  else .ok (digits.foldl (fun acc d => 10 * acc + (d.toNat - 48)) 0, c)

def directiveHandle (c : Cursor) : Except Fault (String × Cursor) :=
  if c.peek? ≠ some '!' then .error .badDirective
  else
    let (name, c) := (c.skip 1).spanOf isNameChar
    if c.peek? = some '!' then .ok ("!" ++ String.ofList name ++ "!", c.skip 1)
    else if name.isEmpty then .ok ("!", c)
    else .error .badDirective

/-- The directive at the cursor with the rest of its line. -/
def directive (c : Cursor) : Except Fault (Token × Cursor) := do
  let (name, c) := (c.skip 1).spanOf isNameChar
  if !endsWord c.rest then .error .badDirective
  let (token, c) ← match String.ofList name with
    | "YAML" => do
        let (major, c) ← directiveNumber (c.skipWhile isGap)
        if c.peek? ≠ some '.' then .error .badDirective
        let (minor, c) ← directiveNumber (c.skip 1)
        pure (Token.versionDirective major minor, c)
    | "TAG" => do
        let (handle, c) ← directiveHandle (c.skipWhile isGap)
        if !c.peek?.any isGap then .error .badDirective
        let (uri, c) := (c.skipWhile isGap).spanOf (isUriChar true)
        if uri.isEmpty || !endsWord c.rest then .error .badDirective
        pure (Token.tagDirective handle (← uriText uri), c)
    | _ => .error .badDirective
  let c := (c.skipWhile isGap).skipComment
  match c.lineBreak? with
  | some (_, next) => return (token, next)
  | none => if c.rest.isEmpty then return (token, c) else .error .badDirective

end Groundwork.Yaml
