import Groundwork.Yaml.Cursor
import Groundwork.Yaml.Scalar

set_option autoImplicit false

/- How a scalar is spelled when it is written. A string that reads as something else is quoted; a
string with line breaks is written as a block of lines; where a spelling cannot hold the text, the
next more explicit one is taken, and double quotes hold everything. -/
namespace Groundwork.Yaml

inductive Spelling where
  | plain
  | single
  | double
  | literal
deriving DecidableEq

/-- Whether a character is written as it is. -/
def isPrintable (c : Char) : Bool :=
  let n := c.toNat
  n = 0x0A || (0x20 ≤ n && n ≤ 0x7E) || (0xA0 ≤ n && n ≤ 0xD7FF) ||
    (0xE000 ≤ n && n ≤ 0xFFFD && n ≠ 0xFEFF) || 0x10000 ≤ n

def leadingIndicators : List Char := "#,[]\x7b\x7d&*!|>'\"%@\x60".toList

/-- Whether an indicator stands where it would end or open something, after the character before. -/
def innerIndicator : Char → List Char → Bool
  | _, [] => false
  | before, c :: rest =>
      (c = ':' && endsWord rest) || (c = '#' && endsWord [before]) || innerIndicator c rest

def startsIndicator : List Char → Bool
  | [] => false
  | c :: rest =>
      leadingIndicators.contains c || (['?', ':', '-'].contains c && endsWord rest) ||
        innerIndicator c rest

def hasIndicator (cs : List Char) : Bool :=
  ['-', '-', '-'].isPrefixOf cs || ['.', '.', '.'].isPrefixOf cs || startsIndicator cs

/-- Whether somewhere a character with `p` is followed by one with `q`. -/
def hasPair (p q : Char → Bool) : List Char → Bool
  | c :: d :: rest => (p c && q d) || hasPair p q (d :: rest)
  | _ => false

namespace Spelling

def isSpace (c : Char) : Bool := c = ' '

def isMultiline (cs : List Char) : Bool := cs.any isBreak

/-- Whether the text loses something unless every character can be escaped. -/
def needsEscapes (cs : List Char) : Bool := cs.any (!isPrintable ·) || hasPair isSpace isBreak cs

def allowsSingle (cs : List Char) : Bool := !needsEscapes cs && !hasPair isBreak isSpace cs

def allowsLiteral (cs : List Char) : Bool := !needsEscapes cs && !cs.getLast?.any isSpace

def allowsPlain (cs : List Char) : Bool :=
  allowsSingle cs && !isMultiline cs && !hasIndicator cs &&
    !cs.head?.any isSpace && !cs.getLast?.any isSpace

/-- Whether a plain scalar of this text would be read as something else, or look like a number. -/
def isAmbiguous (s : String) : Bool :=
  match Scalar.plain s with
  | .ok (.string _) => Scalar.isZeroPadded s.toList
  | _ => true

def wanted (s : String) : Spelling :=
  if s.toList.contains '\n' then .literal else if isAmbiguous s then .single else .plain

/-- The spelling of a string; a key on one line with its value has no lines of its own. -/
def ofString (simpleKey : Bool) (s : String) : Spelling :=
  let cs := s.toList
  let orDouble (allowed : Bool) (spelling : Spelling) : Spelling :=
    if allowed then spelling else .double
  if simpleKey && isMultiline cs then .double
  else match wanted s with
    | .literal => orDouble (allowsLiteral cs && !simpleKey) .literal
    | .plain => if allowsPlain cs then .plain else orDouble (allowsSingle cs) .single
    | _ => orDouble (allowsSingle cs) .single

end Spelling

end Groundwork.Yaml
