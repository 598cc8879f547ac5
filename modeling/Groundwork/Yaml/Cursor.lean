import Groundwork.Yaml.Fault

set_option autoImplicit false

/- A place in a text together with what is left of it. Columns and indices count characters; a
carriage return and the line feed after it are one line break. -/
namespace Groundwork.Yaml

def isGap (c : Char) : Bool := c = ' ' || c = '\t'

def isLineSeparator (c : Char) : Bool := c = '\u2028' || c = '\u2029'

def isBreak (c : Char) : Bool :=
  c = '\n' || c = '\r' || c = '\u0085' || isLineSeparator c

def byteOrderMark : Char := '\uFEFF'

/-- Whether a text ends here or continues with a space, a tab or a line break. -/
def endsWord : List Char → Bool
  | [] => true
  | c :: _ => isGap c || isBreak c

/-- Characters of anchors and tag handles. -/
def isNameChar (c : Char) : Bool :=
  (c.toNat < 128 && c.isAlphanum) || c = '_' || c = '-'

def isAllowed (c : Char) : Bool :=
  let n := c.toNat
  n = 0x09 || n = 0x0A || n = 0x0D || (0x20 ≤ n && n ≤ 0x7E) || n = 0x85 ||
    (0xA0 ≤ n && n ≤ 0xD7FF) || (0xE000 ≤ n && n ≤ 0xFFFD) || 0x10000 ≤ n

structure Cursor where
  rest : List Char
  index : Nat
  line : Nat
  column : Nat

namespace Cursor

def start (text : List Char) : Cursor := ⟨text, 0, 0, 0⟩

def peek? (c : Cursor) : Option Char := c.rest.head?

/-- Moves over `n` characters, none of them a line break. -/
def skip (c : Cursor) (n : Nat) : Cursor :=
  { c with rest := c.rest.drop n, index := c.index + n, column := c.column + n }

def spanOf (c : Cursor) (p : Char → Bool) : List Char × Cursor :=
  let taken := c.rest.takeWhile p
  (taken, c.skip taken.length)

def skipWhile (c : Cursor) (p : Char → Bool) : Cursor := (c.spanOf p).2

/-- The normalised line break at the cursor and the start of the next line. -/
def lineBreak? (c : Cursor) : Option (Char × Cursor) :=
  match c.rest with
  | '\r' :: '\n' :: rest => some ('\n', ⟨rest, c.index + 2, c.line + 1, 0⟩)
  | ch :: rest =>
      if isBreak ch then
        some (if isLineSeparator ch then ch else '\n', ⟨rest, c.index + 1, c.line + 1, 0⟩)
      else none
  | [] => none

/-- A comment up to the end of its line. -/
def skipComment (c : Cursor) : Cursor :=
  if c.peek? = some '#' then c.skipWhile (!isBreak ·) else c

/-- Whether a line starts here with `---` or `...` standing alone. -/
def atMarker (c : Cursor) : Bool :=
  c.column = 0 &&
    match c.rest with
    | '-' :: '-' :: '-' :: rest => endsWord rest
    | '.' :: '.' :: '.' :: rest => endsWord rest
    | _ => false

end Cursor

end Groundwork.Yaml
