import Groundwork.Text.CodePoints
import Groundwork.Yaml.Style

set_option autoImplicit false

/- Writing YAML data in block layout. Every collection opens on a new line two columns deeper,
except that the items of a list under a key stand at the key's own column, and that a collection
behind a dash or an explicit key's colon begins on the same line. -/
namespace Groundwork.Yaml

/-- What has been written. -/
structure Pen where
  text : String
  column : Nat
  /-- Whether the last thing written separates what comes next from what was before. -/
  spaced : Bool
  /-- Whether only indentation and dashes stand on the line. -/
  indenting : Bool

namespace Pen

def start : Pen := ⟨"", 0, true, true⟩

def put (p : Pen) (s : String) : Pen :=
  { p with text := p.text ++ s, column := p.column + s.length }

def lineBreak (p : Pen) : Pen := { p with text := p.text.push '\n', column := 0 }

def pad (p : Pen) (column : Nat) : Pen :=
  p.put (String.ofList (List.replicate (column - p.column) ' '))

/-- Moves to a column, on a new line unless the pen stands before it on an empty one. -/
def indent (p : Pen) (column : Nat) : Pen :=
  let p := if !p.indenting || column < p.column || (p.column = column && !p.spaced)
    then p.lineBreak else p
  { p.pad column with spaced := true, indenting := true }

/-- Writes a mark behind a space; `continues` marks leave the line as empty as it was. -/
def mark (p : Pen) (s : String) (continues : Bool) : Pen :=
  let p := if p.spaced then p else p.put " "
  { p.put s with spaced := false, indenting := p.indenting && continues }

/-- Writes text right behind the last one. -/
def close (p : Pen) (s : String) : Pen := { p.put s with spaced := false, indenting := false }

def plain (p : Pen) (s : String) : Pen :=
  let p := if p.spaced then p else p.put " "
  { p.put s with spaced := false, indenting := false }

/-- Characters between single quotes; `broken` says that a line break was written last. -/
def singleChars (column : Nat) : Bool → List Char → Pen → Pen
  | broken, [], p => if broken then p.indent column else p
  | broken, c :: rest, p =>
      if isBreak c then
        let p := if !broken && c = '\n' then p.lineBreak else p
        let p := { p.put (String.singleton c) with column := 0, indenting := true }
        singleChars column true rest p
      else if c = ' ' then singleChars column broken rest (p.put " ")
      else
        let p := if broken then p.indent column else p
        let p := p.put (if c = '\x27' then "\x27\x27" else String.singleton c)
        singleChars column false rest { p with indenting := false }

def single (p : Pen) (column : Nat) (s : String) : Pen :=
  (singleChars column false s.toList (p.mark "\x27" false)).close "\x27"

def namedEscapes : List (Char × Char) :=
  [('\x00', '0'), ('\x07', 'a'), ('\x08', 'b'), ('\t', 't'), ('\n', 'n'), ('\x0b', 'v'),
    ('\x0c', 'f'), ('\r', 'r'), ('\x1b', 'e'), ('"', '"'), ('\\', '\\'), ('\u0085', 'N'),
    ('\u2028', 'L'), ('\u2029', 'P')]

def hexEscape (kind : Char) (width n : Nat) : List Char :=
  let ds := (Nat.toDigits 16 n).map Char.toUpper
  ['\\', kind] ++ List.replicate (width - ds.length) '0' ++ ds

def doubleChar (c : Char) : List Char :=
  match namedEscapes.lookup c with
  | some name => ['\\', name]
  | none =>
      let n := c.toNat
      if isPrintable c then [c]
      else if n ≤ 0xFF then hexEscape 'x' 2 n
      else if n ≤ 0xFFFF then hexEscape 'u' 4 n
      else hexEscape 'U' 8 n

def double (p : Pen) (s : String) : Pen :=
  ((p.mark "\"" false).put (String.ofList (s.toList.flatMap doubleChar))).close "\""

/-- An indentation mark where the first line starts with a blank, and `-` or `+` where the text does
not end with exactly one line break. -/
def literalHeader (cs : List Char) : String :=
  let width := if cs.head?.any fun c => c = ' ' || isBreak c then "2" else ""
  let ending := match cs.reverse with
    | [] => "-"
    | last :: before =>
        if !isBreak last then "-"
        else match before with
          | [] => "+"
          | c :: _ => if isBreak c then "+" else ""
  width ++ ending

def literalChars (column : Nat) : Bool → List Char → Pen → Pen
  | _, [], p => p
  | broken, c :: rest, p =>
      if isBreak c then
        literalChars column true rest
          { p.put (String.singleton c) with column := 0, indenting := true }
      else
        let p := if broken then p.indent column else p
        literalChars column false rest { p.put (String.singleton c) with indenting := false }

def literal (p : Pen) (column : Nat) (s : String) : Pen :=
  let p := ((p.mark "|" false).put (literalHeader s.toList)).lineBreak
  literalChars column true s.toList { p with indenting := true, spaced := true }

def string (p : Pen) (simpleKey : Bool) (column : Nat) (s : String) : Pen :=
  match Spelling.ofString simpleKey s with
  | .plain => p.plain s
  | .single => p.single column s
  | .double => p.double s
  | .literal => p.literal column s

/-- Where a node stands: in a list, or in a mapping, or as the whole document. -/
inductive Place where
  | document
  | item
  | entry
deriving DecidableEq

/-- The column of a scalar's own lines inside a collection at `column`. -/
def deeper : Option Nat → Nat
  | none => 2
  | some column => column + 2

def collectionColumn : Option Nat → Nat
  | none => 0
  | some column => column + 2

/-- Longer keys are written explicitly. -/
def keyLimit : Nat := 128

def isSimpleKey (s : String) : Bool :=
  !Spelling.isMultiline s.toList && s.utf8ByteSize ≤ keyLimit

def keyText : Datum → String
  | .string s => s
  | .number n => n.text
  | .bool b => if b then "true" else "false"
  | _ => "null"

/-- Writes a key and its colon. -/
def key (p : Pen) (column : Nat) (d : Datum) : Pen :=
  let p := p.indent column
  match d with
  | .string s =>
      if isSimpleKey s then (p.string true (column + 2) s).close ":"
      else (((p.mark "?" true).string false (column + 2) s).indent column).mark ":" true
  | d => (p.plain (keyText d)).close ":"

mutual

/-- Writes a node inside a collection at a column. -/
def node (column : Option Nat) (place : Place) (d : Datum) (p : Pen) : Pen :=
  match d with
  | .null => p.plain "null"
  | .bool b => p.plain (if b then "true" else "false")
  | .number n => p.plain n.text
  | .string s => p.string false (deeper column) s
  | .sequence [] => (p.mark "[" false).close "]"
  | .mapping [] => (p.mark "\x7b" false).close "\x7d"
  | .sequence list =>
      let own := if place = .entry && !p.indenting then column.getD 0 else collectionColumn column
      items own list p
  | .mapping list => entries (collectionColumn column) list p
  | .tagged _ content => node column place content p

def items (column : Nat) (list : List Datum) (p : Pen) : Pen :=
  match list with
  | [] => p
  | d :: rest => items column rest (node (some column) .item d ((p.indent column).mark "-" true))

def entries (column : Nat) (list : List (Datum × Datum)) (p : Pen) : Pen :=
  match list with
  | [] => p
  | (k, v) :: rest => entries column rest (node (some column) .entry v (p.key column k))

end

end Pen

/-- The text of a document. -/
def write (d : Datum) : String := ((Pen.node none .document d .start).indent 0).text

end Groundwork.Yaml
