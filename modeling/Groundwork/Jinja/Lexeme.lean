import Groundwork.Decimal.Numeral
import Groundwork.Text.CodePoints

set_option autoImplicit false

/- Template text as lexemes. Outside tags everything is text; a dash inside a tag's delimiter takes
the white space next to it away. Inside a tag its end is looked for only where all brackets are
closed. What cannot be read becomes a last lexeme of its own, so that an earlier mistake is reported
first. -/
namespace Groundwork.Jinja

open Decimal (Binary64 Numeral)

inductive Lexeme where
  | text (s : String)
  | outputStart
  | outputEnd
  | tagStart
  | tagEnd
  | word (s : String)
  | string (s : String)
  | int (n : Nat)
  | float (x : Binary64)
  | symbol (s : String)
  | unreadable
  | badEscape
  | finish
deriving DecidableEq

/-- A lexeme and the line it begins on. -/
structure Placed where
  lexeme : Lexeme
  line : Nat

def simpleEscapes : List (Char × Char) :=
  [('"', '"'), ('\\', '\\'), ('/', '/'), ('\x27', '\x27'), ('b', '\x08'), ('f', '\x0c'),
    ('n', '\n'), ('r', '\r'), ('t', '\t')]

def isHexDigit (c : Char) : Bool :=
  c.isDigit || ('a' ≤ c && c ≤ 'f') || ('A' ≤ c && c ≤ 'F')

def codeUnit? : List Char → Option (Nat × List Char)
  | a :: b :: c :: d :: rest =>
      if [a, b, c, d].all isHexDigit then some (Text.hexValue [a, b, c, d], rest) else none
  | _ => none

def isHighSurrogate (n : Nat) : Bool := 0xD800 ≤ n && n < 0xDC00

def isLowSurrogate (n : Nat) : Bool := 0xDC00 ≤ n && n < 0xE000

/-- The character written by `\u` and four digits, or by two of these that form a pair. -/
def escapedUnit? (cs : List Char) : Option (Char × List Char) := do
  let (high, rest) ← codeUnit? cs
  if isHighSurrogate high then
    match rest with
    | '\\' :: 'u' :: more => do
        let (low, rest) ← codeUnit? more
        if isLowSurrogate low then
          some (Char.ofNat (0x10000 + (high - 0xD800) * 0x400 + (low - 0xDC00)), rest)
        else none
    | _ => none
  else if isLowSurrogate high then none
  else some (Char.ofNat high, rest)

/-- Resolves the escapes of a string; the bound is its length. -/
def unescape : Nat → List Char → Option (List Char)
  | 0, _ => some []
  | _ + 1, [] => some []
  | fuel + 1, '\\' :: 'u' :: rest => do
      let (c, rest) ← escapedUnit? rest
      (c :: ·) <$> unescape fuel rest
  | fuel + 1, '\\' :: c :: rest => do
      let d ← simpleEscapes.lookup c
      (d :: ·) <$> unescape fuel rest
  | _ + 1, ['\\'] => none
  | fuel + 1, c :: rest => (c :: ·) <$> unescape fuel rest

/-- The raw characters up to the closing quote, and what follows it. -/
def untilQuote (quote : Char) : List Char → Option (List Char × List Char)
  | [] => none
  | '\\' :: c :: rest => (untilQuote quote rest).map fun r => ('\\' :: c :: r.1, r.2)
  | c :: rest =>
      if c = quote then some ([], rest)
      else (untilQuote quote rest).map fun r => (c :: r.1, r.2)

inductive NumberPart where
  | whole
  | fraction
  | exponentStart
  | exponent
deriving DecidableEq

/-- The characters of a number that begins with digits. -/
def numberChars (part : NumberPart) : List Char → List Char
  | [] => []
  | c :: rest =>
      if c.isDigit then
        c :: numberChars (if part = .exponentStart then .exponent else part) rest
      else if c = '_' then c :: numberChars part rest
      else if c = '.' ∧ part = .whole then c :: numberChars .fraction rest
      else if (c = 'e' ∨ c = 'E') ∧ (part = .whole ∨ part = .fraction) then
        c :: numberChars .exponentStart rest
      else if (c = '+' ∨ c = '-') ∧ part = .exponentStart then
        c :: numberChars .exponent rest
      else []

def numberLexeme (cs : List Char) : Lexeme :=
  if cs.getLast? = some '_' then .unreadable
  else
    let cs := cs.filter (· ≠ '_')
    if cs.all Char.isDigit then
      let n := Decimal.digitValue cs
      if n < Nat.pow 2 128 then .int n else .unreadable
    else match Numeral.ofChars? cs with
      | some n => .float n.toBinary64
      | none => .unreadable

def isWordStart (c : Char) : Bool := c.toNat < 128 && c.isAlpha || c = '_'

def isWordChar (c : Char) : Bool := isWordStart c || c.isDigit

inductive TagKind where
  | output
  | statement
deriving DecidableEq

namespace TagKind

def opening : TagKind → Lexeme
  | .output => .outputStart
  | .statement => .tagStart

def closing : TagKind → Lexeme
  | .output => .outputEnd
  | .statement => .tagEnd

def closingMark : TagKind → List Char
  | .output => ['\x7d', '\x7d']
  | .statement => ['%', '\x7d']

end TagKind

/-- The rest behind the end of a tag, and whether it takes white space away. -/
def tagEnd? (kind : TagKind) (cs : List Char) : Option (List Char × Bool) :=
  let mark := kind.closingMark
  match cs with
  | '-' :: rest => if mark.isPrefixOf rest then some (rest.drop 2, true) else none
  | '+' :: rest => if mark.isPrefixOf rest then some (rest.drop 2, false) else none
  | _ => if mark.isPrefixOf cs then some (cs.drop 2, false) else none

def pairs : List String := ["//", "**", "==", "!=", ">=", "<="]

def singles : List Char := "+-*/%.,:~|=><()[]\x7b\x7d".toList

def opensBracket (c : Char) : Bool := ['(', '[', '\x7b'].contains c

def closesBracket (c : Char) : Bool := [')', ']', '\x7d'].contains c

def newlines (cs : List Char) : Nat := cs.count '\n'

def isTagBlank (c : Char) : Bool := [' ', '\t', '\n', '\r', '\x0c'].contains c

/-- Where a scan is: in text, with or without white space to be dropped, or in a tag with brackets
open. -/
inductive Mode where
  | text (trim : Bool)
  | tag (kind : TagKind) (balance : Int)

/-- The text before the next opening brace that starts a tag or a comment, the character behind that
brace, and the rest behind both. -/
def untilTag : List Char → List Char × Option (Char × List Char)
  | '\x7b' :: c :: rest =>
      if c = '\x7b' ∨ c = '%' ∨ c = '#' then ([], some (c, rest))
      else
        let r := untilTag (c :: rest)
        ('\x7b' :: r.1, r.2)
  | c :: rest =>
      let r := untilTag rest
      (c :: r.1, r.2)
  | [] => ([], none)

/-- The rest behind a comment, the text of the comment, and whether a dash ends it. -/
def afterComment : List Char → Option (List Char × List Char)
  | '#' :: '\x7d' :: rest => some ([], rest)
  | c :: rest => (afterComment rest).map fun r => (c :: r.1, r.2)
  | [] => none

def textLexeme (line : Nat) (cs : List Char) : List Placed :=
  if cs.isEmpty then [] else [⟨.text (String.ofList cs), line⟩]

/-- All lexemes of a text from a line on. Every round takes a character, so the length of the text
bounds their number. -/
def lexemes : Nat → Mode → Nat → List Char → List Placed
  | 0, _, _, _ => []
  | fuel + 1, .text trim, line, cs =>
      let blank := if trim then cs.takeWhile Text.isBlank else []
      let line := line + newlines blank
      let (lead, next) := untilTag (cs.drop blank.length)
      match next with
      | none => textLexeme line lead
      | some (c, rest) =>
          let removes := rest.head? = some '-'
          let shown := if removes then Text.trimEnd lead else lead
          let rest := if removes ∨ rest.head? = some '+' then rest.tail else rest
          let here := line + newlines lead
          textLexeme line shown ++
            if c = '#' then
              match afterComment rest with
              | none => [⟨.unreadable, here⟩]
              | some (body, rest) =>
                  lexemes fuel (.text (body.getLast? = some '-')) (here + newlines body) rest
            else
              let kind : TagKind := if c = '%' then .statement else .output
              ⟨kind.opening, here⟩ :: lexemes fuel (.tag kind 0) here rest
  | fuel + 1, .tag kind balance, line, cs =>
      let blank := cs.takeWhile isTagBlank
      let line := line + newlines blank
      let cs := cs.drop blank.length
      match if balance = 0 then tagEnd? kind cs else none with
      | some (rest, trim) => ⟨kind.closing, line⟩ :: lexemes fuel (.text trim) line rest
      | none =>
        match cs with
        | [] => []
        | c :: rest =>
          let two := String.ofList (cs.take 2)
          if pairs.contains two then
            ⟨.symbol two, line⟩ :: lexemes fuel (.tag kind balance) line (cs.drop 2)
          else if singles.contains c then
            let balance := if opensBracket c then balance + 1
              else if closesBracket c then balance - 1 else balance
            ⟨.symbol (String.singleton c), line⟩ :: lexemes fuel (.tag kind balance) line rest
          else if c = '"' ∨ c = '\x27' then
            match untilQuote c rest with
            | none => [⟨.unreadable, line⟩]
            | some (raw, rest) =>
              match unescape raw.length raw with
              | none => [⟨.badEscape, line⟩]
              | some s =>
                  ⟨.string (String.ofList s), line⟩ ::
                    lexemes fuel (.tag kind balance) (line + newlines raw) rest
          else if c.isDigit then
            let digits := numberChars .whole cs
            match numberLexeme digits with
            | .unreadable => [⟨.unreadable, line⟩]
            | l => ⟨l, line⟩ :: lexemes fuel (.tag kind balance) line (cs.drop digits.length)
          else if isWordStart c then
            let word := cs.takeWhile isWordChar
            ⟨.word (String.ofList word), line⟩ ::
              lexemes fuel (.tag kind balance) line (cs.drop word.length)
          else [⟨.unreadable, line⟩]

/-- One line break at the end of a template does not belong to it. -/
def dropFinalBreak (cs : List Char) : List Char :=
  let r := cs.reverse
  let r := if r.head? = some '\n' then r.tail else r
  (if r.head? = some '\r' then r.tail else r).reverse

def lexemesOf (source : String) : List Placed :=
  let cs := dropFinalBreak source.toList
  lexemes (cs.length + 1) (.text false) 1 cs

end Groundwork.Jinja
