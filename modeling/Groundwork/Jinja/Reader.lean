import Groundwork.Jinja.Lexeme
import Groundwork.Jinja.Template

set_option autoImplicit false

/- From lexemes to a template. Binding strength, weakest first: `or`, `and`, `not`, comparisons and
`in`, `+`, `~`, the sign, then access, calls, filters and tests. Each level takes the level of whole
expressions as a parameter, for what stands in brackets. -/
namespace Groundwork.Jinja

structure Reader where
  lexemes : List Placed
  /-- The line of the lexeme read last. -/
  line : Nat

abbrev Read := StateT Reader (Except Fault)

namespace Read

def refuse {α : Type} : Read α := throw .unreadable

def peek : Read Lexeme := do
  let r ← get
  match r.lexemes with
  | [] => return .finish
  | p :: _ =>
    match p.lexeme with
    | .unreadable => refuse
    | .badEscape => throw (.failed .badEscape r.line)
    | l => return l

/-- The line of the lexeme at hand. -/
def here : Read Nat := do
  let r ← get
  return (r.lexemes.head?.map (·.line)).getD r.line

def skip : Read Unit := modify fun r =>
  match r.lexemes with
  | [] => r
  | p :: rest => ⟨rest, p.line⟩

def accept (l : Lexeme) : Read Bool := do
  if (← peek) = l then skip; return true else return false

def expect (l : Lexeme) : Read Unit := do
  if !(← accept l) then refuse

def symbol (s : String) : Read Bool := accept (.symbol s)

def name : Read String := do
  match ← peek with
  | .word s => skip; return s
  | _ => refuse

/-- Loops over lexemes end after as many rounds as there are lexemes left. -/
def bound : Read Nat := return (← get).lexemes.length + 1

/-- The rest of a list in brackets, behind its opening bracket. A comma may stand before the closing
one. -/
def items {α : Type} (item : Read α) (closing : String) : Nat → Bool → Read (List α)
  | 0, _ => refuse
  | fuel + 1, first => do
      if ← symbol closing then return []
      if !first then
        expect (.symbol ",")
        if ← symbol closing then return []
      let x ← item
      return x :: (← items item closing fuel false)

def itemsUntil {α : Type} (item : Read α) (closing : String) : Read (List α) := do
  items item closing (← bound) true

/-- An expression in parentheses, or a list written with them. -/
def parenthesised (whole : Read Expr) (line : Nat) : Read Expr := do
  if ← symbol ")" then return .list [] line
  let first ← whole
  if ← symbol "," then
    let rest ← itemsUntil whole ")"
    return .list (first :: rest) line
  expect (.symbol ")")
  return first

def entry (whole : Read Expr) : Read (Expr × Expr) := do
  let key ← whole
  expect (.symbol ":")
  return (key, ← whole)

def wordExpr (word : String) (line : Nat) : Expr :=
  if word = "true" ∨ word = "True" then .literal (.bool true) line
  else if word = "false" ∨ word = "False" then .literal (.bool false) line
  else if word = "none" ∨ word = "None" then .literal .none line
  else .var word line

def primary (whole : Read Expr) : Read Expr := do
  let line ← here
  match ← peek with
  | .word s => skip; return wordExpr s line
  | .string s => skip; return .literal (.text s) line
  | .int n => skip; return .literal (.int n) line
  | .float x => skip; return .literal (.float x) line
  | .symbol "(" => skip; parenthesised whole line
  | .symbol "[" => skip; return .list (← itemsUntil whole "]") line
  | .symbol "\x7b" => skip; return .map (← itemsUntil (entry whole) "\x7d") line
  | _ => refuse

/-- A call of a name is a call of a function, one of an attribute is a call of a method. -/
def callOf (callee : Expr) (args : List Expr) (line : Nat) : Read Expr :=
  match callee with
  | .var name _ => return .call name args line
  | .attribute base name => return .method base name args
  | _ => refuse

def access (whole : Read Expr) (line : Nat) : Nat → Expr → Read Expr
  | 0, e => return e
  | fuel + 1, e => do
      if ← symbol "." then access whole line fuel (.attribute e (← name))
      else if ← symbol "[" then
        let index ← whole
        expect (.symbol "]")
        access whole line fuel (.item e index)
      else if ← symbol "(" then
        let args ← itemsUntil whole ")"
        access whole line fuel (← callOf e args line)
      else return e

def signed (whole : Read Expr) : Nat → Read Expr
  | 0 => refuse
  | fuel + 1 => do
      if ← symbol "-" then return .negate (← signed whole fuel)
      primary whole

/-- Words that may follow a test and are not its argument. -/
def wordsBehindTests : List String := ["and", "or", "else", "is", "if", "in", "not"]

/-- Whether a test takes the next lexeme as its argument. -/
def startsArgument : Lexeme → Bool
  | .word s => !wordsBehindTests.contains s
  | .string _ => true
  | .int _ => true
  | .float _ => true
  | .symbol s => ["+", "-", "[", "\x7b"].contains s
  | _ => false

def testArguments (whole : Read Expr) : Read (List Expr) := do
  if ← symbol "(" then itemsUntil whole ")"
  else if startsArgument (← peek) then
    let line ← here
    let e ← signed whole (← bound)
    return [← access whole line (← bound) e]
  else return []

def refined (whole : Read Expr) : Nat → Expr → Read Expr
  | 0, e => return e
  | fuel + 1, e => do
      if ← symbol "|" then
        let filter ← name
        let args ← if ← symbol "(" then itemsUntil whole ")" else pure []
        refined whole fuel (.filter e filter args)
      else if ← accept (.word "is") then
        let negated ← accept (.word "not")
        let test ← name
        let checked := Expr.test e test (← testArguments whole)
        refined whole fuel (if negated then .not checked else checked)
      else return e

def operand (whole : Read Expr) : Read Expr := do
  let line ← here
  let e ← signed whole (← bound)
  let e ← access whole line (← bound) e
  refined whole (← bound) e

/-- Operands joined by one kind of operator, from left to right. -/
def chain (next : Read Expr) (operator : Lexeme) (join : Expr → Expr → Expr) :
    Nat → Expr → Read Expr
  | 0, e => return e
  | fuel + 1, e => do
      if ← accept operator then
        let right ← next
        chain next operator join fuel (join e right)
      else return e

def level (next : Read Expr) (operator : Lexeme) (join : Expr → Expr → Expr) : Read Expr := do
  let first ← next
  chain next operator join (← bound) first

def concatenation (whole : Read Expr) : Read Expr :=
  level (operand whole) (.symbol "~") (.binary .concat)

def sum (whole : Read Expr) : Read Expr :=
  level (concatenation whole) (.symbol "+") (.binary .add)

def comparison? : Lexeme → Option BinaryOp
  | .symbol "==" => some (.compare .eq)
  | .symbol "!=" => some (.compare .ne)
  | .symbol "<" => some (.compare .lt)
  | .symbol "<=" => some (.compare .le)
  | .symbol ">" => some (.compare .gt)
  | .symbol ">=" => some (.compare .ge)
  | .word "in" => some .contains
  | _ => none

def comparisons (whole : Read Expr) : Nat → Expr → Read Expr
  | 0, e => return e
  | fuel + 1, e => do
      match comparison? (← peek) with
      | some op =>
          skip
          let right ← sum whole
          comparisons whole fuel (.binary op e right)
      | none =>
          if ← accept (.word "not") then
            expect (.word "in")
            let right ← sum whole
            comparisons whole fuel (.not (.binary .contains e right))
          else return e

def negation (whole : Read Expr) : Nat → Read Expr
  | 0 => refuse
  | fuel + 1 => do
      if ← accept (.word "not") then return .not (← negation whole fuel)
      let first ← sum whole
      comparisons whole (← bound) first

def conjunction (whole : Read Expr) : Read Expr := do
  level (negation whole (← bound)) (.word "and") .both

/-- A whole expression, nested at most as deep as the bound. -/
def expression : Nat → Read Expr
  | 0 => refuse
  | fuel + 1 => level (conjunction (expression fuel)) (.word "or") .either

def wholeExpression : Read Expr := do expression (← bound)

def reserved : List String :=
  ["true", "True", "false", "False", "none", "None", "loop", "self"]

def target : Read String := do
  let s ← name
  if reserved.contains s then refuse
  return s

def targetList : Nat → Read (List String)
  | 0 => refuse
  | fuel + 1 => do
      let first ← target
      if ← symbol "," then return first :: (← targetList fuel)
      return [first]

/-- The names of an assignment, in parentheses or not. -/
def targets : Read (List String) := do
  if ← symbol "(" then
    let names ← targetList (← bound)
    expect (.symbol ")")
    return names
  targetList (← bound)

mutual

/-- Nodes up to a tag whose first word is one of `stops`; that tag is opened but not read. -/
def nodes : Nat → List String → Read (List Node)
  | 0, _ => refuse
  | fuel + 1, stops => do
      match ← peek with
      | .finish => return []
      | .text s =>
          skip
          return .text s :: (← nodes fuel stops)
      | .outputStart =>
          skip
          let e ← wholeExpression
          expect .outputEnd
          return .output e :: (← nodes fuel stops)
      | .tagStart =>
          skip
          match ← peek with
          | .word s =>
              if stops.contains s then return []
              let node ← statement fuel
              expect .tagEnd
              return node :: (← nodes fuel stops)
          | _ => refuse
      | _ => refuse

def statement : Nat → Read Node
  | 0 => refuse
  | fuel + 1 => do
      match ← name with
      | "if" => choice fuel
      | "for" => do
          let names ← targets
          expect (.word "in")
          let items ← wholeExpression
          expect .tagEnd
          let body ← nodes fuel ["endfor", "else"]
          let empty ← if ← accept (.word "else") then do
              expect .tagEnd
              nodes fuel ["endfor"]
            else pure []
          expect (.word "endfor")
          return .each names items body empty
      | "set" => do
          let names ← targets
          expect (.symbol "=")
          return .assign names (← wholeExpression)
      | _ => refuse

/-- A condition with its branches, behind the word that opens it. -/
def choice : Nat → Read Node
  | 0 => refuse
  | fuel + 1 => do
      let condition ← wholeExpression
      expect .tagEnd
      let yes ← nodes fuel ["endif", "else", "elif"]
      match ← name with
      | "endif" => return .choose condition yes []
      | "else" => do
          expect .tagEnd
          let no ← nodes fuel ["endif"]
          expect (.word "endif")
          return .choose condition yes no
      | "elif" => return .choose condition yes [← choice fuel]
      | _ => refuse

end

def template : Read (List Node) := do nodes (4 * (← bound) + 16) []

end Read

/-- The template that a text spells. -/
def Node.parse (source : String) : Except Fault (List Node) :=
  Read.template.run' ⟨lexemesOf source, 1⟩

end Groundwork.Jinja
