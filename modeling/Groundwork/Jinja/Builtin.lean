import Groundwork.Jinja.Template
import Groundwork.Jinja.Value
import Groundwork.Text.LetterCase

set_option autoImplicit false

/- The operators, filters, tests and functions that templates may use. Values are written as compact
JSON that is safe inside HTML: angle brackets, ampersands and single quotes are escaped. -/
namespace Groundwork.Jinja

open Decimal (Style)

def fourDigits (n : Nat) : List Char :=
  let ds := Text.hexDigits n
  List.replicate (4 - ds.length) '0' ++ ds

def isHtmlSpecial (c : Char) : Bool := ['<', '>', '&', '\x27'].contains c

def jsonChar (c : Char) : List Char :=
  if c = '"' then ['\\', '"']
  else if c = '\\' then ['\\', '\\']
  else if c = '\n' then ['\\', 'n']
  else if c = '\r' then ['\\', 'r']
  else if c = '\t' then ['\\', 't']
  else if c = '\x08' then ['\\', 'b']
  else if c = '\x0c' then ['\\', 'f']
  else if c.toNat < 32 || isHtmlSpecial c then ['\\', 'u'] ++ fourDigits c.toNat
  else [c]

def jsonString (s : String) : String :=
  String.ofList (['"'] ++ s.toList.flatMap jsonChar ++ ['"'])

namespace Value

mutual

def json : Value → String
  | .undefined => "null"
  | .none => "null"
  | .bool b => Groundwork.Value.boolText b
  | .int n => toString n
  | .float x => if x.isFinite then Style.json.text x else "null"
  | .text s => jsonString s
  | .list items => "[" ++ ",".intercalate (jsonItems items) ++ "]"
  | .map entries => "\x7b" ++ ",".intercalate (jsonEntries entries) ++ "\x7d"

def jsonItems : List Value → List String
  | [] => []
  | x :: xs => json x :: jsonItems xs

/-- Keys are always strings, so those of other kinds are written as their text. -/
def jsonEntries : List (Value × Value) → List String
  | [] => []
  | (k, v) :: rest => (jsonString k.printed ++ ":" ++ json v) :: jsonEntries rest

end

end Value

open Decimal (Binary64)

def Comparison.holds (c : Comparison) (a b : Value) : Bool :=
  match c with
  | .eq => a.eqv b
  | .ne => !a.eqv b
  | .lt => (a.order b) = .lt
  | .le => (a.order b) ≠ .gt
  | .gt => (a.order b) = .gt
  | .ge => (a.order b) ≠ .lt

/-- The number nearest to a value, where it is a number or a boolean. -/
def nearestFloat? : Value → Option Binary64
  | .bool b => some (.ofInt (if b then 1 else 0))
  | .int n => some (.ofInt n)
  | .float x => some x
  | _ => none

/-- An integer that was computed, if it fits into 128 bits. -/
def fitting (n : Int) (operator : String) (a b : Value) : Except Problem Value :=
  if -n ≤ Int.pow 2 127 ∧ n < Int.pow 2 127 then .ok (.int n)
  else .error (.tooLarge operator a.printed b.printed)

def add (a b : Value) : Except Problem Value :=
  let refuse : Except Problem Value := .error (.unsupported "+" a.kind b.kind)
  match a, b with
  | .list xs, .list ys => .ok (.list (xs ++ ys))
  | .text s, .text t => .ok (.text (s ++ t))
  | .float x, _ => match nearestFloat? b with
    | some y => .ok (.float (x.add y))
    | none => refuse
  | _, .float y => match nearestFloat? a with
    | some x => .ok (.float (x.add y))
    | none => refuse
  | _, _ => match a.int?, b.int? with
    | some m, some n => fitting (m + n) "+" a b
    | _, _ => refuse

def isInfixOf (needle haystack : List Char) : Bool :=
  needle.isPrefixOf haystack ||
    match haystack with
    | [] => false
    | _ :: rest => isInfixOf needle rest

/-- Whether `v` stands in a container: an item of a list, a key of a map, a part of a text. Nothing
stands in what is undefined. -/
def containedIn (v container : Value) : Except Problem Bool :=
  match container with
  | .undefined => .ok false
  | .text s => .ok (isInfixOf v.printed.toList s.toList)
  | .map entries => .ok (Value.entry? entries v).isSome
  | .list items => .ok (items.any (·.eqv v))
  | _ => .error .noContainment

def BinaryOp.apply (op : BinaryOp) (a b : Value) : Except Problem Value :=
  match op with
  | .compare c => .ok (.bool (c.holds a b))
  | .contains => (containedIn a b).map .bool
  | .add => Jinja.add a b
  | .concat => .ok (.text (a.printed ++ b.printed))

def negate : Value → Except Problem Value
  | .int n => .ok (.int (-n))
  | .float x => .ok (.float x.neg)
  | _ => .error .cannotNegate

/-- An attribute of a value; only what is undefined refuses every one. -/
def attributeOf (v : Value) (name : String) : Except Problem Value :=
  match v with
  | .undefined => .error .undefinedValue
  | .map entries => .ok ((Value.entry? entries (.text name)).getD .undefined)
  | _ => .ok .undefined

def itemOf (v index : Value) : Except Problem Value :=
  match v with
  | .undefined => .error .undefinedValue
  | _ => .ok ((v.part? index).getD .undefined)

/-- The items of a list argument; a map is none. -/
def listArgument : Value → Except Problem (List Value)
  | .list items => .ok items
  | _ => .error .notIterable

def joined (separator : String) : String → List Value → String
  | text, [] => text
  | text, v :: rest =>
      joined separator ((if text = "" then text else text ++ separator) ++ v.printed) rest

def filterDefault (v : Value) : List Value → Except Problem Value
  | [] => .ok (match v with | .undefined => .text "" | _ => v)
  | [other] => .ok (match v with | .undefined => other | _ => v)
  | [other, lax] =>
      .ok (match v with
        | .undefined => other
        | _ => if lax.isTrue && !v.isTrue then other else v)
  | _ => .error .tooManyArguments

/-- The text of an optional argument; none stands for an absent one. -/
def optionalText : Value → String
  | .none => ""
  | v => v.printed

def filterJoin (v : Value) (args : List Value) : Except Problem Value :=
  match args with
  | _ :: _ :: _ => .error .tooManyArguments
  | _ =>
    let separator := (args.head?.map optionalText).getD ""
    match v.visits? with
    | some items => .ok (.text (joined separator "" items))
    | none => .error (.noJoin v.kind)

def filterLength (v : Value) : Except Problem Value :=
  match v with
  | .text s => .ok (.int s.length)
  | .list items => .ok (.int items.length)
  | .map entries => .ok (.int entries.length)
  | _ => .error (.noLength v.kind)

def filterItems (v : Value) : Except Problem Value :=
  match v with
  | .map entries => .ok (.list (entries.map fun e => .list [e.1, e.2]))
  | _ => .error .noPairs

def filterAny (v : Value) : Except Problem Value :=
  (listArgument v).map fun items => .bool (items.any (·.isTrue))

/-- A filter without arguments of its own. -/
def alone (args : List Value) (result : Except Problem Value) : Except Problem Value :=
  if args.isEmpty then result else .error .tooManyArguments

def applyFilter (name : String) (v : Value) (args : List Value) : Except Problem Value :=
  match name with
  | "default" => filterDefault v args
  | "d" => filterDefault v args
  | "tojson" => alone args (.ok (.text v.json))
  | "items" => alone args (filterItems v)
  | "join" => filterJoin v args
  | "length" => alone args (filterLength v)
  | "count" => alone args (filterLength v)
  | "upper" => alone args (.ok (.text (Text.upper v.printed)))
  | "lower" => alone args (.ok (.text (Text.lower v.printed)))
  | "any" => alone args (filterAny v)
  | _ => .error (.unknownFilter name)

def applyTest (name : String) (v : Value) (args : List Value) : Except Problem Bool :=
  let answer : Option Bool := match name with
    | "defined" => some (v.kind ≠ .undefined)
    | "undefined" => some (v.kind = .undefined)
    | "none" => some (v.kind = .none)
    | "odd" => some (v.int?.any fun n => n % 2 ≠ 0)
    | "even" => some (v.int?.any fun n => n % 2 = 0)
    | _ => none
  match answer with
  | none => .error (.unknownTest name)
  | some b => if args.isEmpty then .ok b else .error .tooManyArguments

/-- The items of `left` that also stand in `right`, each once, in the order of `left`. -/
def intersection (left right : List Value) : List Value :=
  left.foldl (fun common v =>
    if right.any (·.eqv v) && !common.any (·.eqv v) then common ++ [v] else common) []

def callIntersection : List Value → Except Problem Value
  | [] => .ok (.list [])
  | [left] => do
      let _ ← listArgument left
      return .list []
  | [left, right] => return .list (intersection (← listArgument left) (← listArgument right))
  | _ => .error .tooManyArguments

def callRaiseError : List Value → Except Problem Value
  | [] => .error .missingArgument
  | [message] => .error (.raised message.printed)
  | _ => .error .tooManyArguments

def callFunction (name : String) (args : List Value) : Except Problem Value :=
  match name with
  | "raise_error" => callRaiseError args
  | "intersection" => callIntersection args
  | _ => .error (.unknownFunction name)

/-- No value has methods, and what a map holds under the name cannot be called. -/
def callMethod (base : Value) (name : String) : Problem :=
  match base with
  | .map entries =>
      match Value.entry? entries (.text name) with
      | some v => .notCallable v.kind
      | none => .unknownMethod .map name
  | v => .unknownMethod v.kind name

end Groundwork.Jinja
