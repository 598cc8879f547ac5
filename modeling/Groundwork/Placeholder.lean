import Groundwork.Failure
import Groundwork.Text.LetterCase
import Groundwork.Value

set_option autoImplicit false

/- Placeholders `<field>` in a text. A text is split into the plain text before the first
placeholder and one pair per placeholder: its field, and the plain text behind it. Filling replaces
each placeholder by the literal of its field and looks at the result no further. A string's literal
stands in double quotes unless the string starts with an underscore, behind which it is an expression
of its own; a variable is referred to by its name. -/
namespace Groundwork.Literal

/-- The field whose string value names a type and stands without quotes. -/
def typeKey : String := "type"

def escape (c : Char) : List Char :=
  if c = '\\' then ['\\', '\\'] else if c = '"' then ['\\', '"'] else [c]

def quote (s : String) : String := String.ofList (['"'] ++ s.toList.flatMap escape ++ ['"'])

def ofString (s : String) : String :=
  match s.toList with
  | '_' :: raw => String.ofList raw
  | _ => quote s

/-- The literal of a value that is no list, or the kind that has none. -/
def ofScalar (field : String) : Value → Except Kind String
  | .bool b => .ok (Value.boolText b)
  | .variable fields => .ok ("var." ++ referenceName field fields)
  | .string s => .ok (ofString s)
  | .number n => .ok n.json
  | v => .error v.kind

/-- The literal that replaces a field's placeholder; an absent or null value leaves it. -/
def ofField? (field : String) : Option Value → Except Kind (Option String)
  | none => .ok none
  | some .null => .ok none
  | some (.list items) => do
      let literals ← items.mapM (ofScalar field)
      return some ("[" ++ ", ".intercalate literals ++ "]")
  | some (.string s) =>
      .ok (some (if field = typeKey then Text.lower s else ofString s))
  | some v => (ofScalar field v).map some

end Groundwork.Literal

namespace Groundwork.Placeholder

def isNameStart (c : Char) : Bool := (c.toNat < 128 && c.isAlpha) || c = '_'

def isNameChar (c : Char) : Bool := isNameStart c || c.isDigit

/-- The name and the rest, when a name and a closing bracket stand behind an opening one. -/
def field? (cs : List Char) : Option (List Char × List Char) :=
  match cs.takeWhile isNameChar, cs.dropWhile isNameChar with
  | c :: name, '>' :: rest => if isNameStart c then some (c :: name, rest) else none
  | _, _ => none

theorem field?_length {cs name rest : List Char} (h : field? cs = some (name, rest)) :
    rest.length < cs.length := by
  unfold field? at h
  split at h
  · rename_i c name' rest' _ hd
    split at h
    · injection h with h
      injection h with _ h
      have bound := (List.dropWhile_suffix (l := cs) isNameChar).length_le
      rw [hd, h, List.length_cons] at bound
      omega
    · contradiction
  · contradiction

/-- A text around its placeholders. -/
structure Split where
  lead : List Char
  parts : List (String × List Char)

namespace Split

/-- Puts a character in front. -/
def cons (c : Char) (s : Split) : Split := { s with lead := c :: s.lead }

/-- Puts a placeholder in front. -/
def opening (field : String) (s : Split) : Split := ⟨[], (field, s.lead) :: s.parts⟩

def fields (s : Split) : List String := s.parts.map (·.1)

/-- The text with `f` in place of every placeholder. -/
def fillWith (f : String → List Char) (s : Split) : List Char :=
  s.lead ++ s.parts.flatMap fun p => f p.1 ++ p.2

end Split

def split (cs : List Char) : Split :=
  match cs with
  | [] => ⟨[], []⟩
  | '<' :: rest =>
      match h : field? rest with
      | some (name, after) =>
          have := field?_length h
          .opening (String.ofList name) (split after)
      | none => .cons '<' (split rest)
  | c :: rest => .cons c (split rest)
termination_by cs.length

/-- The written form of a placeholder. -/
def written (field : String) : List Char := '<' :: field.toList ++ ['>']

/-- The fields of a text's placeholders, in order and with repetitions. -/
def fieldsOf (text : String) : List String := (split text.toList).fields

def fillPart (fields : Fields) (part : String × List Char) : Except TemplateFault (List Char) :=
  match Literal.ofField? part.1 (fields.get? part.1) with
  | .error kind => .error (.unsupportedValue part.1 kind)
  | .ok (some literal) => .ok (literal.toList ++ part.2)
  | .ok none => .ok (written part.1 ++ part.2)

/-- The text with every resolvable placeholder replaced. The first placeholder whose value has no
literal is the one reported. -/
def fill (text : String) (fields : Fields) : Except TemplateFault String := do
  let s := split text.toList
  let parts ← s.parts.mapM (fillPart fields)
  return String.ofList (s.lead ++ parts.flatten)

end Groundwork.Placeholder
