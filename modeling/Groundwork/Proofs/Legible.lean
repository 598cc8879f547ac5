import Groundwork.Proofs.Filling
import Mathlib.Data.List.TakeWhile

set_option autoImplicit false

/- Literals read back. Behind the opening quote of a quoted literal, the first quote that is not
escaped is the last character, and undoing the escapes in between gives the string. So a reader that
knows nothing of the value stops where the literal ends, whatever the text goes on with, and the
same holds of lists in brackets. -/
namespace Groundwork

namespace Literal

/-- Whether a text ends with a backslash that escapes what follows it. One in front escapes its first
character. -/
def escaping (pending : Bool) (cs : List Char) : Bool :=
  cs.foldl (fun pending c => !pending && c = '\\') pending

/-- A text in quotes. Of the quotes behind the opening one, the last character is the only one that is not
escaped. -/
structure Encloses (literal body : List Char) : Prop where
  whole : literal = '"' :: (body ++ ['"'])
  inner : ∀ before after, body = before ++ '"' :: after → escaping false before = true
  closes : escaping false body = false

/-- The text without the backslashes that escape a backslash or a quote. -/
def unescape : List Char → List Char
  | '\\' :: '\\' :: rest => '\\' :: unescape rest
  | '\\' :: '"' :: rest => '"' :: unescape rest
  | c :: rest => c :: unescape rest
  | [] => []

/-- The literal is a text in quotes that stands for the string. -/
def Spells (literal : List Char) (s : String) : Prop :=
  ∃ body, Encloses literal body ∧ unescape body = s.toList

/-- The text before the first quote that is not escaped, and the text behind it. -/
def untilQuote (pending : Bool) : List Char → Option (List Char × List Char)
  | [] => none
  | c :: rest =>
      if c = '"' ∧ pending = false then some ([], rest)
      else (untilQuote (!pending && c = '\\') rest).map fun r => (c :: r.1, r.2)

theorem untilQuote_sound {pending : Bool} {cs body rest : List Char}
    (found : untilQuote pending cs = some (body, rest)) : cs = body ++ '"' :: rest ∧
      (∀ before after, body = before ++ '"' :: after → escaping pending before = true) ∧
        escaping pending body = false := by
  induction cs generalizing pending body with
  | nil => cases found
  | cons c cs ih =>
      unfold untilQuote at found
      by_cases closing : c = '"' ∧ pending = false
      · obtain ⟨rfl, rfl⟩ := closing
        rw [if_pos ⟨rfl, rfl⟩] at found
        cases found
        refine ⟨rfl, fun before after inside => ?_, rfl⟩
        exact absurd inside.symm (List.append_ne_nil_of_right_ne_nil before (List.cons_ne_nil _ _))
      · rw [if_neg closing] at found
        obtain ⟨⟨body, behind⟩, more, same⟩ := Option.map_eq_some_iff.mp found
        cases same
        obtain ⟨rfl, inner, closes⟩ := ih more
        refine ⟨rfl, fun before after inside => ?_, closes⟩
        cases before with
        | nil =>
            obtain ⟨rfl, -⟩ := List.cons.inj inside
            exact eq_true_of_ne_false fun open_ => closing ⟨rfl, open_⟩
        | cons d before =>
            obtain ⟨rfl, later⟩ := List.cons.inj inside
            exact inner before after later

theorem untilQuote_complete {pending : Bool} {body : List Char}
    (inner : ∀ before after, body = before ++ '"' :: after → escaping pending before = true)
    (closes : escaping pending body = false) (rest : List Char) :
    untilQuote pending (body ++ '"' :: rest) = some (body, rest) := by
  induction body generalizing pending with
  | nil => exact if_pos ⟨rfl, closes⟩
  | cons c body ih =>
      have going : ¬ (c = '"' ∧ pending = false) := by
        rintro ⟨rfl, rfl⟩
        cases inner [] body rfl
      have later : ∀ before after, body = before ++ '"' :: after →
          escaping (!pending && c = '\\') before = true :=
        fun before after inside => inner (c :: before) after (congrArg (c :: ·) inside)
      rw [List.cons_append, untilQuote, if_neg going, ih later closes, Option.map_some]

theorem Encloses.untilQuote {literal body : List Char} (encloses : Encloses literal body)
    (rest : List Char) : untilQuote false (body ++ '"' :: rest) = some (body, rest) :=
  untilQuote_complete encloses.inner encloses.closes rest

/-- No character's escape holds a quote that ends the text. -/
theorem untilQuote_escape (c : Char) (cs : List Char) :
    untilQuote false (escape c ++ cs) =
      (untilQuote false cs).map fun r => (escape c ++ r.1, r.2) := by
  unfold escape
  split
  · simp [untilQuote, Function.comp_def]
  · rename_i slash
    split
    · simp [untilQuote, Function.comp_def]
    · rename_i mark
      simp [untilQuote, slash, mark]

theorem untilQuote_escapes (cs rest : List Char) :
    untilQuote false (cs.flatMap escape ++ '"' :: rest) = some (cs.flatMap escape, rest) := by
  induction cs with
  | nil => rfl
  | cons c cs ih =>
      rw [List.flatMap_cons, List.append_assoc, untilQuote_escape, ih, Option.map_some]

theorem unescape_cons {c : Char} (plain : c ≠ '\\') (cs : List Char) :
    unescape (c :: cs) = c :: unescape cs := by
  rw [unescape]
  · rintro rest rfl
    exact absurd rfl plain
  · rintro rest rfl
    exact absurd rfl plain

theorem unescape_escape (c : Char) (cs : List Char) :
    unescape (escape c ++ cs) = c :: unescape cs := by
  unfold escape
  split
  · rename_i slash
    rw [slash]
    rfl
  · rename_i plain
    split
    · rename_i mark
      rw [mark]
      rfl
    · exact unescape_cons plain cs

theorem unescape_escapes (cs : List Char) : unescape (cs.flatMap escape) = cs := by
  induction cs with
  | nil => rfl
  | cons c cs ih => rw [List.flatMap_cons, unescape_escape, ih]

/-- Undoing escapes makes no text longer. -/
theorem length_unescape_le (cs : List Char) : (unescape cs).length ≤ cs.length := by
  fun_induction unescape cs with
  | case1 rest ih => simp only [List.length_cons]; omega
  | case2 rest ih => simp only [List.length_cons]; omega
  | case3 c rest _ _ ih => simp only [List.length_cons]; omega
  | case4 => exact Nat.le_refl 0

theorem toList_quote (s : String) :
    (quote s).toList = '"' :: (s.toList.flatMap escape ++ ['"']) := String.toList_ofList

theorem spells_quote (s : String) : Spells (quote s).toList s := by
  obtain ⟨-, inner, closes⟩ := untilQuote_sound (untilQuote_escapes s.toList [])
  exact ⟨s.toList.flatMap escape, ⟨toList_quote s, inner, closes⟩, unescape_escapes s.toList⟩

/-- The string that a text in quotes at the front stands for, and what follows it. -/
def readString : List Char → Option (String × List Char)
  | '"' :: rest => (untilQuote false rest).map fun r => (String.ofList (unescape r.1), r.2)
  | _ => none

theorem Spells.readString {literal : List Char} {s : String} (spells : Spells literal s)
    (rest : List Char) : readString (literal ++ rest) = some (s, rest) := by
  obtain ⟨body, encloses, meaning⟩ := spells
  rw [encloses.whole, List.cons_append, List.append_assoc, List.singleton_append,
    Literal.readString, encloses.untilQuote, Option.map_some, meaning, String.ofList_toList]

theorem length_of_readString {cs rest : List Char} {s : String}
    (found : readString cs = some (s, rest)) : rest.length ≤ cs.length := by
  unfold readString at found
  split at found
  · obtain ⟨⟨body, behind⟩, closed, same⟩ := Option.map_eq_some_iff.mp found
    obtain ⟨rfl, -⟩ := untilQuote_sound closed
    cases same
    simp only [List.length_cons, List.length_append]
    omega
  · cases found

/-- What stands behind the underscore is an expression of its own. -/
def IsExpression (s : String) : Prop := ∃ raw, s.toList = '_' :: raw

instance (s : String) : Decidable (IsExpression s) :=
  decidable_of_iff (s.toList.head? = some '_') List.head?_eq_some_iff

theorem ofString_of_expression {s : String} {raw : List Char} (expression : s.toList = '_' :: raw) :
    ofString s = String.ofList raw := by
  unfold ofString
  rw [expression]
  rfl

theorem ofString_of_not_expression {s : String} (other : ¬ IsExpression s) :
    ofString s = quote s := by
  unfold ofString
  split
  · rename_i raw expression
    exact absurd ⟨raw, expression⟩ other
  · rfl

/-- A string that is no expression, a boolean or an integer. -/
inductive Legible : Value → Prop
  | string {s : String} (other : ¬ IsExpression s) : Legible (.string s)
  | bool (b : Bool) : Legible (.bool b)
  | whole (n : Whole) : Legible (.number (.whole n))

/-- The literal of a legible value. -/
def spelling : Value → String
  | .string s => quote s
  | .bool b => Value.boolText b
  | .number n => n.json
  | _ => ""

theorem Legible.ofScalar {v : Value} (legible : Legible v) (field : String) :
    ofScalar field v = .ok (spelling v) := by
  cases legible with
  | string other => exact congrArg Except.ok (ofString_of_not_expression other)
  | bool b => rfl
  | whole n => rfl

def isBare (c : Char) : Bool := c ≠ ',' && c ≠ ']'

def natural? (digits : List Char) : Option Nat :=
  if digits ≠ [] ∧ digits.all Char.isDigit then some (Nat.ofDigitChars 10 digits 0) else none

/-- The integer that digits denote, with or without a sign. -/
def integer? : List Char → Option Int
  | '-' :: digits => (natural? digits).map fun n : Nat => -(n : Int)
  | digits => (natural? digits).map fun n : Nat => (n : Int)

/-- The value of a word without quotes. -/
def readBare (word : List Char) : Option Value :=
  if word = ['t', 'r', 'u', 'e'] then some (.bool true)
  else if word = ['f', 'a', 'l', 's', 'e'] then some (.bool false)
  else ((integer? word).bind Whole.ofInt?).map fun n => .number (.whole n)

/-- The value at the front, and what follows it. -/
def readItem (cs : List Char) : Option (Value × List Char) :=
  if cs.head? = some '"' then (readString cs).map fun r => (.string r.1, r.2)
  else (readBare (cs.takeWhile isBare)).map fun v => (v, cs.dropWhile isBare)

theorem length_of_readItem {cs rest : List Char} {v : Value}
    (found : readItem cs = some (v, rest)) : rest.length ≤ cs.length := by
  unfold readItem at found
  split at found
  · obtain ⟨⟨s, behind⟩, closed, same⟩ := Option.map_eq_some_iff.mp found
    cases same
    exact length_of_readString closed
  · obtain ⟨w, -, same⟩ := Option.map_eq_some_iff.mp found
    cases same
    exact List.length_dropWhile_le isBare cs

/-- The values up to the closing bracket, and what follows it. -/
def readItems (cs : List Char) : Option (List Value × List Char) :=
  match _ : readItem cs with
  | some (v, ',' :: ' ' :: rest) => (readItems rest).map fun r => (v :: r.1, r.2)
  | some (v, ']' :: rest) => some ([v], rest)
  | _ => none
termination_by cs.length
decreasing_by
  rename_i found
  have behind := length_of_readItem found
  simp only [List.length_cons] at behind
  omega

/-- The list in brackets at the front, and what follows it. -/
def readList : List Char → Option (List Value × List Char)
  | '[' :: ']' :: rest => some ([], rest)
  | '[' :: rest => readItems rest
  | _ => none

theorem isDigit_of_mem_toDigits {n : Nat} {c : Char} (member : c ∈ Nat.toDigits 10 n) :
    c.isDigit = true := Nat.isDigit_of_mem_toDigits (by decide) (by decide) member

theorem natural?_toDigits (n : Nat) : natural? (Nat.toDigits 10 n) = some n := by
  have digits : (Nat.toDigits 10 n).all Char.isDigit = true :=
    List.all_eq_true.mpr fun c => isDigit_of_mem_toDigits
  rw [natural?, if_pos ⟨Nat.toDigits_ne_nil, digits⟩, Nat.ofDigitChars_ten_toDigits]

/-- An integer is written in digits, behind a minus sign if it is negative. -/
theorem toList_toString (n : Int) :
    (∃ k : Nat, (toString n).toList = Nat.toDigits 10 k ∧ n = k) ∨
      ∃ k : Nat, (toString n).toList = '-' :: Nat.toDigits 10 k ∧ n = -(k : Int) := by
  rw [Int.toString_eq_repr, Int.repr_eq_if]
  split
  · exact .inl ⟨n.toNat, Nat.toList_repr, by omega⟩
  · refine .inr ⟨(-n).toNat, ?_, by omega⟩
    rw [String.toList_append, Nat.toList_repr]
    rfl

theorem integer?_toString (n : Int) : integer? (toString n).toList = some n := by
  rcases toList_toString n with ⟨k, written, same⟩ | ⟨k, written, same⟩
  · rw [written, integer?, natural?_toDigits, Option.map_some, same]
    intro digits signed
    have minus : '-' ∈ Nat.toDigits 10 k := signed ▸ List.mem_cons_self
    exact absurd (isDigit_of_mem_toDigits minus) (by decide)
  · rw [written, integer?, natural?_toDigits, Option.map_some, same]

theorem readBare_toString (n : Whole) :
    readBare (toString n.val).toList = some (.number (.whole n)) := by
  have other : ∀ c ∈ (toString n.val).toList, c.isDigit = true ∨ c = '-' := by
    intro c member
    rcases toList_toString n.val with ⟨k, written, -⟩ | ⟨k, written, -⟩
    · exact .inl (isDigit_of_mem_toDigits (written ▸ member))
    · rcases List.mem_cons.mp (written ▸ member) with sign | digit
      · exact .inr sign
      · exact .inl (isDigit_of_mem_toDigits digit)
  have noWord {word : List Char} (letter : 'e' ∈ word) : (toString n.val).toList ≠ word := by
    rintro rfl
    exact absurd (other 'e' letter) (by decide)
  rw [readBare, if_neg (noWord (by decide)), if_neg (noWord (by decide)), integer?_toString,
    Option.bind_some, Whole.ofInt?_val, Option.map_some]

/-- A word without quotes ends where a comma or a closing bracket stands. -/
theorem readItem_of_readBare (word : List Char) {v : Value} (found : readBare word = some v)
    (chars : ∀ c ∈ word, isBare c = true ∧ c ≠ '"') {c : Char} (ends : isBare c = false)
    (rest : List Char) : readItem (word ++ c :: rest) = some (v, c :: rest) := by
  have first : (word ++ c :: rest).head? ≠ some '"' := by
    intro quoted
    cases word with
    | nil =>
        rw [List.nil_append, List.head?_cons, Option.some.injEq] at quoted
        rw [quoted] at ends
        exact absurd ends (by decide)
    | cons d word =>
        rw [List.cons_append, List.head?_cons, Option.some.injEq] at quoted
        exact (chars d List.mem_cons_self).2 quoted
  have bare : ∀ d ∈ word, isBare d = true := fun d member => (chars d member).1
  have stops : ¬ isBare c = true := Bool.eq_false_iff.mp ends
  rw [readItem, if_neg first, List.takeWhile_append_of_pos bare, List.takeWhile_cons_of_neg stops,
    List.dropWhile_append_of_pos bare, List.dropWhile_cons_of_neg stops, List.append_nil, found,
    Option.map_some]

theorem bare_toString (n : Int) : ∀ c ∈ (toString n).toList, isBare c = true ∧ c ≠ '"' := by
  have digit : ∀ c : Char, c.isDigit = true → isBare c = true ∧ c ≠ '"' := by
    intro c digit
    have apart : c ≠ ',' ∧ c ≠ ']' ∧ c ≠ '"' := by
      refine ⟨?_, ?_, ?_⟩ <;> (rintro rfl; exact absurd digit (by decide))
    exact ⟨by simp [isBare, apart.1, apart.2.1], apart.2.2⟩
  intro c member
  rcases toList_toString n with ⟨k, written, -⟩ | ⟨k, written, -⟩
  · exact digit c (isDigit_of_mem_toDigits (written ▸ member))
  · rcases List.mem_cons.mp (written ▸ member) with rfl | inside
    · decide
    · exact digit c (isDigit_of_mem_toDigits inside)

theorem Legible.readItem {v : Value} (legible : Legible v) {c : Char} (ends : isBare c = false)
    (rest : List Char) : readItem ((spelling v).toList ++ c :: rest) = some (v, c :: rest) := by
  cases legible with
  | @string s other =>
      have quoted : ((quote s).toList ++ c :: rest).head? = some '"' := by
        rw [toList_quote]
        rfl
      rw [spelling, Literal.readItem, if_pos quoted, (spells_quote s).readString, Option.map_some]
  | bool b =>
      cases b with
      | true => exact readItem_of_readBare ['t', 'r', 'u', 'e'] rfl (by simp [isBare]) ends rest
      | false =>
          exact readItem_of_readBare ['f', 'a', 'l', 's', 'e'] rfl (by simp [isBare]) ends rest
  | whole n => exact readItem_of_readBare _ (readBare_toString n) (bare_toString n.val) ends rest

theorem readItems_last {v : Value} {cs rest : List Char}
    (item : readItem cs = some (v, ']' :: rest)) : readItems cs = some ([v], rest) := by
  rw [readItems]
  split <;> simp_all

theorem readItems_more {v : Value} {cs rest : List Char}
    (item : readItem cs = some (v, ',' :: ' ' :: rest)) :
    readItems cs = (readItems rest).map fun r => (v :: r.1, r.2) := by
  rw [readItems]
  split <;> simp_all

theorem readItems_bracket (rest : List Char) : readItems (']' :: rest) = none := by
  have item : readItem (']' :: rest) = none := rfl
  rw [readItems]
  split <;> simp_all

theorem readItems_spelling (v : Value) (items : List Value)
    (legible : ∀ w ∈ v :: items, Legible w) (rest : List Char) :
    readItems ((", ".intercalate ((v :: items).map spelling)).toList ++ ']' :: rest) =
      some (v :: items, rest) := by
  induction items generalizing v with
  | nil =>
      rw [List.map_singleton, String.intercalate_singleton]
      exact readItems_last ((legible v List.mem_cons_self).readItem rfl rest)
  | cons w items ih =>
      obtain ⟨first, others⟩ := List.forall_mem_cons.mp legible
      have text : (", ".intercalate ((v :: w :: items).map spelling)).toList ++ ']' :: rest =
          (spelling v).toList ++ ',' :: ' ' ::
            ((", ".intercalate ((w :: items).map spelling)).toList ++ ']' :: rest) := by
        rw [List.map_cons, List.map_cons, String.intercalate_cons_cons, ← List.map_cons]
        simp only [String.toList_append, List.append_assoc]
        rfl
      rw [text, readItems_more (first.readItem rfl _), ih w others, Option.map_some]

theorem ofField?_legible (field : String) {items : List Value} (legible : ∀ v ∈ items, Legible v) :
    ofField? field (some (.list items)) =
      .ok (some ("[" ++ ", ".intercalate (items.map spelling) ++ "]")) := by
  have each : items.mapM (ofScalar field) = .ok (items.map spelling) :=
    Except.mapM_eq_ok_of_forall fun v member => (legible v member).ofScalar field
  rw [ofField?, each]
  rfl

theorem readList_of_ofField? {field literal : String} {items : List Value}
    (legible : ∀ v ∈ items, Legible v)
    (written : ofField? field (some (.list items)) = .ok (some literal)) (rest : List Char) :
    readList (literal.toList ++ rest) = some (items, rest) := by
  rw [ofField?_legible field legible] at written
  have same := Option.some.inj (Except.ok.inj written)
  have text : literal.toList ++ rest =
      '[' :: ((", ".intercalate (items.map spelling)).toList ++ ']' :: rest) := by
    rw [← same, String.toList_append, String.toList_append, List.append_assoc, List.append_assoc]
    rfl
  rw [text]
  cases items with
  | nil => rfl
  | cons v items =>
      have read := readItems_spelling v items legible rest
      rw [readList, read]
      -- A bracket that closes at once would leave nothing to read.
      intro more empty
      rw [empty, readItems_bracket] at read
      cases read

end Literal

namespace Placeholder

/-- What a text goes on with behind a placeholder once it is filled. -/
def behind (fields : Fields) (plain : List Char) (after : List (String × List Char)) : List Char :=
  Split.fillWith (standIn fields) ⟨plain, after⟩

theorem exists_of_fill {text filled : String} {fields : Fields}
    (success : fill text fields = .ok filled) {before after : List (String × List Char)}
    {f : String} {plain : List Char}
    (parts : (split text.toList).parts = before ++ (f, plain) :: after) :
    ∃ front, filled.toList = front ++ (standIn fields f ++ behind fields plain after) := by
  refine ⟨Split.fillWith (standIn fields) ⟨(split text.toList).lead, before⟩, ?_⟩
  rw [(fill_eq_ok_iff.mp success).2]
  simp [Split.fillWith, behind, parts]

theorem standIn_of_literal {fields : Fields} {f literal : String}
    (written : Literal.ofField? f (fields.get? f) = .ok (some literal)) :
    standIn fields f = literal.toList := by
  rw [standIn, written]

end Placeholder

namespace Literal

open Placeholder (split standIn behind)

/-- Any string but an expression, in any field or list but a field that holds a type, is written as a text in
quotes that stands for it. Any list of such strings, booleans and integers is written so that it can be read
back, and no other list is written so. In a filled text, the reader of either stops where the template goes
on, whatever it goes on with. -/
theorem literals_read_back :
    (∀ s, ¬ IsExpression s →
      Spells (quote s).toList s ∧ (∀ rest, readString ((quote s).toList ++ rest) = some (s, rest)) ∧
      ∀ field, ofScalar field (.string s) = .ok (quote s) ∧
        (field ≠ typeKey → ofField? field (some (.string s)) = .ok (some (quote s)))) ∧
    (∀ field items, (∀ v ∈ items, Legible v) → ∃ literal,
      ofField? field (some (.list items)) = .ok (some literal) ∧
      (∀ rest, readList (literal.toList ++ rest) = some (items, rest)) ∧
      ∀ others, (∀ v ∈ others, Legible v) →
        ofField? field (some (.list others)) = .ok (some literal) → others = items) ∧
    ∀ text fields filled, Placeholder.fill text fields = .ok filled →
      ∀ before f plain after, (split text.toList).parts = before ++ (f, plain) :: after →
        ∃ front, filled.toList = front ++ (standIn fields f ++ behind fields plain after) ∧
          (∀ s, fields.get? f = some (.string s) → ¬ IsExpression s → f ≠ typeKey →
            readString (standIn fields f ++ behind fields plain after) =
              some (s, behind fields plain after)) ∧
          ∀ items, fields.get? f = some (.list items) → (∀ v ∈ items, Legible v) →
            readList (standIn fields f ++ behind fields plain after) =
              some (items, behind fields plain after) := by
  have direct (field s : String) (other : ¬ IsExpression s) (untyped : field ≠ typeKey) :
      ofField? field (some (.string s)) = .ok (some (quote s)) := by
    rw [ofField?, if_neg untyped, ofString_of_not_expression other]
  refine ⟨fun s other => ⟨spells_quote s, (spells_quote s).readString, fun field => ?_⟩,
    fun field items legible => ?_, fun text fields filled success before f plain after parts => ?_⟩
  · exact ⟨(Legible.string other).ofScalar field, direct field s other⟩
  · have written := ofField?_legible field legible
    refine ⟨_, written, readList_of_ofField? legible written, fun others legible' same => ?_⟩
    -- One text is read as both lists.
    have read := readList_of_ofField? legible' same []
    rw [readList_of_ofField? legible written] at read
    exact (congrArg Prod.fst (Option.some.inj read)).symm
  · obtain ⟨front, whole⟩ := Placeholder.exists_of_fill success parts
    refine ⟨front, whole, fun s found other untyped => ?_, fun items found legible => ?_⟩
    · rw [Placeholder.standIn_of_literal (found ▸ direct f s other untyped)]
      exact (spells_quote s).readString _
    · have written := ofField?_legible f legible
      rw [Placeholder.standIn_of_literal (found ▸ written)]
      exact readList_of_ofField? legible written _

namespace Tricky

/-- A string that looks like the end of a list. -/
def bracket : Value := .string "\", \\]"

def items : List Value := [bracket, .bool true, .number (.whole ⟨-7, by decide, by decide⟩)]

def fields : Fields := [("zones", .list items), ("name", bracket)]

theorem legible : ∀ v ∈ items, Legible v := by
  refine List.forall_mem_cons.mpr ⟨.string (by decide +kernel), List.forall_mem_cons.mpr
    ⟨.bool true, List.forall_mem_singleton.mpr (.whole _)⟩⟩

end Tricky

/-- Quotes, commas and brackets inside of a string end neither the string nor the list it is in. -/
theorem literals_read_back_tricky :
    Spells (quote "\", \\]").toList "\", \\]" ∧
    (∃ literal, ofField? typeKey (some (.list Tricky.items)) = .ok (some literal) ∧
      readList (literal.toList ++ [']', '"']) = some (Tricky.items, [']', '"'])) ∧
    ∃ filled front, Placeholder.fill "<zones>, <name>]" Tricky.fields = .ok filled ∧
      filled.toList = front ++ (standIn Tricky.fields "name" ++ [']']) ∧
        readString (standIn Tricky.fields "name" ++ [']']) = some ("\", \\]", [']']) := by
  obtain ⟨strings, lists, texts⟩ := literals_read_back
  have other : ¬ IsExpression "\", \\]" := by decide +kernel
  refine ⟨(strings _ other).1, ?_, ?_⟩
  · obtain ⟨literal, written, read, -⟩ := lists typeKey Tricky.items Tricky.legible
    exact ⟨literal, written, read _⟩
  · have success : Placeholder.fill "<zones>, <name>]" Tricky.fields =
        .ok "[\"\\\", \\\\]\", true, -7], \"\\\", \\\\]\"]" := by decide +kernel
    have parts : (split "<zones>, <name>]".toList).parts =
        [("zones", [',', ' '])] ++ ("name", [']']) :: [] := by decide +kernel
    obtain ⟨front, whole, string, -⟩ := texts _ _ _ success _ _ _ _ parts
    exact ⟨_, front, success, whole, string _ rfl other (by decide)⟩

end Literal

end Groundwork
