import Groundwork.Decimal.Numeral
import Groundwork.Proofs.Legible
import Groundwork.Proofs.Shortest
import Groundwork.Yaml.Datum

set_option autoImplicit false

/- Texts of numbers. However the digits of a double are laid out, they spell a numeral with its sign
and with the value of its shortest digits, so the text determines the number. An integer's text has
neither a point nor an exponent, and what is written for numbers without a finite value is no
numeral at all. -/
namespace Groundwork.Decimal

theorem digitChar_small : ∀ d < 10, (Char.ofNat (48 + d)).isDigit = true ∧
    (Char.ofNat (48 + d)).toNat - 48 = d := by decide

def digitChars (ds : List Nat) : List Char := ds.map fun d => Char.ofNat (48 + d)

theorem toList_digitText (ds : List Nat) : (Style.digitText ds).toList = digitChars ds :=
  String.toList_ofList

theorem isDigit_of_mem_digitChars {ds : List Nat} (small : ∀ d ∈ ds, d < 10) {c : Char}
    (member : c ∈ digitChars ds) : c.isDigit = true := by
  obtain ⟨d, inside, rfl⟩ := List.mem_map.mp member
  exact (digitChar_small d (small d inside)).1

theorem digitValue_digitChars {ds : List Nat} (small : ∀ d ∈ ds, d < 10) :
    digitValue (digitChars ds) = natValue ds := by
  induction ds using List.reverseRecOn with
  | nil => rfl
  | append_singleton ds d ih =>
      have last := (digitChar_small d (small d (by simp))).2
      have value : digitValue (digitChars ds) = natValue ds :=
        ih fun e member => small e (List.mem_append_left _ member)
      rw [natValue_concat, digitChars, List.map_append, digitValue, List.foldl_append]
      rw [digitChars, digitValue] at value
      simp only [List.map_cons, List.map_nil, List.foldl_cons, List.foldl_nil, value, last]

theorem digitValue_toDigits (n : Nat) : digitValue (Nat.toDigits 10 n) = n :=
  Nat.ofDigitChars_ten_toDigits

/-- A run of digits ends where another character stands. -/
theorem takeWhile_digits {run rest : List Char} (digits : ∀ c ∈ run, c.isDigit = true)
    (stops : ∀ c ∈ rest.head?, c.isDigit = false) :
    (run ++ rest).takeWhile Char.isDigit = run ∧ (run ++ rest).dropWhile Char.isDigit = rest := by
  have nothing : rest.takeWhile Char.isDigit = [] ∧ rest.dropWhile Char.isDigit = rest := by
    cases rest with
    | nil => exact ⟨rfl, rfl⟩
    | cons c rest =>
        have other := Bool.eq_false_iff.mp (stops c rfl)
        exact ⟨List.takeWhile_cons_of_neg other, List.dropWhile_cons_of_neg other⟩
  rw [List.takeWhile_append_of_pos digits, List.dropWhile_append_of_pos digits, nothing.1, nothing.2,
    List.append_nil]
  exact ⟨rfl, rfl⟩

namespace Numeral

/-- The magnitude of a numeral. -/
def value (n : Numeral) : ℚ := n.digits * 10 ^ n.exponent

def signed (negative : Bool) (cs : List Char) : List Char := if negative then '-' :: cs else cs

theorem splitSign_signed (negative : Bool) {cs : List Char} (nonempty : cs ≠ [])
    (digits : ∀ c ∈ cs.head?, c.isDigit = true) : splitSign (signed negative cs) = (negative, cs) := by
  cases negative
  · cases cs with
    | nil => exact absurd rfl nonempty
    | cons c rest =>
        have digit := digits c rfl
        rw [signed, if_neg Bool.false_ne_true, splitSign]
        · rintro more ⟨⟩
          exact absurd digit (by decide)
        · rintro more ⟨⟩
          exact absurd digit (by decide)
  · rfl

section Reading

variable (negative : Bool) {whole fraction tail : List Char} (nonempty : whole ≠ [])
  (digits : ∀ c ∈ whole, c.isDigit = true) (digits' : ∀ c ∈ fraction, c.isDigit = true)
  (stops : ∀ c ∈ tail.head?, c.isDigit = false)

include nonempty digits in
theorem splitSign_whole (rest : List Char) :
    splitSign (signed negative (whole ++ rest)) = (negative, whole ++ rest) := by
  obtain ⟨c, more, rfl⟩ := List.exists_cons_of_ne_nil nonempty
  refine splitSign_signed negative (List.cons_ne_nil _ _) fun d head => ?_
  cases head
  exact digits c List.mem_cons_self

include nonempty digits digits' stops in
/-- What is read where digits stand on both sides of a point. -/
theorem ofChars?_point : ofChars? (signed negative (whole ++ '.' :: (fraction ++ tail))) =
    (exponent? tail).map fun e =>
      ⟨negative, digitValue (whole ++ fraction), e - fraction.length⟩ := by
  have point : ∀ c ∈ ('.' :: (fraction ++ tail)).head?, c.isDigit = false := by
    rintro c ⟨⟩
    rfl
  obtain ⟨front, behind⟩ := takeWhile_digits digits point
  obtain ⟨front', behind'⟩ := takeWhile_digits digits' stops
  rw [ofChars?, splitSign_whole negative nonempty digits]
  dsimp only
  simp only [behind, front, behind', front']
  rw [if_neg fun none => nonempty none.1]

include nonempty digits stops in
/-- What is read where no point follows the digits. -/
theorem ofChars?_noPoint (noPoint : ∀ c ∈ tail.head?, c ≠ '.') :
    ofChars? (signed negative (whole ++ tail)) =
      (exponent? tail).map fun e => ⟨negative, digitValue whole, e⟩ := by
  obtain ⟨front, behind⟩ := takeWhile_digits digits stops
  rw [ofChars?, splitSign_whole negative nonempty digits]
  dsimp only
  rw [behind, front]
  split
  · exact absurd rfl (noPoint '.' rfl)
  · rw [if_neg fun none => nonempty none.1, List.append_nil, List.length_nil, Nat.cast_zero]
    simp only [sub_zero]

end Reading

theorem exponent?_of_splitSign {rest : List Char} {negative : Bool} {k : Nat}
    (split : splitSign rest = (negative, Nat.toDigits 10 k)) :
    exponent? ('e' :: rest) = some (if negative then -(k : ℤ) else k) := by
  have digits : (Nat.toDigits 10 k).all Char.isDigit = true :=
    List.all_eq_true.mpr fun c => Literal.isDigit_of_mem_toDigits
  rw [exponent?, if_pos (.inl rfl), split]
  dsimp only
  rw [if_pos ⟨Nat.toDigits_ne_nil, digits⟩, digitValue_toDigits]

theorem exponent?_digits (k : Nat) (negative : Bool) :
    exponent? ('e' :: signed negative (Nat.toDigits 10 k)) =
      some (if negative then -(k : ℤ) else k) := by
  have digits : ∀ c ∈ Nat.toDigits 10 k, c.isDigit = true := fun c => Literal.isDigit_of_mem_toDigits
  have split := splitSign_whole negative Nat.toDigits_ne_nil digits []
  rw [List.append_nil] at split
  exact exponent?_of_splitSign split

theorem exponent?_plus (k : Nat) : exponent? ('e' :: '+' :: Nat.toDigits 10 k) = some (k : ℤ) := by
  have split : splitSign ('+' :: Nat.toDigits 10 k) = (false, Nat.toDigits 10 k) := rfl
  exact exponent?_of_splitSign split

end Numeral

open Numeral (signed ofChars?_point ofChars?_noPoint)

/-- A text that spells a number of this sign and magnitude. -/
def Spells (text : String) (negative : Bool) (magnitude : ℚ) : Prop :=
  ∃ n, Numeral.ofText? text = some n ∧ n.negative = negative ∧ n.value = magnitude

section Spelling

variable {negative : Bool} {whole fraction : List Nat} {tail : List Char} {e : ℤ} {text : String}
  (nonempty : whole ≠ []) (small : ∀ d ∈ whole, d < 10) (small' : ∀ d ∈ fraction, d < 10)
  (stops : ∀ c ∈ tail.head?, c.isDigit = false) (exponent : Numeral.exponent? tail = some e)

include nonempty small small' stops exponent in
theorem spells_point (written : text.toList =
      signed negative (digitChars whole ++ '.' :: (digitChars fraction ++ tail))) :
    Spells text negative (natValue (whole ++ fraction) * 10 ^ (e - fraction.length)) := by
  have chars : digitChars whole ≠ [] := by simpa [digitChars] using nonempty
  have both : ∀ d ∈ whole ++ fraction, d < 10 := fun d member =>
    (List.mem_append.mp member).elim (small d) (small' d)
  have read := ofChars?_point negative chars (fun c => isDigit_of_mem_digitChars small)
    (fun c => isDigit_of_mem_digitChars small') stops
  rw [exponent, ← written, Option.map_some] at read
  refine ⟨_, read, rfl, ?_⟩
  rw [Numeral.value, ← digitValue_digitChars both]
  simp [digitChars]

include nonempty small stops exponent in
theorem spells_noPoint (noPoint : ∀ c ∈ tail.head?, c ≠ '.')
    (written : text.toList = signed negative (digitChars whole ++ tail)) :
    Spells text negative (natValue whole * 10 ^ e) := by
  have chars : digitChars whole ≠ [] := by simpa [digitChars] using nonempty
  have read := ofChars?_noPoint negative chars (fun c => isDigit_of_mem_digitChars small) stops noPoint
  rw [exponent, ← written, Option.map_some] at read
  refine ⟨_, read, rfl, ?_⟩
  rw [Numeral.value, ← digitValue_digitChars small]

end Spelling

theorem zeros_lt (k : Nat) : ∀ d ∈ Style.zeros k, d < 10 := by
  intro d member
  rw [List.eq_of_mem_replicate member]
  decide

/-- Zeros behind the digits move the point. -/
theorem shifted_value (d : Digits) {k : Nat} {e : ℤ} (same : k + e = d.point - d.digits.length) :
    ((natValue d.digits * 10 ^ k : ℕ) : ℚ) * 10 ^ e = d.value := by
  rw [Digits.value, ← same, zpow_add₀ (by norm_num), zpow_natCast]
  push_cast
  ring

section Layouts

variable {d : Digits} {negative : Bool} {text : String} (nonempty : d.digits ≠ [])
  (small : ∀ k ∈ d.digits, k < 10)

include small in
theorem spells_behind (beneath : d.point ≤ 0) (written : text.toList = signed negative
      (digitChars [0] ++ '.' :: (digitChars (Style.zeros (-d.point).toNat ++ d.digits) ++ []))) :
    Spells text negative d.value := by
  have spells := spells_point (by simp) (by simp)
    (fun k member => (List.mem_append.mp member).elim (zeros_lt _ k) (small k)) (by simp) rfl written
  have digits : natValue ([0] ++ (Style.zeros (-d.point).toNat ++ d.digits)) =
      natValue d.digits * 10 ^ 0 := by
    rw [natValue_append, natValue_append, Style.zeros, natValue_zeros, pow_zero, Nat.mul_one]
    simp [natValue]
  rw [digits, shifted_value d] at spells
  · exact spells
  · simp only [List.length_append, Style.zeros, List.length_replicate]
    omega

include nonempty small in
theorem spells_before (whole : d.digits.length ≤ d.point.toNat)
    (written : text.toList = signed negative
      (digitChars (d.digits ++ Style.zeros (d.point.toNat - d.digits.length)) ++
        '.' :: (digitChars [0] ++ []))) : Spells text negative d.value := by
  have spells := spells_point (by simp [nonempty])
    (fun k member => (List.mem_append.mp member).elim (small k) (zeros_lt _ k)) (by simp) (by simp)
    rfl written
  have digits : natValue (d.digits ++ Style.zeros (d.point.toNat - d.digits.length) ++ [0]) =
      natValue d.digits * 10 ^ (d.point.toNat - d.digits.length + 1) := by
    rw [natValue_concat, natValue_append, Style.zeros, natValue_zeros, List.length_replicate, pow_succ]
    ring
  rw [digits, shifted_value d] at spells
  · exact spells
  · have length := List.length_pos_iff.mpr nonempty
    simp only [List.length_singleton]
    omega

include small in
theorem spells_among (positive : ¬ d.point ≤ 0) (inside : ¬ d.digits.length ≤ d.point.toNat)
    (written : text.toList = signed negative (digitChars (d.digits.take d.point.toNat) ++
      '.' :: (digitChars (d.digits.drop d.point.toNat) ++ []))) : Spells text negative d.value := by
  have front : d.digits.take d.point.toNat ≠ [] := by
    rw [← List.length_pos_iff, List.length_take]
    omega
  have spells := spells_point front (fun k member => small k (List.mem_of_mem_take member))
    (fun k member => small k (List.mem_of_mem_drop member)) (by simp) rfl written
  have digits : natValue (d.digits.take d.point.toNat ++ d.digits.drop d.point.toNat) =
      natValue d.digits * 10 ^ 0 := by
    rw [List.take_append_drop, pow_zero, Nat.mul_one]
  rw [digits, shifted_value d] at spells
  · exact spells
  · rw [List.length_drop]
    omega

include nonempty small in
/-- Digits behind the point, before it, or around it. -/
theorem spells_positional
    (written : text.toList = signed negative (Style.positionalText d).toList) :
    Spells text negative d.value := by
  rw [Style.positionalText] at written
  split at written
  · refine spells_behind small ‹_› (written.trans ?_)
    rw [String.toList_append, toList_digitText, List.append_nil]
    rfl
  · dsimp only at written
    split at written
    · refine spells_before nonempty small ‹_› (written.trans ?_)
      rw [String.toList_append, toList_digitText]
      rfl
    · refine spells_among small ‹_› ‹_› (written.trans ?_)
      rw [String.toList_append, String.toList_append, toList_digitText, toList_digitText,
        List.append_assoc, List.append_nil]
      rfl

/-- The tail of a number that is written with an exponent. -/
theorem exponent_tail (style : Style) (e : ℤ) : ∃ digits, ("e" ++
      (if e < 0 then "-" else if style.exponentPlus then "+" else "") ++ toString e.natAbs).toList =
      'e' :: digits ∧ Numeral.exponent? ('e' :: digits) = some e := by
  have digits : (toString e.natAbs).toList = Nat.toDigits 10 e.natAbs := Nat.toList_repr
  rw [String.toList_append, String.toList_append, digits]
  split
  · refine ⟨signed true (Nat.toDigits 10 e.natAbs), rfl, ?_⟩
    rw [Numeral.exponent?_digits, if_pos rfl]
    exact congrArg some (by omega)
  · split
    · refine ⟨'+' :: Nat.toDigits 10 e.natAbs, rfl, ?_⟩
      rw [Numeral.exponent?_plus]
      exact congrArg some (by omega)
    · refine ⟨signed false (Nat.toDigits 10 e.natAbs), rfl, ?_⟩
      rw [Numeral.exponent?_digits, if_neg Bool.false_ne_true]
      exact congrArg some (by omega)

theorem spells_single {a : Nat} {point : ℤ} (small : a < 10) {tail : List Char}
    (letter : ∀ c ∈ tail.head?, c.isDigit = false ∧ c ≠ '.')
    (exponent : Numeral.exponent? tail = some (point - 1))
    (written : text.toList = signed negative (digitChars [a] ++ tail)) :
    Spells text negative (Digits.value ⟨[a], point⟩) := by
  have spells := spells_noPoint (List.cons_ne_nil _ _) (by simpa using small)
    (fun c head => (letter c head).1) exponent (fun c head => (letter c head).2) written
  rw [← Nat.mul_one (natValue [a]), ← pow_zero 10, shifted_value ⟨[a], point⟩] at spells
  · exact spells
  · exact zero_add _

theorem spells_several {a b : Nat} {rest : List Nat} {point : ℤ}
    (small : ∀ k ∈ a :: b :: rest, k < 10) {tail : List Char}
    (letter : ∀ c ∈ tail.head?, c.isDigit = false ∧ c ≠ '.')
    (exponent : Numeral.exponent? tail = some (point - 1)) (written : text.toList =
      signed negative (digitChars [a] ++ '.' :: (digitChars (b :: rest) ++ tail))) :
    Spells text negative (Digits.value ⟨a :: b :: rest, point⟩) := by
  have spells := spells_point (List.cons_ne_nil _ _)
    (fun k member => small k (List.mem_singleton.mp member ▸ List.mem_cons_self))
    (fun k member => small k (List.mem_cons_of_mem a member)) (fun c head => (letter c head).1)
    exponent written
  rw [List.singleton_append, ← Nat.mul_one (natValue _), ← pow_zero 10,
    shifted_value ⟨a :: b :: rest, point⟩] at spells
  · exact spells
  · dsimp only [List.length_cons]
    push_cast
    ring

/-- One digit stands before the point, if there are more than one. -/
def mantissa : List Nat → List Char
  | first :: second :: rest => digitChars [first] ++ '.' :: digitChars (second :: rest)
  | ds => digitChars ds

theorem toList_exponentText (style : Style) (d : Digits) : ∃ digits : List Char,
    Numeral.exponent? ('e' :: digits) = some (d.point - 1) ∧
      (style.exponentText d).toList = mantissa d.digits ++ 'e' :: digits := by
  obtain ⟨digits, tail, exponent⟩ := exponent_tail style (d.point - 1)
  refine ⟨digits, exponent, ?_⟩
  rw [Style.exponentText, String.append_assoc, String.append_assoc, String.toList_append,
    ← String.append_assoc, tail]
  congr 1
  rcases d.digits with _ | ⟨a, _ | ⟨b, rest⟩⟩
  · exact toList_digitText _
  · exact toList_digitText _
  · dsimp only
    rw [String.toList_append, String.toList_append, toList_digitText, toList_digitText,
      List.append_assoc]
    rfl

include nonempty small in
theorem spells_exponent {style : Style}
    (written : text.toList = signed negative (style.exponentText d).toList) :
    Spells text negative d.value := by
  obtain ⟨digits, exponent, layout⟩ := toList_exponentText style d
  have letter : ∀ c ∈ ('e' :: digits).head?, c.isDigit = false ∧ c ≠ '.' := by
    rintro c ⟨⟩
    decide
  rw [layout] at written
  obtain ⟨_ | ⟨a, _ | ⟨b, rest⟩⟩, point⟩ := d
  · exact absurd rfl nonempty
  · exact spells_single (small a List.mem_cons_self) letter exponent written
  · rw [mantissa, List.append_assoc, List.cons_append] at written
    exact spells_several small letter exponent written

end Layouts

/-- What is written of a number: a sign if it is negative, and its magnitude. -/
theorem toList_text (style : Style) (x : Binary64) : (style.text x).toList = signed x.negative
    (if style.positional (shortest x style.tie).point then
      Style.positionalText (shortest x style.tie)
    else style.exponentText (shortest x style.tie)).toList := by
  rw [Style.text, signed]
  split
  · rw [String.toList_append]
    rfl
  · rfl

/-- Whatever the style, the text spells the shortest digits. -/
theorem spells_text (style : Style) (x : Binary64) :
    Spells (style.text x) x.negative (shortest x style.tie).value := by
  have written := toList_text style x
  have small := digits_shortest_lt x style.tie
  have nonempty := digits_shortest_ne_nil x style.tie
  split at written
  · exact spells_positional nonempty small written
  · exact spells_exponent nonempty small written

/-- A double's text determines its value, even across styles. -/
theorem units_eq_of_text_eq {s t : Style} {x y : Binary64} (same : s.text x = t.text y) :
    x.units = y.units := by
  obtain ⟨n, read, sign, value⟩ := spells_text s x
  obtain ⟨n', read', sign', value'⟩ := spells_text t y
  rw [same, read', Option.some_inj] at read
  subst read
  have middle : x.middle = y.middle := middle_eq_of_value_eq (value.symm.trans value')
  have signs : x.negative = y.negative := sign.symm.trans sign'
  have quadruple : 4 * x.units = 4 * y.units := by
    rw [x.units_eq, y.units_eq, middle, signs]
  omega

theorem point_mem_positionalText (d : Digits) : '.' ∈ (Style.positionalText d).toList := by
  rw [Style.positionalText]
  split
  · simp [String.toList_append]
  · dsimp only
    split <;> simp [String.toList_append]

/-- A double is never written like an integer. -/
theorem exists_mark (style : Style) (x : Binary64) :
    '.' ∈ (style.text x).toList ∨ 'e' ∈ (style.text x).toList := by
  have inside {c : Char} {negative : Bool} {cs : List Char} (member : c ∈ cs) :
      c ∈ signed negative cs := by
    unfold signed
    split
    · exact List.mem_cons_of_mem _ member
    · exact member
  rw [toList_text]
  split
  · exact .inl (inside (point_mem_positionalText _))
  · obtain ⟨digits, -, layout⟩ := toList_exponentText style (shortest x style.tie)
    refine .inr (inside ?_)
    rw [layout]
    exact List.mem_append_right _ List.mem_cons_self

theorem isDigit_or_minus_of_mem_toString {n : ℤ} {c : Char} (member : c ∈ (toString n).toList) :
    c.isDigit = true ∨ c = '-' := by
  rcases Literal.toList_toString n with ⟨k, written, -⟩ | ⟨k, written, -⟩
  · exact .inl (Literal.isDigit_of_mem_toDigits (written ▸ member))
  · rcases List.mem_cons.mp (written ▸ member) with minus | digit
    · exact .inr minus
    · exact .inl (Literal.isDigit_of_mem_toDigits digit)

theorem toString_ne_text (n : ℤ) (style : Style) (x : Binary64) : toString n ≠ style.text x := by
  intro same
  rcases exists_mark style x with point | letter
  · exact absurd (isDigit_or_minus_of_mem_toString (same ▸ point)) (by decide)
  · exact absurd (isDigit_or_minus_of_mem_toString (same ▸ letter)) (by decide)

/-- What is no numeral is no text of a double. -/
theorem text_ne_of_ofText? {s : String} (none : Numeral.ofText? s = none) (style : Style)
    (x : Binary64) : style.text x ≠ s := by
  intro same
  obtain ⟨n, read, -⟩ := spells_text style x
  rw [same, none] at read
  cases read

/-- Without a fraction the greatest exponent leaves nothing but the sign. -/
theorem Binary64.eq_of_infinite {x y : Binary64} (infinite : x.isFinite = false)
    (infinite' : y.isFinite = false) (value : x.isNaN = false) (value' : y.isNaN = false)
    (sign : x.negative = y.negative) : x = y := by
  obtain ⟨b⟩ := x
  obtain ⟨b'⟩ := y
  congr 1
  apply UInt64.toNat_inj.mp
  have unit : signUnit = 9223372036854775808 := by decide
  have unit' := fractionUnit_eq
  have small := b.toNat_lt
  have small' := b'.toNat_lt
  simp only [isFinite, isNaN, exponentField, fraction, negative, unit, unit', decide_eq_false_iff_not,
    not_not, ne_eq, Bool.and_eq_false_iff, decide_eq_decide] at *
  omega

end Groundwork.Decimal

namespace Groundwork.Yaml.Amount

open Decimal

theorem whole_eq_of_toString_eq {m n : Whole} (same : toString m.val = toString n.val) : m = n := by
  have read := Literal.integer?_toString m.val
  rw [same, Literal.integer?_toString, Option.some_inj] at read
  obtain ⟨m, _, _⟩ := m
  obtain ⟨n, _, _⟩ := n
  cases read
  rfl

theorem text_of_finite {x : Binary64} (finite : x.isFinite = true) :
    (Amount.float x).text = Style.yaml.text x := if_pos finite

/-- The texts of what has no finite value. -/
def special (x : Binary64) : String :=
  if x.isNaN then ".nan" else if x.negative then "-.inf" else ".inf"

theorem text_of_infinite {x : Binary64} (infinite : x.isFinite = false) :
    (Amount.float x).text = special x := if_neg (Bool.eq_false_iff.mp infinite)

theorem special_mem (x : Binary64) : special x ∈ [".nan", "-.inf", ".inf"] := by
  unfold special
  split
  · simp
  · split <;> simp

theorem ofText?_special (x : Binary64) : Numeral.ofText? (special x) = none := by
  have all : ∀ s ∈ [".nan", "-.inf", ".inf"], Numeral.ofText? s = none := by decide
  exact all _ (special_mem x)

theorem point_mem_special (x : Binary64) : '.' ∈ (special x).toList := by
  have all : ∀ s ∈ [".nan", "-.inf", ".inf"], '.' ∈ s.toList := by decide
  exact all _ (special_mem x)

theorem toString_ne_float_text (n : ℤ) (x : Binary64) : toString n ≠ (Amount.float x).text := by
  cases finite : x.isFinite
  · intro same
    rw [text_of_infinite finite] at same
    exact absurd (isDigit_or_minus_of_mem_toString (same ▸ point_mem_special x)) (by decide)
  · rw [text_of_finite finite]
    exact toString_ne_text n _ x

/-- What has no finite value is determined by its text. -/
theorem eqv_of_special_eq {x y : Binary64} (infinite : x.isFinite = false)
    (infinite' : y.isFinite = false) (same : special x = special y) :
    (Amount.float x).eqv (.float y) = true := by
  have texts : ".nan" ≠ "-.inf" ∧ ".nan" ≠ ".inf" ∧ "-.inf" ≠ ".inf" := by decide
  unfold special at same
  rw [eqv]
  cases nan : x.isNaN <;> cases nan' : y.isNaN
  · have sign : x.negative = y.negative := by
      rw [nan, nan'] at same
      cases negative : x.negative <;> cases negative' : y.negative <;> simp_all
    have equal := Binary64.eq_of_infinite infinite infinite' nan nan' sign
    simp [Binary64.eqv, equal, nan', infinite']
  · rw [nan, nan', if_pos rfl, if_neg Bool.false_ne_true] at same
    split at same
    · exact absurd same.symm texts.1
    · exact absurd same.symm texts.2.1
  · rw [nan, nan', if_pos rfl, if_neg Bool.false_ne_true] at same
    split at same
    · exact absurd same texts.1
    · exact absurd same texts.2.1
  · rfl

/-- Numbers of one text are equal. -/
theorem eqv_of_text_eq {m n : Amount} (same : m.text = n.text) : m.eqv n = true := by
  rcases m with m | x <;> rcases n with n | y
  · exact decide_eq_true (whole_eq_of_toString_eq same)
  · exact absurd same (toString_ne_float_text _ _)
  · exact absurd same.symm (toString_ne_float_text _ _)
  · cases finite : x.isFinite <;> cases finite' : y.isFinite
    · rw [text_of_infinite finite, text_of_infinite finite'] at same
      exact eqv_of_special_eq finite finite' same
    · rw [text_of_infinite finite, text_of_finite finite'] at same
      exact absurd same.symm (text_ne_of_ofText? (ofText?_special x) _ y)
    · rw [text_of_finite finite, text_of_infinite finite'] at same
      exact absurd same (text_ne_of_ofText? (ofText?_special y) _ x)
    · rw [text_of_finite finite, text_of_finite finite'] at same
      have units := units_eq_of_text_eq same
      have value {z : Binary64} (finite : z.isFinite = true) : z.isNaN = false := by
        simp_all [Binary64.isNaN, Binary64.isFinite]
      simp [eqv, Binary64.eqv, value finite, value finite', finite, finite', units]

/-- A word that is neither a numeral nor has a point or a sign is no number's text. -/
theorem text_ne_word {word : String} (none : Numeral.ofText? word = none)
    (letters : (word.toList.any fun c => !c.isDigit && c ≠ '-') = true)
    (other : word ∉ [".nan", "-.inf", ".inf"]) (n : Amount) : n.text ≠ word := by
  rcases n with n | x
  · rintro rfl
    obtain ⟨c, member, letter⟩ := List.any_eq_true.mp letters
    rcases isDigit_or_minus_of_mem_toString member with digit | rfl
    · rw [digit] at letter
      cases letter
    · exact absurd letter (by decide)
  · cases finite : x.isFinite
    · rw [text_of_infinite finite]
      rintro rfl
      exact other (special_mem x)
    · rw [text_of_finite finite]
      exact text_ne_of_ofText? none _ x

end Groundwork.Yaml.Amount
