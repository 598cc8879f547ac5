import Groundwork.Placeholder
import Mathlib.Data.List.TakeWhile
import Mathlib.Order.Basic

set_option autoImplicit false

/- Texts around placeholders. A text is plain when no placeholder stands in it. Every text can be
written in just one way as plain texts around placeholders, and splitting it finds this way: two
placeholders never overlap, so one that is missed would stand whole in one of the texts between the
others. -/
namespace Groundwork.Placeholder

def IsLetter (c : Char) : Prop := ('A' ≤ c ∧ c ≤ 'Z') ∨ ('a' ≤ c ∧ c ≤ 'z') ∨ c = '_'

def IsLetterOrDigit (c : Char) : Prop := IsLetter c ∨ ('0' ≤ c ∧ c ≤ '9')

/-- A letter or an underscore, then letters, underscores and digits. -/
def IsName (name : String) : Prop :=
  ∃ c rest, name.toList = c :: rest ∧ IsLetter c ∧ ∀ d ∈ rest, IsLetterOrDigit d

theorem isAlpha_iff (c : Char) :
    c.isAlpha = true ↔ ('A' ≤ c ∧ c ≤ 'Z') ∨ ('a' ≤ c ∧ c ≤ 'z') := by
  have ranges : c.isAlpha =
    (decide ('A' ≤ c ∧ c ≤ 'Z') || (decide ('a' ≤ c) && decide (c ≤ 'z'))) := rfl
  simp only [ranges, Bool.or_eq_true, Bool.and_eq_true, decide_eq_true_eq]

theorem isNameStart_iff (c : Char) : isNameStart c = true ↔ IsLetter c := by
  simp only [isNameStart, IsLetter, isAlpha_iff, Bool.or_eq_true, Bool.and_eq_true,
    decide_eq_true_eq, Char.le_def, UInt32.le_iff_toNat_le, Char.toNat]
  constructor
  · rintro (⟨-, upper | lower⟩ | underscore)
    · exact .inl upper
    · exact .inr (.inl lower)
    · exact .inr (.inr underscore)
  · rintro (upper | lower | underscore)
    · refine .inl ⟨?_, .inl upper⟩
      have last : c.val.toNat ≤ 90 := upper.2
      omega
    · refine .inl ⟨?_, .inr lower⟩
      have last : c.val.toNat ≤ 122 := lower.2
      omega
    · exact .inr underscore

theorem isNameChar_iff (c : Char) : isNameChar c = true ↔ IsLetterOrDigit c := by
  simp only [isNameChar, IsLetterOrDigit, Bool.or_eq_true, isNameStart_iff, Char.isDigit,
    Bool.and_eq_true, decide_eq_true_eq, Char.le_def]

theorem IsName.chars {name : String} (named : IsName name) :
    ∀ c ∈ name.toList, IsLetterOrDigit c := by
  obtain ⟨first, rest, chars, starts, others⟩ := named
  rw [chars]
  intro c member
  rcases List.mem_cons.mp member with rfl | later
  · exact .inl starts
  · exact others c later

theorem not_isLetterOrDigit_open : ¬ IsLetterOrDigit '<' := by
  rw [← isNameChar_iff]
  decide

/-- A placeholder is found behind its opening bracket exactly if a name and a closing bracket stand
there. -/
theorem field?_eq_some_iff {cs name rest : List Char} :
    field? cs = some (name, rest) ↔ IsName (String.ofList name) ∧ cs = name ++ '>' :: rest := by
  constructor
  · intro found
    have whole := List.takeWhile_append_dropWhile (p := isNameChar) (l := cs)
    unfold field? at found
    split at found
    · rename_i c more after taken dropped
      split at found
      · rename_i starts
        cases found
        rw [taken, dropped] at whole
        refine ⟨⟨c, more, String.toList_ofList, (isNameStart_iff c).mp starts, ?_⟩, whole.symm⟩
        intro d member
        have inside : d ∈ cs.takeWhile isNameChar := taken ▸ List.mem_cons_of_mem c member
        exact (isNameChar_iff d).mp (List.mem_takeWhile_imp inside)
      · contradiction
    · contradiction
  · rintro ⟨named, rfl⟩
    have chars : ∀ c ∈ name, isNameChar c = true := by
      intro c member
      rw [isNameChar_iff]
      exact named.chars c (String.toList_ofList ▸ member)
    have taken : (name ++ '>' :: rest).takeWhile isNameChar = name := by
      rw [List.takeWhile_append_of_pos chars, List.takeWhile_cons_of_neg (by decide),
        List.append_nil]
    have dropped : (name ++ '>' :: rest).dropWhile isNameChar = '>' :: rest := by
      rw [List.dropWhile_append_of_pos chars, List.dropWhile_cons_of_neg (by decide)]
    obtain ⟨c, more, first, starts, -⟩ := named
    rw [String.toList_ofList] at first
    subst first
    unfold field?
    rw [taken, dropped]
    exact if_pos ((isNameStart_iff c).mpr starts)

theorem field?_named {name : String} (named : IsName name) (rest : List Char) :
    field? (name.toList ++ '>' :: rest) = some (name.toList, rest) := by
  refine field?_eq_some_iff.mpr ⟨?_, rfl⟩
  rw [String.ofList_toList]
  exact named

theorem field?_eq_none_iff {cs : List Char} :
    field? cs = none ↔ ∀ name rest, IsName name → cs ≠ name.toList ++ '>' :: rest := by
  constructor
  · rintro unfound name rest named rfl
    rw [field?_named named] at unfound
    cases unfound
  · intro other
    by_contra found
    obtain ⟨⟨name, rest⟩, found⟩ := Option.ne_none_iff_exists'.mp found
    obtain ⟨named, same⟩ := field?_eq_some_iff.mp found
    exact other (String.ofList name) rest named (String.toList_ofList ▸ same)

theorem written_append (name : String) (rest : List Char) :
    written name ++ rest = '<' :: (name.toList ++ '>' :: rest) := by
  simp [written]

/-- No placeholder stands in the text. -/
def Plain (cs : List Char) : Prop :=
  ∀ before name after, IsName name → cs ≠ before ++ (written name ++ after)

theorem plain_nil : Plain [] := by
  intro before name after _ same
  rw [written_append] at same
  exact absurd same.symm (List.append_ne_nil_of_right_ne_nil before (List.cons_ne_nil _ _))

/-- A placeholder stands at the front of a text or behind its first character. -/
theorem plain_cons_iff {c : Char} {cs : List Char} :
    Plain (c :: cs) ↔ Plain cs ∧ (c = '<' → field? cs = none) := by
  constructor
  · refine fun plain => ⟨?_, ?_⟩
    · rintro before name after named rfl
      exact plain (c :: before) name after named rfl
    · rintro rfl
      refine field?_eq_none_iff.mpr fun name rest named same => plain [] name rest named ?_
      rw [List.nil_append, written_append, same]
  · rintro ⟨plain, front⟩ before name after named same
    cases before with
    | nil =>
        rw [List.nil_append, written_append] at same
        obtain ⟨opens, behind⟩ := List.cons.inj same
        exact field?_eq_none_iff.mp (front opens) name after named behind
    | cons first before => exact plain before name after named (List.cons.inj same).2

theorem Plain.tail {c : Char} {cs : List Char} (plain : Plain (c :: cs)) : Plain cs :=
  (plain_cons_iff.mp plain).1

namespace Split

theorem fillWith_cons (c : Char) (s : Split) (f : String → List Char) :
    (s.cons c).fillWith f = c :: s.fillWith f := rfl

theorem fillWith_opening (field : String) (s : Split) (f : String → List Char) :
    (s.opening field).fillWith f = f field ++ s.fillWith f := by
  simp [opening, fillWith]

/-- The text is written as plain texts around placeholders. -/
structure Divides (s : Split) (text : List Char) : Prop where
  whole : text = s.fillWith written
  names : ∀ f ∈ s.fields, IsName f
  lead : Plain s.lead
  parts : ∀ p ∈ s.parts, Plain p.2

/-- Nothing, a placeholder with what follows it, or a character with what follows it. -/
theorem cases (s : Split) :
    s = ⟨[], []⟩ ∨ (∃ field rest, s = opening field rest) ∨ ∃ c rest, s = cons c rest := by
  rcases s with ⟨_ | ⟨c, lead⟩, parts⟩
  · rcases parts with _ | ⟨⟨field, t⟩, parts⟩
    · exact .inl rfl
    · exact .inr (.inl ⟨field, ⟨t, parts⟩, rfl⟩)
  · exact .inr (.inr ⟨c, ⟨lead, parts⟩, rfl⟩)

theorem divides_nil_iff {text : List Char} : Divides ⟨[], []⟩ text ↔ text = [] := by
  constructor
  · exact fun divides => divides.whole
  · rintro rfl
    exact ⟨rfl, fun _ member => (nomatch member), plain_nil, fun _ member => (nomatch member)⟩

theorem divides_opening_iff {field : String} {s : Split} {text : List Char} :
    (s.opening field).Divides text ↔
      IsName field ∧ ∃ rest, text = written field ++ rest ∧ s.Divides rest := by
  constructor
  · rintro ⟨whole, names, -, parts⟩
    refine ⟨names field List.mem_cons_self, s.fillWith written, ?_, rfl, ?_, ?_, ?_⟩
    · rw [whole, fillWith_opening]
    · exact fun f member => names f (List.mem_cons_of_mem field member)
    · exact parts (field, s.lead) List.mem_cons_self
    · exact fun p member => parts p (List.mem_cons_of_mem _ member)
  · rintro ⟨named, rest, rfl, whole, names, lead, parts⟩
    refine ⟨?_, ?_, plain_nil, ?_⟩
    · rw [fillWith_opening, whole]
    · exact List.forall_mem_cons.mpr ⟨named, names⟩
    · exact List.forall_mem_cons.mpr ⟨lead, parts⟩

theorem divides_cons_iff {c : Char} {s : Split} {text : List Char} :
    (s.cons c).Divides text ↔
      Plain (c :: s.lead) ∧ ∃ rest, text = c :: rest ∧ s.Divides rest := by
  constructor
  · rintro ⟨whole, names, lead, parts⟩
    exact ⟨lead, s.fillWith written, whole, rfl, names, lead.tail, parts⟩
  · rintro ⟨plain, rest, rfl, whole, names, -, parts⟩
    exact ⟨by rw [fillWith_cons, whole], names, plain, parts⟩

end Split

open Split (Divides)

/-- A character that opens no placeholder belongs to the text in front. -/
theorem exists_cons_of_divides {s : Split} {c : Char} {rest : List Char}
    (divides : s.Divides (c :: rest)) (other : c ≠ '<') :
    ∃ t : Split, s = t.cons c ∧ t.Divides rest := by
  rcases s.cases with rfl | ⟨field, t, rfl⟩ | ⟨first, t, rfl⟩
  · cases Split.divides_nil_iff.mp divides
  · obtain ⟨-, more, whole, -⟩ := Split.divides_opening_iff.mp divides
    rw [written_append] at whole
    exact absurd (List.cons.inj whole).1 other
  · obtain ⟨-, more, whole, divides⟩ := Split.divides_cons_iff.mp divides
    obtain ⟨rfl, rfl⟩ := List.cons.inj whole
    exact ⟨t, rfl, divides⟩

theorem exists_lead_of_divides {s : Split} {run rest : List Char}
    (divides : s.Divides (run ++ rest)) (noOpen : '<' ∉ run) :
    ∃ more, s.lead = run ++ more := by
  induction run generalizing s with
  | nil => exact ⟨s.lead, rfl⟩
  | cons c run ih =>
      obtain ⟨other, later⟩ := not_or.mp fun member => noOpen (List.mem_cons.mpr member)
      obtain ⟨t, rfl, behind⟩ := exists_cons_of_divides divides (Ne.symm other)
      obtain ⟨more, same⟩ := ih behind later
      exact ⟨more, congrArg (c :: ·) same⟩

/-- A placeholder at the front of a text is a placeholder of each of its divisions. -/
theorem exists_opening_of_divides {s : Split} {name : String} {rest : List Char}
    (divides : s.Divides (written name ++ rest)) (named : IsName name) :
    ∃ t : Split, s = t.opening name ∧ t.Divides rest := by
  have found := field?_named named rest
  rw [written_append] at divides
  rcases s.cases with rfl | ⟨field, t, rfl⟩ | ⟨first, t, rfl⟩
  · cases Split.divides_nil_iff.mp divides
  · obtain ⟨other, more, whole, divides⟩ := Split.divides_opening_iff.mp divides
    rw [written_append] at whole
    have again := field?_named other more
    rw [← (List.cons.inj whole).2, found] at again
    obtain ⟨names, rfl⟩ := Prod.mk.inj (Option.some.inj again)
    rw [String.toList_inj.mp names]
    exact ⟨t, rfl, divides⟩
  · obtain ⟨plain, more, whole, divides⟩ := Split.divides_cons_iff.mp divides
    obtain ⟨rfl, rfl⟩ := List.cons.inj whole
    -- The bracket would belong to the text in front, and so would all that follows up to the next one.
    have run : '<' ∉ name.toList ++ ['>'] := by
      intro member
      rcases List.mem_append.mp member with inside | last
      · exact not_isLetterOrDigit_open (named.chars _ inside)
      · exact absurd (List.mem_singleton.mp last) (by decide)
    rw [List.append_cons] at divides
    obtain ⟨behind, same⟩ := exists_lead_of_divides divides run
    refine absurd ?_ (plain [] name behind named)
    rw [List.nil_append, written_append, same, List.append_assoc, List.singleton_append]

/-- No text has two divisions. -/
theorem eq_split_of_divides {s : Split} {text : List Char} (divides : s.Divides text) :
    s = split text := by
  -- Along the scan; at each of its steps the division has to begin in the same way.
  fun_induction split text generalizing s with
  | case1 =>
      rcases s.cases with rfl | ⟨field, t, rfl⟩ | ⟨first, t, rfl⟩
      · rfl
      · obtain ⟨-, rest, whole, -⟩ := Split.divides_opening_iff.mp divides
        rw [written_append] at whole
        cases whole
      · obtain ⟨-, rest, whole, -⟩ := Split.divides_cons_iff.mp divides
        cases whole
  | case2 rest name after found _ ih =>
      obtain ⟨named, rfl⟩ := field?_eq_some_iff.mp found
      have front : '<' :: (name ++ '>' :: after) = written (String.ofList name) ++ after := by
        rw [written_append, String.toList_ofList]
      rw [front] at divides
      obtain ⟨t, rfl, behind⟩ := exists_opening_of_divides divides named
      rw [ih behind]
  | case3 rest none ih =>
      rcases s.cases with rfl | ⟨field, t, rfl⟩ | ⟨first, t, rfl⟩
      · cases Split.divides_nil_iff.mp divides
      · obtain ⟨named, more, whole, -⟩ := Split.divides_opening_iff.mp divides
        rw [written_append] at whole
        exact absurd (List.cons.inj whole).2 (field?_eq_none_iff.mp none field more named)
      · obtain ⟨-, more, whole, behind⟩ := Split.divides_cons_iff.mp divides
        obtain ⟨rfl, rfl⟩ := List.cons.inj whole
        rw [ih behind]
  | case4 c rest other ih =>
      obtain ⟨t, rfl, behind⟩ := exists_cons_of_divides divides other
      rw [ih behind]

theorem divides_split (text : List Char) : (split text).Divides text := by
  fun_induction split text with
  | case1 => exact Split.divides_nil_iff.mpr rfl
  | case2 rest name after found _ ih =>
      obtain ⟨named, rfl⟩ := field?_eq_some_iff.mp found
      refine Split.divides_opening_iff.mpr ⟨named, after, ?_, ih⟩
      rw [written_append, String.toList_ofList]
  | case3 rest none ih =>
      refine Split.divides_cons_iff.mpr ⟨plain_cons_iff.mpr ⟨ih.lead, fun _ => ?_⟩, rest, rfl, ih⟩
      refine field?_eq_none_iff.mpr fun name after named same => ?_
      -- A name in the text in front would have been found in the whole rest as well.
      have whole := ih.whole
      rw [Split.fillWith, same, List.append_assoc, List.cons_append] at whole
      exact field?_eq_none_iff.mp none name _ named whole
  | case4 c rest other ih =>
      exact Split.divides_cons_iff.mpr
        ⟨plain_cons_iff.mpr ⟨ih.lead, fun opens => absurd opens other⟩, rest, rfl, ih⟩

theorem existsUnique_divides (text : List Char) : ∃! s : Split, s.Divides text :=
  ⟨split text, divides_split text, fun _ divides => eq_split_of_divides divides⟩

end Groundwork.Placeholder
