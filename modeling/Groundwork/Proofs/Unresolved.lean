import Groundwork.Proofs.Filling

set_option autoImplicit false

/- What filling leaves. Where no opening bracket waits in front of a placeholder and no literal
brings one of its own, no placeholder arises across the seams of a filled text. So the placeholders
that stand in it are those that were left alone, and filling it again changes nothing. -/
namespace Groundwork.Placeholder

/-- No opening bracket at the end of the text waits for the rest of a name. -/
def Closed (cs : List Char) : Prop :=
  ∀ before run, cs = before ++ '<' :: run → ∃ c ∈ run, ¬ IsLetterOrDigit c

/-- No opening bracket is followed by a placeholder with letters, underscores and digits only, or with
nothing, in between. -/
def Apart (cs : List Char) : Prop :=
  ∀ before run name after, (∀ c ∈ run, IsLetterOrDigit c) → IsName name →
    cs ≠ before ++ '<' :: (run ++ (written name ++ after))

theorem Closed.tail {c : Char} {cs : List Char} (closed : Closed (c :: cs)) : Closed cs :=
  fun before run whole => closed (c :: before) run (congrArg (c :: ·) whole)

theorem closed_of_noOpen {cs : List Char} (noOpen : '<' ∉ cs) : Closed cs := by
  rintro before run rfl
  exact absurd (List.mem_append_right before List.mem_cons_self) noOpen

theorem plain_of_noOpen {cs : List Char} (noOpen : '<' ∉ cs) : Plain cs := by
  rintro before name after - rfl
  rw [written_append] at noOpen
  exact noOpen (List.mem_append_right before List.mem_cons_self)

/-- Once a character has come that no name holds, what follows makes no name of a text. -/
theorem field?_append_eq_none {cs more : List Char} (unfound : field? cs = none)
    (ends : ∃ c ∈ cs, ¬ IsLetterOrDigit c) : field? (cs ++ more) = none := by
  refine field?_eq_none_iff.mpr fun name rest named whole => ?_
  obtain ⟨c, member, other⟩ := ends
  have chars : c ∉ name.toList := fun inside => other (named.chars c inside)
  rcases List.append_eq_append_iff.mp whole with ⟨a, longer, -⟩ | ⟨b, rfl, behind⟩
  · exact chars (longer ▸ List.mem_append_left a member)
  · cases b with
    | nil => exact chars (List.append_nil name.toList ▸ member)
    | cons d b =>
        obtain ⟨rfl, -⟩ := List.cons.inj behind
        exact field?_eq_none_iff.mp unfound name b named rfl

theorem Plain.append {front back : List Char} (plain : Plain front) (closed : Closed front)
    (behind : Plain back) : Plain (front ++ back) := by
  induction front with
  | nil => exact behind
  | cons c front ih =>
      obtain ⟨later, first⟩ := plain_cons_iff.mp plain
      refine plain_cons_iff.mpr ⟨ih later closed.tail, fun opens => ?_⟩
      exact field?_append_eq_none (first opens) (closed [] front (congrArg (· :: front) opens))

/-- Whether a placeholder stands behind the letters, underscores and digits at the front. -/
def leads (cs : List Char) : Bool :=
  match cs.dropWhile isNameChar with
  | '<' :: rest => (field? rest).isSome
  | _ => false

theorem leads_iff {cs : List Char} :
    leads cs = true ↔ ∃ run name after, (∀ c ∈ run, IsLetterOrDigit c) ∧ IsName name ∧
      cs = run ++ (written name ++ after) := by
  constructor
  · intro found
    have whole := List.takeWhile_append_dropWhile (p := isNameChar) (l := cs)
    unfold leads at found
    split at found
    · rename_i rest dropped
      obtain ⟨⟨name, after⟩, placed⟩ := Option.isSome_iff_exists.mp found
      obtain ⟨named, rfl⟩ := field?_eq_some_iff.mp placed
      refine ⟨cs.takeWhile isNameChar, String.ofList name, after, ?_, named, ?_⟩
      · exact fun c member => (isNameChar_iff c).mp (List.mem_takeWhile_imp member)
      · rw [written_append, String.toList_ofList, ← dropped, whole]
    · contradiction
  · rintro ⟨run, name, after, chars, named, rfl⟩
    have dropped : (run ++ (written name ++ after)).dropWhile isNameChar =
        '<' :: (name.toList ++ '>' :: after) := by
      rw [List.dropWhile_append_of_pos fun c member => (isNameChar_iff c).mpr (chars c member),
        written_append, List.dropWhile_cons_of_neg (by decide)]
    unfold leads
    rw [dropped]
    exact congrArg Option.isSome (field?_named named after)

theorem apart_nil : Apart [] := by
  intro before run name after _ _ same
  exact absurd same.symm (List.append_ne_nil_of_right_ne_nil before (List.cons_ne_nil _ _))

theorem apart_cons_iff {c : Char} {cs : List Char} :
    Apart (c :: cs) ↔ Apart cs ∧ (c = '<' → leads cs = false) := by
  constructor
  · refine fun apart => ⟨?_, ?_⟩
    · rintro before run name after chars named rfl
      exact apart (c :: before) run name after chars named rfl
    · rintro rfl
      by_contra found
      obtain ⟨run, name, after, chars, named, rfl⟩ := leads_iff.mp (eq_true_of_ne_false found)
      exact apart [] run name after chars named rfl
  · rintro ⟨apart, front⟩ before run name after chars named same
    cases before with
    | nil =>
        obtain ⟨opens, rfl⟩ := List.cons.inj same
        exact Bool.eq_false_iff.mp (front opens) (leads_iff.mpr ⟨run, name, after, chars, named, rfl⟩)
    | cons first before => exact apart before run name after chars named (List.cons.inj same).2

instance decidableApart : (cs : List Char) → Decidable (Apart cs)
  | [] => .isTrue apart_nil
  | _ :: cs =>
      have := decidableApart cs
      decidable_of_iff _ apart_cons_iff.symm

theorem Apart.of_append {front back : List Char} (apart : Apart (front ++ back)) : Apart back := by
  rintro before run name after chars named rfl
  exact apart (front ++ before) run name after chars named (List.append_assoc ..).symm

theorem Apart.closed {cs rest : List Char} {name : String}
    (apart : Apart (cs ++ (written name ++ rest))) (named : IsName name) : Closed cs := by
  rintro before run rfl
  by_contra all
  push Not at all
  refine apart before run name rest all named ?_
  rw [List.append_assoc, List.cons_append]

namespace Split

/-- Puts a text in front. -/
def prepend (cs : List Char) (s : Split) : Split := { s with lead := cs ++ s.lead }

/-- The division around those placeholders that are kept. The others become text. -/
def settle (keep : String → Bool) (r : String → List Char) (lead : List Char) :
    List (String × List Char) → Split
  | [] => ⟨lead, []⟩
  | (f, t) :: parts =>
      if keep f then ((settle keep r t parts).opening f).prepend lead
      else ((settle keep r t parts).prepend (r f)).prepend lead

variable {keep : String → Bool} {r q : String → List Char}

theorem fillWith_prepend (cs : List Char) (s : Split) :
    (s.prepend cs).fillWith r = cs ++ s.fillWith r := List.append_assoc ..

theorem fillWith_part (lead t : List Char) (f : String) (parts : List (String × List Char)) :
    (⟨lead, (f, t) :: parts⟩ : Split).fillWith r =
      lead ++ (r f ++ (⟨t, parts⟩ : Split).fillWith r) := by
  simp [fillWith]

theorem fields_settle (lead : List Char) (parts : List (String × List Char)) :
    (settle keep r lead parts).fields = (parts.map (·.1)).filter keep := by
  induction parts generalizing lead with
  | nil => rfl
  | cons p parts ih =>
      unfold settle
      rw [List.map_cons, List.filter_cons]
      split
      · exact congrArg (p.1 :: ·) (ih p.2)
      · exact ih p.2

/-- What was settled and what is filled in later come to one filling. -/
theorem fillWith_settle (lead : List Char) (parts : List (String × List Char)) :
    (settle keep r lead parts).fillWith q =
      (⟨lead, parts⟩ : Split).fillWith fun f => if keep f then q f else r f := by
  induction parts generalizing lead with
  | nil => rfl
  | cons p parts ih =>
      unfold settle
      rw [fillWith_part]
      split
      · rw [fillWith_prepend, fillWith_opening, ih]
      · rw [fillWith_prepend, fillWith_prepend, ih]

/-- No placeholder arises across a seam. -/
theorem plain_settle {lead : List Char} {parts : List (String × List Char)}
    (divides : (⟨lead, parts⟩ : Split).Divides ((⟨lead, parts⟩ : Split).fillWith written))
    (apart : Apart ((⟨lead, parts⟩ : Split).fillWith written))
    (bare : ∀ f ∈ parts.map (·.1), keep f = false → '<' ∉ r f) :
    Plain (settle keep r lead parts).lead ∧ ∀ p ∈ (settle keep r lead parts).parts, Plain p.2 := by
  induction parts generalizing lead with
  | nil => exact ⟨divides.lead, fun _ member => (nomatch member)⟩
  | cons p parts ih =>
      obtain ⟨f, t⟩ := p
      obtain ⟨named, names⟩ := List.forall_mem_cons.mp divides.names
      obtain ⟨plain, plains⟩ := List.forall_mem_cons.mp divides.parts
      obtain ⟨literal, literals⟩ := List.forall_mem_cons.mp bare
      rw [fillWith_part] at apart
      obtain ⟨settled, others⟩ :=
        ih ⟨rfl, names, plain, plains⟩ apart.of_append.of_append literals
      unfold settle
      split
      · refine ⟨?_, List.forall_mem_cons.mpr ⟨settled, others⟩⟩
        exact (congrArg Plain (List.append_nil lead)).mpr divides.lead
      · rename_i dropped
        have noOpen := literal (Bool.eq_false_iff.mpr dropped)
        -- Two seams: in front of the literal no bracket waits, and the literal itself opens none.
        refine ⟨divides.lead.append (apart.closed named) ?_, others⟩
        exact (plain_of_noOpen noOpen).append (closed_of_noOpen noOpen) settled

end Split

/-- The field is absent or null. -/
def isUnset (fields : Fields) (f : String) : Bool := (fields.get? f).all (·.isNull)

theorem isUnset_iff {fields : Fields} {f : String} :
    isUnset fields f = true ↔ fields.get? f = none ∨ fields.get? f = some .null := by
  unfold isUnset
  rcases fields.get? f with _ | v
  · exact ⟨fun _ => .inl rfl, fun _ => rfl⟩
  · cases v <;> simp [Value.isNull]

theorem standIn_of_unset {fields : Fields} {f : String} (unset : isUnset fields f = true) :
    standIn fields f = written f := (Stands.kept (isUnset_iff.mp unset)).eq_standIn.symm

theorem standIn_of_set {fields : Fields} {f : String} (given : isUnset fields f = false)
    (fillable : ∀ kind, ¬ Unfillable fields f kind) :
    ∃ literal, Literal.ofField? f (fields.get? f) = .ok (some literal) ∧
      standIn fields f = literal.toList := by
  rcases outcome : Literal.ofField? f (fields.get? f) with kind | _ | literal
  · exact absurd (unfillable_iff.mpr outcome) (fillable kind)
  · rw [isUnset_iff.mpr (Literal.ofField?_eq_ok_none_iff.mp outcome)] at given
    cases given
  · exact ⟨literal, rfl, by rw [standIn, outcome]⟩

variable {text filled : String} {fields : Fields}

/-- The division of a filled text. -/
theorem split_fill (success : fill text fields = .ok filled)
    (bare : ∀ f ∈ fieldsOf text, ∀ literal,
      Literal.ofField? f (fields.get? f) = .ok (some literal) → '<' ∉ literal.toList)
    (apart : Apart text.toList) :
    split filled.toList = Split.settle (isUnset fields) (standIn fields)
      (split text.toList).lead (split text.toList).parts := by
  obtain ⟨fillable, whole⟩ := fill_eq_ok_iff.mp success
  have divides := divides_split text.toList
  have names : ∀ f ∈ (fieldsOf text).filter (isUnset fields), IsName f :=
    fun f member => divides.names f (List.mem_of_mem_filter member)
  rw [divides.whole] at apart
  obtain ⟨lead, parts⟩ := Split.plain_settle ⟨rfl, divides.names, divides.lead, divides.parts⟩ apart
    (r := standIn fields) fun f member given => by
      obtain ⟨literal, spelled, stands⟩ := standIn_of_set given (fillable f member)
      exact stands ▸ bare f member literal spelled
  refine (eq_split_of_divides ⟨?_, Split.fields_settle _ _ ▸ names, lead, parts⟩).symm
  rw [whole, Split.fillWith_settle]
  refine Split.fillWith_congr fun f _ => ?_
  split
  · rename_i unset
    exact standIn_of_unset unset
  · rfl

/-- The placeholders that stand in a filled text are those whose field is absent or null, in order and with
repetitions. If every field has a value none is left. Filling the text again changes nothing. A closing
bracket in a literal does no harm. -/
theorem fieldsOf_fill (success : fill text fields = .ok filled)
    (bare : ∀ f ∈ fieldsOf text, ∀ literal,
      Literal.ofField? f (fields.get? f) = .ok (some literal) → '<' ∉ literal.toList)
    (apart : Apart text.toList) :
    fieldsOf filled = (fieldsOf text).filter (isUnset fields) ∧
    ((∀ f ∈ fieldsOf text, isUnset fields f = false) → fieldsOf filled = []) ∧
    fill filled fields = .ok filled := by
  have division := split_fill success bare apart
  have remaining : fieldsOf filled = (fieldsOf text).filter (isUnset fields) := by
    rw [fieldsOf, division, Split.fields_settle]
    rfl
  obtain ⟨fillable, whole⟩ := fill_eq_ok_iff.mp success
  refine ⟨remaining, fun given => ?_, fill_eq_ok_iff.mpr ⟨fun f member => ?_, ?_⟩⟩
  · rw [remaining, List.filter_eq_nil_iff]
    exact fun f member => Bool.eq_false_iff.mp (given f member)
  · rw [remaining] at member
    exact fillable f (List.mem_of_mem_filter member)
  · rw [division, Split.fillWith_settle, whole]
    exact Split.fillWith_congr fun f _ => (ite_self _).symm

/-- A null field and an absent one keep their placeholders. A heredoc does not stand in the way. -/
theorem fieldsOf_fill_heredoc :
    fill "n = <size> <<EOF <tag> <size> <zone>" [("tag", .null), ("size", .bool true)] =
      .ok "n = true <<EOF <tag> true <zone>" ∧
    Apart "n = <size> <<EOF <tag> <size> <zone>".toList ∧
    fieldsOf "n = true <<EOF <tag> true <zone>" = ["tag", "zone"] ∧
    fill "n = true <<EOF <tag> true <zone>" [("tag", .null), ("size", .bool true)] =
      .ok "n = true <<EOF <tag> true <zone>" := by
  have success : fill "n = <size> <<EOF <tag> <size> <zone>" [("tag", .null), ("size", .bool true)] =
      .ok "n = true <<EOF <tag> true <zone>" := by
    decide +kernel
  have apart : Apart "n = <size> <<EOF <tag> <size> <zone>".toList := by decide +kernel
  have names : fieldsOf "n = <size> <<EOF <tag> <size> <zone>" = ["size", "tag", "size", "zone"] := by
    decide +kernel
  have bare : ∀ f ∈ fieldsOf "n = <size> <<EOF <tag> <size> <zone>", ∀ literal,
      Literal.ofField? f (Dict.get? [("tag", .null), ("size", .bool true)] f) = .ok (some literal) →
        '<' ∉ literal.toList := by
    rw [names]
    intro f member literal spelled
    simp only [List.mem_cons, List.not_mem_nil, or_false] at member
    rcases member with rfl | rfl | rfl | rfl <;> cases spelled <;> decide
  obtain ⟨remaining, -, again⟩ := fieldsOf_fill success bare apart
  refine ⟨success, apart, ?_, again⟩
  rw [remaining, names]
  decide +kernel

end Groundwork.Placeholder
