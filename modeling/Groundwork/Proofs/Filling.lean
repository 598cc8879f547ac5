import Groundwork.Proofs.Outcome
import Groundwork.Proofs.Placeholder
import Mathlib.Data.List.Basic

set_option autoImplicit false

/- Filled texts. What stands between the placeholders of a text is kept, and every placeholder is
replaced by itself or by the literal of its field. The first field that has a value without a
literal is reported, whatever else the fields hold. -/
namespace Groundwork

namespace Literal

/-- What has no literal inside a list, and outside of one if it is no list itself. -/
def composites : List Kind := [.null, .list, .mapping]

/-- A value without a literal, and the kind of what has none in it: a mapping that is no variable, or the
first item of a list that is null, a list or such a mapping. -/
inductive Lacking : Value → Kind → Prop
  | mapping (fields : List (String × Value)) : Lacking (.map fields) .mapping
  | item {before after : List Value} {item : Value}
      (scalars : ∀ v ∈ before, v.kind ∉ composites) (composite : item.kind ∈ composites) :
      Lacking (.list (before ++ item :: after)) item.kind

theorem exists_ofScalar_iff {field : String} {v : Value} :
    (∃ literal, ofScalar field v = .ok literal) ↔ v.kind ∉ composites := by
  cases v <;> simp [ofScalar, composites, Value.kind]

theorem ofScalar_eq_error_iff {field : String} {v : Value} {kind : Kind} :
    ofScalar field v = .error kind ↔ v.kind ∈ composites ∧ v.kind = kind := by
  cases v <;> simp [ofScalar, composites, Value.kind]

/-- Exactly the values that lack a literal have none. -/
theorem ofField?_eq_error_iff {field : String} {v : Value} {kind : Kind} :
    ofField? field (some v) = .error kind ↔ Lacking v kind := by
  constructor
  · intro failed
    cases v with
    | list items =>
        obtain ⟨before, item, after, rfl, passed, failed⟩ :=
          Except.mapM_eq_error_iff.mp (Except.bind_pure_eq_error_iff.mp failed)
        obtain ⟨composite, rfl⟩ := ofScalar_eq_error_iff.mp failed
        exact .item (fun v member => exists_ofScalar_iff.mp (passed v member)) composite
    | map fields =>
        cases failed
        exact .mapping fields
    | _ => cases failed
  · rintro (⟨fields⟩ | ⟨scalars, composite⟩)
    · rfl
    · refine Except.bind_pure_eq_error_iff.mpr (Except.mapM_eq_error_iff.mpr ?_)
      exact ⟨_, _, _, rfl, fun v member => exists_ofScalar_iff.mpr (scalars v member),
        ofScalar_eq_error_iff.mpr ⟨composite, rfl⟩⟩

theorem ofField?_eq_ok_none_iff {field : String} {v : Option Value} :
    ofField? field v = .ok none ↔ v = none ∨ v = some .null := by
  constructor
  · intro kept
    rcases v with _ | v
    · exact .inl rfl
    · cases v with
      | null => exact .inr rfl
      | list items =>
          obtain ⟨literals, -, same⟩ := Except.bind_pure_eq_ok_iff.mp kept
          cases same
      | _ => cases kept
  · rintro (rfl | rfl)
    · rfl
    · rfl

end Literal

namespace Placeholder

/-- What stands in a filled text for the placeholder of a field: the placeholder itself where the field is
absent or null, and else the literal of the field's value. -/
inductive Stands (fields : Fields) (f : String) : List Char → Prop
  | kept (unset : fields.get? f = none ∨ fields.get? f = some .null) : Stands fields f (written f)
  | replaced {v : Value} {literal : String} (found : fields.get? f = some v)
      (spelled : Literal.ofField? f (some v) = .ok (some literal)) :
      Stands fields f literal.toList

/-- The field has a value without a literal. -/
def Unfillable (fields : Fields) (f : String) (kind : Kind) : Prop :=
  ∃ v, fields.get? f = some v ∧ Literal.Lacking v kind

/-- The text that takes a placeholder's place, if the field can be filled in. -/
def standIn (fields : Fields) (f : String) : List Char :=
  match Literal.ofField? f (fields.get? f) with
  | .ok (some literal) => literal.toList
  | _ => written f

theorem unfillable_iff {fields : Fields} {f : String} {kind : Kind} :
    Unfillable fields f kind ↔ Literal.ofField? f (fields.get? f) = .error kind := by
  constructor
  · rintro ⟨v, found, lacking⟩
    rw [found]
    exact Literal.ofField?_eq_error_iff.mpr lacking
  · intro failed
    rcases found : fields.get? f with _ | v
    · rw [found] at failed
      cases failed
    · rw [found] at failed
      exact ⟨v, found, Literal.ofField?_eq_error_iff.mp failed⟩

theorem Stands.eq_standIn {fields : Fields} {f : String} {cs : List Char}
    (stands : Stands fields f cs) : cs = standIn fields f := by
  unfold standIn
  cases stands with
  | kept unset => rw [Literal.ofField?_eq_ok_none_iff.mpr unset]
  | replaced found spelled => rw [found, spelled]

theorem stands_standIn {fields : Fields} {f : String}
    (fillable : ∀ kind, ¬ Unfillable fields f kind) : Stands fields f (standIn fields f) := by
  unfold standIn
  split
  · rename_i literal spelled
    rcases found : fields.get? f with _ | v
    · rw [found] at spelled
      cases spelled
    · rw [found] at spelled
      exact .replaced found spelled
  · rename_i other
    rcases outcome : Literal.ofField? f (fields.get? f) with kind | _ | literal
    · exact absurd (unfillable_iff.mpr outcome) (fillable kind)
    · exact .kept (Literal.ofField?_eq_ok_none_iff.mp outcome)
    · exact absurd outcome (other literal)

theorem fillPart_of_fillable {fields : Fields} {p : String × List Char}
    (fillable : ∀ kind, ¬ Unfillable fields p.1 kind) :
    fillPart fields p = .ok (standIn fields p.1 ++ p.2) := by
  unfold fillPart standIn
  rcases outcome : Literal.ofField? p.1 (fields.get? p.1) with kind | _ | literal
  · exact absurd (unfillable_iff.mpr outcome) (fillable kind)
  · rfl
  · rfl

theorem fillPart_eq_error_iff {fields : Fields} {p : String × List Char} {e : TemplateFault} :
    fillPart fields p = .error e ↔
      ∃ kind, Unfillable fields p.1 kind ∧ e = .unsupportedValue p.1 kind := by
  simp only [unfillable_iff]
  unfold fillPart
  rcases Literal.ofField? p.1 (fields.get? p.1) with kind | _ | literal
  · simp [eq_comm]
  · simp
  · simp

theorem Stands.fillable {fields : Fields} {f : String} {cs : List Char}
    (stands : Stands fields f cs) (kind : Kind) : ¬ Unfillable fields f kind := by
  rw [unfillable_iff]
  cases stands with
  | kept unset =>
      rw [Literal.ofField?_eq_ok_none_iff.mpr unset]
      exact fun failed => (nomatch failed)
  | replaced found spelled =>
      rw [found, spelled]
      exact fun failed => (nomatch failed)

theorem Split.fillWith_congr {s : Split} {r q : String → List Char}
    (same : ∀ f ∈ s.fields, r f = q f) : s.fillWith r = s.fillWith q := by
  refine congrArg (s.lead ++ ·) (List.flatMap_congr fun p member => ?_)
  rw [same p.1 (List.mem_map_of_mem member)]

theorem fillPart_congr {fields others : Fields} {p : String × List Char}
    (same : others.get? p.1 = fields.get? p.1) : fillPart others p = fillPart fields p := by
  unfold fillPart
  rw [same]

theorem fill_eq (text : String) (fields : Fields) :
    fill text fields = ((split text.toList).parts.mapM (fillPart fields) >>= fun parts =>
      pure (String.ofList ((split text.toList).lead ++ parts.flatten))) := rfl

/-- Only the fields that have a placeholder in the text are looked at. -/
theorem fill_congr {text : String} {fields others : Fields}
    (same : ∀ f ∈ fieldsOf text, others.get? f = fields.get? f) :
    fill text others = fill text fields := by
  have parts : (split text.toList).parts.mapM (fillPart others) =
      (split text.toList).parts.mapM (fillPart fields) :=
    Except.mapM_congr fun p member => fillPart_congr (same p.1 (List.mem_map_of_mem member))
  rw [fill_eq, fill_eq, parts]

theorem fill_eq_ok_iff {text filled : String} {fields : Fields} :
    fill text fields = .ok filled ↔
      (∀ f ∈ fieldsOf text, ∀ kind, ¬ Unfillable fields f kind) ∧
        filled.toList = (split text.toList).fillWith (standIn fields) := by
  have done (fillable : ∀ f ∈ fieldsOf text, ∀ kind, ¬ Unfillable fields f kind) :
      fill text fields = .ok (String.ofList ((split text.toList).fillWith (standIn fields))) := by
    rw [fill_eq, Except.mapM_eq_ok_of_forall fun p member =>
      fillPart_of_fillable (fillable p.1 (List.mem_map_of_mem member))]
    rfl
  constructor
  · intro success
    have fillable : ∀ f ∈ fieldsOf text, ∀ kind, ¬ Unfillable fields f kind := by
      intro f member kind lacking
      obtain ⟨p, inside, rfl⟩ := List.mem_map.mp member
      rw [fill_eq] at success
      obtain ⟨parts, passed, -⟩ := Except.bind_pure_eq_ok_iff.mp success
      obtain ⟨y, -, found⟩ := Except.exists_of_mapM_eq_ok passed inside
      rw [fillPart_eq_error_iff.mpr ⟨kind, lacking, rfl⟩] at found
      cases found
    rw [done fillable] at success
    exact ⟨fillable, by rw [← Except.ok.inj success, String.toList_ofList]⟩
  · rintro ⟨fillable, whole⟩
    rw [done fillable, ← whole, String.ofList_toList]

theorem fill_eq_error_iff {text : String} {fields : Fields} {e : TemplateFault} :
    fill text fields = .error e ↔ ∃ before f after kind, fieldsOf text = before ++ f :: after ∧
      (∀ g ∈ before, ∀ other, ¬ Unfillable fields g other) ∧ Unfillable fields f kind ∧
        e = .unsupportedValue f kind := by
  rw [fill_eq, Except.bind_pure_eq_error_iff, Except.mapM_eq_error_iff]
  constructor
  · rintro ⟨before, p, after, whole, passed, failed⟩
    obtain ⟨kind, lacking, rfl⟩ := fillPart_eq_error_iff.mp failed
    refine ⟨before.map (·.1), p.1, after.map (·.1), kind, ?_, ?_, lacking, rfl⟩
    · rw [fieldsOf, Split.fields, whole, List.map_append, List.map_cons]
    · intro g member other lacks
      obtain ⟨q, inside, rfl⟩ := List.mem_map.mp member
      obtain ⟨b, success⟩ := passed q inside
      rw [fillPart_eq_error_iff.mpr ⟨other, lacks, rfl⟩] at success
      cases success
  · rintro ⟨before, f, after, kind, whole, fillable, lacking, rfl⟩
    obtain ⟨front, back, parts, rfl, more⟩ := List.map_eq_append_iff.mp whole
    obtain ⟨p, behind, rfl, rfl, rfl⟩ := List.map_eq_cons_iff.mp more
    refine ⟨front, p, behind, parts, ?_, fillPart_eq_error_iff.mpr ⟨kind, lacking, rfl⟩⟩
    exact fun q member => ⟨_, fillPart_of_fillable (fillable q.1 (List.mem_map_of_mem member))⟩

/-- A text has one division. Filling keeps what stands between the placeholders and puts in place of each what
stands for its field. It fails exactly for a field whose value has no literal, and reports the first of
them; fields without a placeholder do not count. -/
theorem fill_of_divides (text : String) :
    (∃! s : Split, s.Divides text.toList) ∧
    ∀ s : Split, s.Divides text.toList → fieldsOf text = s.fields ∧ ∀ fields : Fields,
      (∀ filled, fill text fields = .ok filled ↔ ∃ r : String → List Char,
        (∀ f ∈ s.fields, Stands fields f (r f)) ∧ filled.toList = s.fillWith r) ∧
      ((∃ e, fill text fields = .error e) ↔ ∃ f ∈ s.fields, ∃ kind, Unfillable fields f kind) ∧
      (∀ e, fill text fields = .error e → ∃ before f after kind, s.fields = before ++ f :: after ∧
        (∀ g ∈ before, ∀ other, ¬ Unfillable fields g other) ∧ Unfillable fields f kind ∧
          e = .unsupportedValue f kind) ∧
      ∀ others : Fields, (∀ f ∈ s.fields, others.get? f = fields.get? f) →
        fill text others = fill text fields := by
  refine ⟨existsUnique_divides text.toList, fun s divides => ?_⟩
  obtain rfl := eq_split_of_divides divides
  refine ⟨rfl, fun fields => ⟨fun filled => ?_, ?_, fun e => fill_eq_error_iff.mp,
    fun others => fill_congr⟩⟩
  · rw [fill_eq_ok_iff]
    constructor
    · rintro ⟨fillable, whole⟩
      exact ⟨standIn fields, fun f member => stands_standIn (fillable f member), whole⟩
    · rintro ⟨r, stands, whole⟩
      refine ⟨fun f member => (stands f member).fillable, whole.trans ?_⟩
      exact Split.fillWith_congr fun f member => (stands f member).eq_standIn
  · constructor
    · rintro ⟨e, failed⟩
      obtain ⟨before, f, after, kind, whole, -, lacking, -⟩ := fill_eq_error_iff.mp failed
      have member : f ∈ fieldsOf text := whole ▸ List.mem_append_right before List.mem_cons_self
      exact ⟨f, member, kind, lacking⟩
    · rintro ⟨f, member, kind, lacking⟩
      rcases outcome : fill text fields with e | filled
      · exact ⟨e, rfl⟩
      · exact absurd lacking ((fill_eq_ok_iff.mp outcome).1 f member kind)

/-- A bracket in front of a placeholder and the marker of a heredoc are text, and so is a placeholder that a
value brings. -/
theorem fill_of_divides_nested :
    ∃ s : Split, s.Divides "<<host> <<EOF <a<port>".toList ∧ s.fields = ["host", "port"] ∧
      fill "<<host> <<EOF <a<port>" [("host", .string "_<port>")] = .ok "<<port> <<EOF <a<port>" ∧
      ∃ e, fill "<<host> <<EOF <a<port>" [("unused", .map []), ("host", .list [.null])] = .error e := by
  obtain ⟨⟨s, divides, -⟩, all⟩ := fill_of_divides "<<host> <<EOF <a<port>"
  have same := eq_split_of_divides divides
  have fields : s.fields = ["host", "port"] := same ▸ by decide +kernel
  obtain ⟨-, filling⟩ := all s divides
  refine ⟨s, divides, fields, ?_, ?_⟩
  · refine ((filling _).1 _).mpr
      ⟨fun f => if f = "host" then "<port>".toList else written f, ?_, same ▸ by decide +kernel⟩
    rw [fields]
    refine List.forall_mem_cons.mpr ⟨?_, List.forall_mem_singleton.mpr ?_⟩
    · exact .replaced rfl rfl
    · exact .kept (.inl rfl)
  · have lacking : Literal.Lacking (.list ([] ++ .null :: [])) (Value.kind .null) :=
      .item (fun _ member => (nomatch member)) List.mem_cons_self
    exact (filling _).2.1.mpr
      ⟨"host", fields ▸ List.mem_cons_self, .null, .list [.null], rfl, lacking⟩

end Placeholder

end Groundwork
