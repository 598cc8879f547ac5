import Groundwork.Proofs.Tagging
import Groundwork.Value.Datum

set_option autoImplicit false

/- Written values read back. Writing forgets which mappings were variables, and reading finds it out
again from their markers. So what was written can always be read, it differs at most in the
constructors of its mappings, and it is the same value exactly if every mapping stood under the
constructor that its marker asks for. -/
namespace Groundwork.Value

/-- What is read of the written `v`, if not `v` itself, is written in the same way. -/
structure Reread (v w : Value) : Prop where
  read : ofDatum (toDatum v) = .ok w
  again : toDatum w = toDatum v
  kept : v.Tagged → w = v

theorem exists_rereadItems {items : List Value} (each : ∀ v ∈ items, ∃ w, Reread v w) :
    ∃ ws, ofItems (toItems items) = .ok ws ∧ toItems ws = toItems items ∧
      ((∀ v ∈ items, v.Tagged) → ws = items) := by
  induction items with
  | nil => exact ⟨[], rfl, rfl, fun _ => rfl⟩
  | cons v rest ih =>
      obtain ⟨⟨w, first⟩, others⟩ := List.forall_mem_cons.mp each
      obtain ⟨ws, read, again, kept⟩ := ih others
      refine ⟨w :: ws, ?_, ?_, fun tagged => ?_⟩
      · rw [toItems, ofItems, first.read, read]
        rfl
      · rw [toItems, toItems, first.again, again]
      · obtain ⟨head, tail⟩ := List.forall_mem_cons.mp tagged
        rw [first.kept head, kept tail]

theorem exists_rereadEntries {fields : List (String × Value)}
    (each : ∀ entry ∈ fields, ∃ w, Reread entry.2 w) :
    ∃ es, ofEntries (toEntries fields) = .ok es ∧ toEntries es = toEntries fields ∧
      Dict.keys es = Dict.keys fields ∧ ((∀ entry ∈ fields, entry.2.Tagged) → es = fields) := by
  induction fields with
  | nil => exact ⟨[], rfl, rfl, rfl, fun _ => rfl⟩
  | cons entry rest ih =>
      obtain ⟨key, v⟩ := entry
      obtain ⟨⟨w, first⟩, others⟩ := List.forall_mem_cons.mp each
      obtain ⟨es, read, again, keys, kept⟩ := ih others
      refine ⟨(key, w) :: es, ?_, ?_, congrArg (key :: ·) keys, fun tagged => ?_⟩
      · rw [toEntries, ofEntries, first.read, read]
        rfl
      · rw [toEntries, toEntries, first.again, again]
      · obtain ⟨head, tail⟩ := List.forall_mem_cons.mp tagged
        have same : w = v := first.kept head
        rw [same, kept tail]

theorem toDatum_ofFields (fields : Fields) :
    toDatum (ofFields fields) = .mapping (toEntries fields) := by
  unfold ofFields
  split <;> rfl

theorem ofFields_of_marked {fields : Fields} (marked : fields.get? marker = some (.bool true)) :
    ofFields fields = .variable fields := if_pos (isMarked_iff.mpr marked)

theorem ofFields_of_unmarked {fields : Fields}
    (unmarked : fields.get? marker ≠ some (.bool true)) : ofFields fields = .map fields :=
  if_neg (mt isMarked_iff.mp unmarked)

/-- The written entries of a mapping, whichever its constructor, are read as a mapping again. -/
theorem exists_rereadMapping {fields : Fields} (distinct : Dict.Distinct fields)
    (each : ∀ entry ∈ fields, ∃ w, Reread entry.2 w) :
    ∃ es, ofDatum (.mapping (toEntries fields)) = .ok (ofFields es) ∧
      toDatum (ofFields es) = .mapping (toEntries fields) ∧
      ((∀ entry ∈ fields, entry.2.Tagged) → es = fields) := by
  obtain ⟨es, read, again, keys, kept⟩ := exists_rereadEntries each
  have apart : Dict.Distinct es := by
    unfold Dict.Distinct
    rw [keys]
    exact distinct
  refine ⟨es, ?_, ?_, kept⟩
  · rw [ofDatum, read]
    exact congrArg (fun d => Except.ok (ofFields d)) (Dict.ofList_of_distinct apart)
  · rw [toDatum_ofFields, again]

theorem exists_reread {v : Value} (keyed : v.WellKeyed) : ∃ w, Reread v w := by
  induction keyed with
  | null => exact ⟨.null, rfl, rfl, fun _ => rfl⟩
  | bool b => exact ⟨.bool b, rfl, rfl, fun _ => rfl⟩
  | number n =>
      refine ⟨.number n, ?_, rfl, fun _ => rfl⟩
      rw [toDatum, ofDatum, ofAmount, Yaml.Amount.number?_ofNumber]
  | string s => exact ⟨.string s, rfl, rfl, fun _ => rfl⟩
  | @list items _ ih =>
      obtain ⟨ws, read, again, kept⟩ := exists_rereadItems ih
      refine ⟨.list ws, ?_, ?_, fun tagged => ?_⟩
      · rw [toDatum, ofDatum, read]
        rfl
      · rw [toDatum, again, toDatum]
      · rw [kept (tagged_list_iff.mp tagged)]
  | @«variable» fields distinct _ ih =>
      obtain ⟨es, read, again, kept⟩ := exists_rereadMapping distinct ih
      refine ⟨ofFields es, read, again, fun tagged => ?_⟩
      cases tagged with
      | «variable» marked inner => rw [kept inner, ofFields_of_marked marked]
  | @map fields distinct _ ih =>
      obtain ⟨es, read, again, kept⟩ := exists_rereadMapping distinct ih
      refine ⟨ofFields es, read, again, fun tagged => ?_⟩
      cases tagged with
      | map unmarked inner => rw [kept inner, ofFields_of_unmarked unmarked]

/-- What was read once is written and read back unchanged. -/
theorem ofDatum_toDatum_of_tagged {v : Value} (keyed : v.WellKeyed) (tagged : v.Tagged) :
    ofDatum (toDatum v) = .ok v := by
  obtain ⟨w, reread⟩ := exists_reread keyed
  rw [reread.read, reread.kept tagged]

/-- A written value can be read, and is read as a value that is written in the same way. It is the value
that was written exactly if every mapping in it is a variable if and only if it carries the marker. -/
theorem ofDatum_toDatum {v : Value} (keyed : v.WellKeyed) :
    ∃ w, ofDatum (toDatum v) = .ok w ∧ toDatum w = toDatum v ∧ (w = v ↔ v.Tagged) := by
  obtain ⟨w, reread⟩ := exists_reread keyed
  refine ⟨w, reread.read, reread.again, fun same => ?_, reread.kept⟩
  -- Whatever is read has its mappings under the right constructors.
  exact same ▸ law_tagged.ofDatum (toDatum v) reread.read

namespace Sample

/-- A variable with numbers of each kind, and a marked mapping that is no variable. -/
def mixed : Value :=
  .list [
    .variable [("most", .number (.whole { val := 18446744073709551615 })), ("is_variable", .bool true),
      ("least", .number (.whole { val := -9223372036854775808 })),
      ("zero", .number (.float ⟨0x8000000000000000⟩ rfl))],
    .map [("is_variable", .bool true)]]

theorem wellKeyed_mixed : mixed.WellKeyed := by
  refine wellKeyed_list_iff.mpr (List.forall_mem_cons.mpr ⟨.variable ?_ ?_, ?_⟩)
  · show ["most", "is_variable", "least", "zero"].Nodup
    decide
  · simp only [List.forall_mem_cons]
    exact ⟨.number _, .bool true, .number _, .number _, List.forall_mem_nil _⟩
  · exact List.forall_mem_singleton.mpr (Fields.wellKeyed_singleton (.bool true)).map

theorem not_tagged_mixed : ¬ mixed.Tagged := by
  intro tagged
  have inner := tagged_list_iff.mp tagged (.map [("is_variable", .bool true)]) (by simp)
  cases inner with
  | map unmarked _ => exact unmarked rfl

end Sample

theorem ofDatum_toDatum_mixed :
    Sample.mixed.WellKeyed ∧ ¬ Sample.mixed.Tagged ∧
      ∃ w, ofDatum (toDatum Sample.mixed) = .ok w ∧ toDatum w = toDatum Sample.mixed ∧
        (w = Sample.mixed ↔ Sample.mixed.Tagged) :=
  ⟨Sample.wellKeyed_mixed, Sample.not_tagged_mixed, ofDatum_toDatum Sample.wellKeyed_mixed⟩

end Groundwork.Value
