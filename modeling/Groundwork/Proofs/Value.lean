import Groundwork.Proofs.Law

set_option autoImplicit false

/- Mappings without repeated keys. Not to repeat a key at any depth is a law of values, so whatever
is read from a document obeys it, and so does a configuration that defaults are merged into. -/
namespace Groundwork

/-- No key stands twice in a mapping, at any depth. -/
inductive Value.WellKeyed : Value → Prop where
  | null : WellKeyed .null
  | bool (b : Bool) : WellKeyed (.bool b)
  | number (n : Number) : WellKeyed (.number n)
  | string (s : String) : WellKeyed (.string s)
  | list {items : List Value} (each : ∀ v ∈ items, WellKeyed v) : WellKeyed (.list items)
  | variable {fields : List (String × Value)} (distinct : Dict.Distinct fields)
      (each : ∀ entry ∈ fields, WellKeyed entry.2) : WellKeyed (.variable fields)
  | map {fields : List (String × Value)} (distinct : Dict.Distinct fields)
      (each : ∀ entry ∈ fields, WellKeyed entry.2) : WellKeyed (.map fields)

structure Fields.WellKeyed (fields : Fields) : Prop where
  distinct : Dict.Distinct fields
  each : ∀ entry ∈ fields, entry.2.WellKeyed

namespace Fields

theorem wellKeyed_nil : WellKeyed [] := ⟨List.nodup_nil, fun _ member => nomatch member⟩

theorem wellKeyed_singleton {key : String} {v : Value} (keyed : v.WellKeyed) :
    WellKeyed [(key, v)] :=
  ⟨List.pairwise_singleton _ key, fun _ member => List.mem_singleton.mp member ▸ keyed⟩

namespace WellKeyed

theorem cons {fields : Fields} (keyed : fields.WellKeyed) {key : String}
    (new : key ∉ Dict.keys fields) {v : Value} (inner : v.WellKeyed) :
    Fields.WellKeyed ((key, v) :: fields) :=
  ⟨List.nodup_cons.mpr ⟨new, keyed.distinct⟩, List.forall_mem_cons.mpr ⟨inner, keyed.each⟩⟩

theorem insert {fields : Fields} (keyed : fields.WellKeyed) (key : String) {v : Value}
    (inner : v.WellKeyed) : Fields.WellKeyed (Dict.insert fields key v) := by
  refine ⟨keyed.distinct.insert key v, fun entry member => ?_⟩
  rcases Dict.mem_insert member with old | rfl
  · exact keyed.each entry old
  · exact inner

theorem filter {fields : Fields} (keyed : fields.WellKeyed) (p : String × Value → Bool) :
    Fields.WellKeyed (List.filter p fields) :=
  ⟨keyed.distinct.of_sublist List.filter_sublist,
    fun entry member => keyed.each entry (List.mem_filter.mp member).1⟩

theorem map {fields : Fields} (keyed : fields.WellKeyed) : Value.WellKeyed (.map fields) :=
  .map keyed.distinct keyed.each

theorem marked {fields : Fields} (keyed : fields.WellKeyed) : Value.WellKeyed (.variable fields) :=
  .variable keyed.distinct keyed.each

end WellKeyed

end Fields

namespace Value

theorem WellKeyed.fields {v : Value} {fields : Fields} (keyed : v.WellKeyed)
    (found : v.fields? = some fields) : fields.WellKeyed := by
  unfold fields? at found
  split at found
  · cases found
    match keyed with
    | .map distinct each => exact ⟨distinct, each⟩
  · cases found
    match keyed with
    | .variable distinct each => exact ⟨distinct, each⟩
  · cases found

theorem wellKeyed_ofFields {fields : Fields} (keyed : Fields.WellKeyed fields) :
    (ofFields fields).WellKeyed := by
  unfold ofFields
  split
  · exact .variable keyed.distinct keyed.each
  · exact keyed.map

theorem wellKeyed_list_iff {items : List Value} :
    WellKeyed (.list items) ↔ ∀ v ∈ items, v.WellKeyed := by
  constructor
  · intro keyed
    cases keyed with
    | list each => exact each
  · exact .list

theorem law_wellKeyed : Law Fields.WellKeyed WellKeyed where
  nil := Fields.wellKeyed_nil
  each := Fields.WellKeyed.each
  insert := fun key keyed inner => keyed.insert key inner
  filter := fun p keyed => keyed.filter p
  null := .null
  bool := .bool
  number := .number
  string := .string
  list := wellKeyed_list_iff
  ofFields := wellKeyed_ofFields
  fields := WellKeyed.fields
  write := fun key keyed inner => ((keyed.fields rfl).insert key inner).map

end Value

end Groundwork
