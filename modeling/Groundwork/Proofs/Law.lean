import Groundwork.Proofs.Variable

set_option autoImplicit false

/- Laws of configuration values. A law is a condition on values together with one on fields; it asks
for nothing that reading a document, completing fields with defaults or writing single fields could
break. So whatever is read obeys every law, and fields that obey a law still do so once defaults are
merged in. -/
namespace Groundwork.Value

/-- A condition on fields and one on values that belong together. Scalars meet it, a list does if its items
do, and a mapping does if its fields do and it stands under the constructor that its marker asks for. -/
structure Law (F : Fields → Prop) (V : Value → Prop) : Prop where
  nil : F []
  each : ∀ {fields : Fields}, F fields → ∀ entry ∈ fields, V entry.2
  insert : ∀ {fields : Fields} {v : Value} (key : String), F fields → V v → F (fields.insert key v)
  filter : ∀ {fields : Fields} (p : String × Value → Bool), F fields → F (List.filter p fields)
  null : V .null
  bool : ∀ b : Bool, V (.bool b)
  number : ∀ n : Number, V (.number n)
  string : ∀ s : String, V (.string s)
  list : ∀ {items : List Value}, V (.list items) ↔ ∀ v ∈ items, V v
  ofFields : ∀ {fields : Fields}, F fields → V (ofFields fields)
  fields : ∀ {v : Value} {fields : Fields}, V v → v.fields? = some fields → F fields
  /-- A variable is written into a mapping that is none. -/
  write : ∀ {fields inner : Fields} (key : String), V (.map fields) → V (.variable inner) →
    V (.map (fields.insert key (.variable inner)))

namespace Law

variable {F : Fields → Prop} {V : Value → Prop}

theorem get? (law : Law F V) {fields : Fields} (good : F fields) {key : String} {v : Value}
    (found : fields.get? key = some v) : V v := law.each good _ (Dict.mem_of_get? found)

theorem emptyMap (law : Law F V) : V (.map []) := law.ofFields law.nil

theorem ofNames (law : Law F V) (names : List String) : V (.list (names.map .string)) := by
  refine law.list.mpr fun v member => ?_
  obtain ⟨name, -, rfl⟩ := List.mem_map.mp member
  exact law.string name

/-- Later writes of a key replace earlier ones. -/
theorem ofList (law : Law F V) {entries : List (String × Value)}
    (each : ∀ entry ∈ entries, V entry.2) : F (Dict.ofList entries) :=
  List.foldlRecOn (motive := F) entries _ law.nil fun _ good entry member =>
    law.insert entry.1 good (each entry member)

theorem merge (law : Law F V) {config defaults : Fields} (good : F config)
    (also : F defaults) : F (config.merge defaults) := by
  refine List.foldlRecOn (motive := F) defaults _ good fun fields kept entry member => ?_
  have added := law.insert entry.1 kept (law.each also entry member)
  split
  · exact kept
  · rename_i absent
    rw [Dict.contains_iff_mem_keys] at absent
    rwa [Dict.insert_of_absent absent] at added

mutual

theorem ofDatum (law : Law F V) (d : Yaml.Datum) {v : Value} (read : Value.ofDatum d = .ok v) :
    V v := by
  match d with
  | .null =>
      cases Except.ok.inj read
      exact law.null
  | .bool b =>
      cases Except.ok.inj read
      exact law.bool b
  | .number n =>
      change ofAmount n = .ok v at read
      unfold ofAmount at read
      split at read
      · cases read
        exact law.number _
      · cases read
  | .string s =>
      cases Except.ok.inj read
      exact law.string s
  | .sequence items =>
      obtain ⟨vs, each, rfl⟩ := Except.map_eq_ok_iff.mp read
      exact law.list.mpr (ofItems law items each)
  | .mapping entries =>
      obtain ⟨es, each, rfl⟩ := Except.map_eq_ok_iff.mp read
      exact law.ofFields (law.ofList (ofEntries law entries each))
  | .tagged tag content => cases read

theorem ofItems (law : Law F V) (items : List Yaml.Datum) {vs : List Value}
    (read : Value.ofItems items = .ok vs) : ∀ v ∈ vs, V v := by
  match items with
  | [] =>
      cases Except.ok.inj read
      exact fun _ member => nomatch member
  | d :: rest =>
      obtain ⟨v, first, read⟩ := Except.bind_eq_ok_iff.mp read
      obtain ⟨others, more, rfl⟩ := Except.bind_pure_eq_ok_iff.mp read
      rw [List.forall_mem_cons]
      exact ⟨ofDatum law d first, ofItems law rest more⟩

theorem ofEntries (law : Law F V) (entries : List (Yaml.Datum × Yaml.Datum))
    {es : List (String × Value)} (read : Value.ofEntries entries = .ok es) : ∀ e ∈ es, V e.2 := by
  match entries with
  | [] =>
      cases Except.ok.inj read
      exact fun _ member => nomatch member
  | (k, d) :: rest =>
      obtain ⟨key, -, read⟩ := Except.bind_eq_ok_iff.mp read
      obtain ⟨v, first, read⟩ := Except.bind_eq_ok_iff.mp read
      obtain ⟨others, more, rfl⟩ := Except.bind_pure_eq_ok_iff.mp read
      rw [List.forall_mem_cons]
      exact ⟨ofDatum law d first, ofEntries law rest more⟩

end

theorem ofDocument (law : Law F V) {document : Yaml.Datum} {fields : Fields}
    (read : Fields.ofDocument document = .ok fields) : F fields := by
  unfold Fields.ofDocument at read
  split at read
  · cases read
    exact law.nil
  · obtain ⟨es, each, rfl⟩ := Except.map_eq_ok_iff.mp read
    exact law.ofList (law.ofEntries _ each)
  · cases read

theorem ofText (law : Law F V) {text path : String} {fields : Fields}
    (read : Fields.ofText text path = .ok fields) : F fields := by
  unfold Fields.ofText at read
  split at read
  · cases read
    exact law.nil
  · split at read
    · cases read
    · exact law.ofDocument (Except.mapError_eq_ok_iff.mp read)

theorem defaults (law : Law F V) {catalog : Catalog} {name : String} {fields : Fields}
    (found : catalog.defaults name = .ok fields) : F fields := by
  unfold Catalog.defaults at found
  obtain ⟨_, -, found⟩ := Except.bind_eq_ok_iff.mp found
  dsimp only at found
  split at found
  · obtain ⟨text, -, read⟩ := Except.bind_eq_ok_iff.mp found
    exact law.ofText read
  · cases found
    exact law.nil

theorem withDefaults (law : Law F V) {catalog : Catalog} {name : String} {config merged : Fields}
    (good : F config) (success : catalog.withDefaults name config = .ok merged) : F merged := by
  obtain ⟨defaults, found, rfl⟩ := Catalog.withDefaults_eq_ok_iff.mp success
  exact law.merge good (law.defaults found)

end Law

end Groundwork.Value
