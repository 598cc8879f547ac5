import Groundwork.Proofs.Lawful

set_option autoImplicit false

/- Tags of mappings. Later stages tell a variable from a plain mapping by the constructor alone, so
the constructor has to agree with the marker wherever a mapping is stored. It does so in whatever is
read from a document, and since this is a law of values, in all that a run holds after any history
of phase calls. -/
namespace Groundwork

/-- A mapping is a variable exactly if it carries the marker, at every depth. -/
inductive Value.Tagged : Value → Prop where
  | null : Tagged .null
  | bool (b : Bool) : Tagged (.bool b)
  | number (n : Number) : Tagged (.number n)
  | string (s : String) : Tagged (.string s)
  | list {items : List Value} (each : ∀ v ∈ items, Tagged v) : Tagged (.list items)
  | variable {fields : List (String × Value)}
      (marked : Dict.get? fields Value.marker = some (.bool true))
      (each : ∀ entry ∈ fields, Tagged entry.2) : Tagged (.variable fields)
  | map {fields : List (String × Value)}
      (unmarked : Dict.get? fields Value.marker ≠ some (.bool true))
      (each : ∀ entry ∈ fields, Tagged entry.2) : Tagged (.map fields)

/-- The fields themselves stand under no constructor. -/
def Fields.Tagged (fields : Fields) : Prop := ∀ entry ∈ fields, entry.2.Tagged

theorem Fields.Tagged.insert {fields : Fields} (tagged : fields.Tagged) (key : String) {v : Value}
    (inner : v.Tagged) : Fields.Tagged (Dict.insert fields key v) := by
  intro entry member
  rcases Dict.mem_insert member with old | rfl
  · exact tagged entry old
  · exact inner

namespace Value

theorem isMarked_iff {fields : Fields} :
    isMarked fields = true ↔ fields.get? marker = some (.bool true) := by
  unfold isMarked
  constructor
  · intro marked
    split at marked
    · assumption
    · cases marked
  · intro found
    rw [found]

theorem tagged_ofFields {fields : Fields} (tagged : fields.Tagged) : (ofFields fields).Tagged := by
  unfold ofFields
  split
  · rename_i marked
    exact .variable (isMarked_iff.mp marked) tagged
  · rename_i unmarked
    exact .map (fun found => unmarked (isMarked_iff.mpr found)) tagged

theorem Tagged.fields {v : Value} {fields : Fields} (tagged : v.Tagged)
    (found : v.fields? = some fields) : fields.Tagged := by
  unfold fields? at found
  split at found
  · cases found
    match tagged with
    | .map _ each => exact each
  · cases found
    match tagged with
    | .variable _ each => exact each
  · cases found

theorem tagged_list_iff {items : List Value} : Tagged (.list items) ↔ ∀ v ∈ items, v.Tagged := by
  constructor
  · intro tagged
    cases tagged with
    | list each => exact each
  · exact .list

/-- A variable in the marker's place does not mark the mapping. -/
theorem Tagged.write {fields inner : Fields} (tagged : Tagged (.map fields)) (key : String)
    (written : Tagged (.variable inner)) :
    Tagged (.map (fields.insert key (.variable inner))) := by
  have each : Fields.Tagged (fields.insert key (.variable inner)) :=
    (tagged.fields rfl).insert key written
  cases tagged with
  | map unmarked _ =>
      refine .map (fun found => ?_) each
      by_cases same : marker = key
      · rw [same, Dict.get?_insert_self] at found
        cases found
      · rw [Dict.get?_insert_of_ne _ _ (Ne.symm same)] at found
        exact unmarked found

theorem law_tagged : Law Fields.Tagged Tagged where
  nil := fun _ member => nomatch member
  each := fun tagged => tagged
  insert := fun key tagged inner => tagged.insert key inner
  filter := fun _ tagged entry member => tagged entry (List.mem_filter.mp member).1
  null := .null
  bool := .bool
  number := .number
  string := .string
  list := tagged_list_iff
  ofFields := tagged_ofFields
  fields := Tagged.fields
  write := fun key tagged written => tagged.write key written

end Value

namespace Build

/-- Wherever a run stores a mapping, it stands under the constructor that its marker asks for. -/
abbrev Tagged (b : Build) : Prop := b.Obeys Fields.Tagged Value.Tagged

/-- Whatever phases were called on a run over a document, and whatever files each of them found, the run
holds mappings only under the constructors that their markers ask for. -/
theorem tagged_progress {document : Yaml.Datum} {raw : Fields} {destination : String}
    {context : Context} {generatedAt : String} {start : Build}
    (read : Fields.ofDocument document = .ok raw)
    (started : ofConfig raw destination context generatedAt = .ok start) (calls : List Call) :
    (start.progress calls).state.Tagged :=
  obeys_progress Value.law_tagged (Value.law_tagged.ofDocument read) started calls

namespace Sample.Tags

def marked (type : String) : Yaml.Datum :=
  .mapping [(.string "type", .string type), (.string "is_variable", .bool true)]

/-- A variable of a resource, and an environment with a variable in its section and one beside it. -/
def document : Yaml.Datum :=
  .mapping [
    (.string "resources", .sequence [.mapping [(.string "bucket", .mapping [
      (.string "size", marked "number"),
      (.string "rules", .sequence [.mapping [(.string "is_variable", .bool false)]])])]]),
    (.string "environments", .mapping [(.string "dev", .mapping [
      (.string "zone", marked "string"),
      (.string "variables", .mapping [(.string "is_variable", .mapping [
        (.string "type", .string "bool")])])])])]

def variableOf (type : String) : Value :=
  .variable [("type", .string type), ("is_variable", .bool true)]

def raw : Fields :=
  [("resources", .list [.map [("bucket", .map [
      ("size", variableOf "number"),
      ("rules", .list [.map [("is_variable", .bool false)]])])]]),
    ("environments", .map [("dev", .map [
      ("zone", variableOf "string"),
      ("variables", .map [("is_variable", .map [("type", .string "bool")])])])])]

/-- Buckets have an owner by default. -/
def disk : Disk where
  workingDirectory := []
  entries := Sample.disk.entries ++
    [(["root", "infra_templates", "_config_variable.tf"], .file "variable <name>\n".toUTF8),
      (["root", "infra_defaults"], .directory),
      (["root", "infra_defaults", "bucket.yaml"],
        .file "owner: {type: string, is_variable: true}\n".toUTF8)]

def calls : List Call := [⟨.resources, disk⟩, ⟨.environments, disk⟩]

def kinds (fields : Fields) : List (String × Kind) := fields.map fun e => (e.1, e.2.kind)

/-- What is held of the bucket and of the section. -/
def held (b : Build) : List (List (String × Kind)) :=
  b.resources.map (fun r => kinds r.config) ++
    b.environments.map fun e => kinds (Environment.declaredFields e.config)

end Sample.Tags

/-- A variable is recorded under the marker's own name. -/
theorem tagged_progress_marker :
    Fields.ofDocument Sample.Tags.document = .ok Sample.Tags.raw ∧
      ∃ start, ofConfig Sample.Tags.raw "out" (Sample.context 0) "now" = .ok start ∧
        Sample.Tags.held (start.progress Sample.Tags.calls).state =
          [[("size", .variable), ("rules", .list), ("owner", .variable),
              ("resource_name", .string), ("_module", .string)],
            [("is_variable", .variable), ("zone", .variable)]] ∧
        (start.progress Sample.Tags.calls).state.Tagged := by
  have read : Fields.ofDocument Sample.Tags.document = .ok Sample.Tags.raw := rfl
  have outcome : (ofConfig Sample.Tags.raw "out" (Sample.context 0) "now").map
      (fun start => Sample.Tags.held (start.progress Sample.Tags.calls).state) =
        .ok [[("size", .variable), ("rules", .list), ("owner", .variable),
            ("resource_name", .string), ("_module", .string)],
          [("is_variable", .variable), ("zone", .variable)]] := by
    decide +kernel
  obtain ⟨start, started, held⟩ := Except.map_eq_ok_iff.mp outcome
  exact ⟨read, start, started, held, tagged_progress read started Sample.Tags.calls⟩

end Build

end Groundwork
