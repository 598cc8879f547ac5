import Groundwork.Proofs.Dict
import Groundwork.Proofs.Outcome
import Groundwork.Variable

set_option autoImplicit false

/- Declared variables and the fields they come from. Extraction gives one variable for each marked
field and nothing else, and where the defaults of declarations choose no name, a variable has the
name by which its field is referred to before anything is filled in. -/
namespace Groundwork

theorem Catalog.withDefaults_eq_ok_iff {catalog : Catalog} {name : String}
    {config merged : Fields} :
    catalog.withDefaults name config = .ok merged ↔
      ∃ defaults, catalog.defaults name = .ok defaults ∧ merged = config.merge defaults := by
  unfold Catalog.withDefaults
  rw [Except.bind_eq_ok_iff]
  constructor
  · rintro ⟨defaults, found, same⟩
    exact ⟨defaults, found, (Except.ok.inj same).symm⟩
  · rintro ⟨defaults, found, rfl⟩
    exact ⟨defaults, found, rfl⟩

/-- A type without a file of defaults has none. -/
theorem Catalog.defaults_of_missing {catalog : Catalog} {name : String}
    (plain : isPlainName name = true)
    (missing : catalog.disk.isFile (catalog.path [defaultsDirectory, name ++ ".yaml"]) = false) :
    catalog.defaults name = .ok [] := by
  unfold Catalog.defaults Catalog.requirePlainName
  rw [if_pos plain]
  simp only [missing]
  rfl

theorem ofTemplates_eq_ok_iff {α : Type} {step : Except TemplateFault α} {a : α} :
    ofTemplates step = .ok a ↔ step = .ok a := Except.mapError_eq_ok_iff

/-- No name comes from the defaults of declarations. -/
def Catalog.NamesNoVariable (catalog : Catalog) : Prop :=
  ∀ defaults, catalog.defaults Variable.template = .ok defaults →
    Dict.text? defaults Value.nameKey = none

namespace Variable

/-- What a declaration is made of. -/
structure Declares (catalog : Catalog) (target : String) (config merged : Fields)
    (v : Variable) : Prop where
  typed : config.text? typeKey = some v.type
  completed : catalog.withDefaults template config = .ok merged
  target_eq : v.target = target
  reference : v.name = referenceName target (complete target merged)
  config_eq : v.config = complete target merged
  rendered : render catalog target v.config = .ok v.declaration

theorem declare_ok {catalog : Catalog} {target : String} {config : Fields} {v : Variable}
    (declared : declare catalog target config = .ok v) :
    ∃ merged, Declares catalog target config merged v := by
  unfold declare at declared
  split at declared
  · cases declared
  · rename_i type typed
    obtain ⟨merged, found, declared⟩ := Except.bind_eq_ok_iff.mp declared
    obtain ⟨text, rendered, declared⟩ := Except.bind_eq_ok_iff.mp declared
    cases Except.ok.inj declared
    exact ⟨merged, typed, ofTemplates_eq_ok_iff.mp found, rfl, rfl, rfl, rendered⟩

/-- Target and marker are other fields than the name. -/
theorem text?_name_marked (target : String) (fields : Fields) :
    Dict.text? ((fields.insert targetKey (.string target)).insert Value.marker (.bool true))
      Value.nameKey = Dict.text? fields Value.nameKey := by
  unfold Dict.text?
  rw [Dict.get?_insert_of_ne _ _ (by decide), Dict.get?_insert_of_ne _ _ (by decide)]

theorem text?_ne_empty {fields : Fields} {key text : String}
    (found : Dict.text? fields key = some text) : text ≠ "" := by
  unfold Dict.text? at found
  split at found
  · split at found
    · cases found
    · rename_i given
      exact Option.some.inj found ▸ given
  · cases found

/-- A reference is empty only by falling back to a field without a name. -/
theorem field_of_referenceName_empty {field : String} {fields : Fields}
    (empty : referenceName field fields = "") : field = "" := by
  unfold referenceName at empty
  cases given : Dict.text? fields Value.nameKey with
  | none => rwa [given, Option.getD_none] at empty
  | some name =>
      rw [given, Option.getD_some] at empty
      exact absurd empty (text?_ne_empty given)

theorem referenceName_complete (target : String) (merged : Fields) :
    referenceName target (complete target merged) = referenceName target merged := by
  have recorded : Dict.text? (complete target merged) Value.nameKey =
      if referenceName target merged = "" then none else some (referenceName target merged) := by
    unfold Dict.text? complete
    rw [Dict.get?_insert_self]
    dsimp only
    rw [referenceName, text?_name_marked, ← referenceName]
  rw [referenceName, recorded]
  split
  · rename_i empty
    rw [Option.getD_none, empty]
    exact field_of_referenceName_empty empty
  · rfl

theorem referenceName_merge {defaults : Fields} (field : String) (config : Fields)
    (nameless : Dict.text? defaults Value.nameKey = none) :
    referenceName field (config.merge defaults) = referenceName field config := by
  unfold referenceName Dict.text? at *
  rw [Dict.get?_merge]
  cases given : config.get? Value.nameKey with
  | some v => rfl
  | none =>
      rw [Option.none_or]
      exact congrArg (fun name => Option.getD name field) nameless

/-- The reference to a field is the name its variable is declared by. -/
theorem Declares.name_eq {catalog : Catalog} {target : String} {config merged : Fields}
    {v : Variable} (declares : Declares catalog target config merged v)
    (nameless : catalog.NamesNoVariable) : v.name = referenceName target config := by
  obtain ⟨defaults, found, same⟩ := Catalog.withDefaults_eq_ok_iff.mp declares.completed
  rw [declares.reference, referenceName_complete, same]
  exact referenceName_merge target config (nameless defaults found)

theorem extract_sound {catalog : Catalog} {fields : Fields} {vars : List Variable}
    (extracted : extract catalog fields = .ok vars) :
    ∀ v ∈ vars, ∃ config, (v.target, .variable config) ∈ fields ∧
      declare catalog v.target config = .ok v := by
  fun_induction extract catalog fields generalizing vars with
  | case1 => cases Except.ok.inj extracted; intro v member; cases member
  | case2 field config rest ih =>
      obtain ⟨head, declared, extracted⟩ := Except.bind_eq_ok_iff.mp extracted
      obtain ⟨tail, others, same⟩ := Except.bind_eq_ok_iff.mp extracted
      cases Except.ok.inj same
      obtain ⟨merged, declares⟩ := declare_ok declared
      intro v member
      rcases List.mem_cons.mp member with rfl | member
      · refine ⟨config, ?_, ?_⟩
        · rw [declares.target_eq]
          exact List.mem_cons_self
        · rw [declares.target_eq]
          exact declared
      · obtain ⟨inner, place, known⟩ := ih others v member
        exact ⟨inner, List.mem_cons_of_mem _ place, known⟩
  | case3 field rest plain ih =>
      intro v member
      obtain ⟨inner, place, known⟩ := ih extracted v member
      exact ⟨inner, List.mem_cons_of_mem _ place, known⟩

theorem extract_complete {catalog : Catalog} {fields : Fields} {vars : List Variable}
    (extracted : extract catalog fields = .ok vars) {field : String} {config : Fields}
    (marked : (field, .variable config) ∈ fields) :
    ∃ v ∈ vars, v.target = field ∧ declare catalog field config = .ok v := by
  fun_induction extract catalog fields generalizing vars with
  | case1 => cases marked
  | case2 name inner rest ih =>
      obtain ⟨head, declared, extracted⟩ := Except.bind_eq_ok_iff.mp extracted
      obtain ⟨tail, others, same⟩ := Except.bind_eq_ok_iff.mp extracted
      cases Except.ok.inj same
      obtain ⟨merged, declares⟩ := declare_ok declared
      rcases List.mem_cons.mp marked with here | there
      · cases here
        exact ⟨head, List.mem_cons_self, declares.target_eq, declared⟩
      · obtain ⟨v, member, known⟩ := ih others there
        exact ⟨v, List.mem_cons_of_mem head member, known⟩
  | case3 entry rest plain ih =>
      rcases List.mem_cons.mp marked with here | there
      · exact absurd here.symm (plain field config)
      · exact ih extracted there

/-- A field of its own is a variable that is referred to by this name. -/
def Marked (fields : Fields) (name : String) : Prop :=
  ∃ field config, (field, .variable config) ∈ fields ∧ referenceName field config = name

/-- The declared names are those that marked fields are referred to by. -/
theorem mem_names_extract_iff {catalog : Catalog} {fields : Fields} {vars : List Variable}
    (nameless : catalog.NamesNoVariable) (extracted : extract catalog fields = .ok vars)
    (name : String) : name ∈ vars.map (·.name) ↔ Marked fields name := by
  constructor
  · intro named
    obtain ⟨v, member, rfl⟩ := List.mem_map.mp named
    obtain ⟨config, place, declared⟩ := extract_sound extracted v member
    obtain ⟨merged, declares⟩ := declare_ok declared
    exact ⟨v.target, config, place, (declares.name_eq nameless).symm⟩
  · rintro ⟨field, config, place, rfl⟩
    obtain ⟨v, member, -, declared⟩ := extract_complete extracted place
    obtain ⟨merged, declares⟩ := declare_ok declared
    exact List.mem_map.mpr ⟨v, member, declares.name_eq nameless⟩

end Variable

end Groundwork
