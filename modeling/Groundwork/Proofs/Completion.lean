import Groundwork.Proofs.Filling
import Groundwork.Proofs.Reference
import Groundwork.Proofs.Value
import Mathlib.Data.Prod.Basic

set_option autoImplicit false

/- The fields that a resource ends up with. Defaults, an instance name and the module come behind
the fields that were given, in this order, and nothing given is moved or dropped. Only variables are
written over, by their complete fields, and a name or a module that is missing or null. -/
namespace Groundwork

namespace Variable

/-- The fields that are variables, in field order. -/
def markedKeys (fields : Fields) : List String := (fields.filter (·.2.isVariable)).map (·.1)

theorem markedKeys_cons (entry : String × Value) (rest : Fields) :
    markedKeys (entry :: rest) =
      if entry.2.isVariable then entry.1 :: markedKeys rest else markedKeys rest := by
  unfold markedKeys
  rw [List.filter_cons]
  split <;> rfl

theorem targets_extract {catalog : Catalog} {fields : Fields} {vars : List Variable}
    (extracted : extract catalog fields = .ok vars) : vars.map (·.target) = markedKeys fields := by
  fun_induction extract catalog fields generalizing vars with
  | case1 =>
      cases Except.ok.inj extracted
      rfl
  | case2 field config rest ih =>
      obtain ⟨head, declared, extracted⟩ := Except.bind_eq_ok_iff.mp extracted
      obtain ⟨tail, others, rfl⟩ := Except.bind_pure_eq_ok_iff.mp extracted
      obtain ⟨merged, declares⟩ := declare_ok declared
      rw [List.map_cons, ih others, declares.target_eq]
      rfl
  | case3 entry rest plain ih =>
      have other : entry.2.isVariable = false := by
        obtain ⟨field, value⟩ := entry
        cases value with
        | «variable» inner => exact absurd rfl (plain field inner)
        | _ => rfl
      rw [ih extracted, markedKeys_cons, other]
      rfl

theorem nodup_targets {catalog : Catalog} {fields : Fields} {vars : List Variable}
    (distinct : fields.Distinct) (extracted : extract catalog fields = .ok vars) :
    (vars.map (·.target)).Nodup := by
  rw [targets_extract extracted]
  exact List.Sublist.nodup (List.filter_sublist.map _) distinct

theorem isVariable_iff {v : Value} : v.isVariable = true ↔ ∃ inner, v = .variable inner := by
  cases v <;> simp [Value.isVariable]

/-- Writing what is no variable over what is none makes and hides no variable. -/
theorem markedKeys_insert {fields : Fields} {key : String} {v : Value}
    (before : ∀ inner, fields.get? key ≠ some (.variable inner)) (after : v.isVariable = false) :
    markedKeys (fields.insert key v) = markedKeys fields := by
  induction fields with
  | nil =>
      have written : markedKeys [(key, v)] = if v.isVariable then [key] else [] := markedKeys_cons _ _
      rw [Dict.insert, written, after]
      rfl
  | cons entry rest ih =>
      unfold Dict.get? at before
      unfold Dict.insert
      by_cases same : entry.1 = key
      · have unmarked : entry.2.isVariable = false := by
          rw [if_pos same] at before
          refine Bool.eq_false_iff.mpr fun marked => ?_
          obtain ⟨inner, value⟩ := isVariable_iff.mp marked
          exact before inner (congrArg some value)
        simp only [if_pos same, markedKeys_cons, after, unmarked]
      · rw [if_neg same] at before
        simp only [if_neg same, markedKeys_cons, ih before]

end Variable

namespace Resource

open Variable (markedKeys)

/-- A field without a value, which stands open for one. -/
def Unset (fields : Fields) (key : String) : Prop :=
  fields.get? key = none ∨ fields.get? key = some .null

theorem keys_resolve {config : Fields} {vars : List Variable}
    (covered : ∀ v ∈ vars, v.target ∈ config.keys) : (resolve config vars).keys = config.keys := by
  induction vars generalizing config with
  | nil => rfl
  | cons v rest ih =>
      obtain ⟨first, others⟩ := List.forall_mem_cons.mp covered
      have same : (config.insert v.target v.toValue).keys = config.keys := by
        rw [Dict.keys_insert, if_pos first]
      rw [resolve_cons, ih (by rwa [same]), same]

theorem get?_resolve_of_mem {config : Fields} {vars : List Variable}
    (apart : (vars.map (·.target)).Nodup) {v : Variable} (member : v ∈ vars) :
    (resolve config vars).get? v.target = some v.toValue := by
  induction vars generalizing config with
  | nil => cases member
  | cons first rest ih =>
      obtain ⟨single, later⟩ := List.nodup_cons.mp apart
      rw [resolve_cons]
      rcases List.mem_cons.mp member with rfl | member
      · have untouched : ∀ w ∈ rest, w.target ≠ v.target := fun w inside same =>
          single (List.mem_map.mpr ⟨w, inside, same⟩)
        rw [get?_resolve_of_untouched _ _ _ untouched, Dict.get?_insert_self]
      · exact ih later member

theorem keys_nameIn (type : String) (merged : Fields) (pool : NamePool) :
    (nameIn type merged pool).1.keys = merged.keys ++ [nameKey].filter (· ∉ merged.keys) := by
  by_cases missing : Nameless merged
  · rw [nameIn_of_nameless missing]
    exact Dict.keys_insert_eq_append ..
  · have present : nameKey ∈ merged.keys :=
      Decidable.not_not.mp fun absent => missing (.inl ((Dict.get?_eq_none_iff ..).mpr absent))
    rw [nameIn_of_named missing, List.filter_cons_of_neg (by simpa using present), List.filter_nil,
      List.append_nil]

theorem keys_located (merged : Fields) (type moduleName : String) (pool : NamePool) :
    (located (nameIn type merged pool).1 moduleName).keys =
      merged.keys ++ [nameKey, moduleKey].filter (· ∉ merged.keys) := by
  -- A name that is put in is no module.
  have other : moduleKey ∉ [nameKey].filter (· ∉ merged.keys) := fun member =>
    absurd (List.mem_singleton.mp (List.mem_of_mem_filter member)) (by decide)
  have same : [moduleKey].filter (· ∉ (nameIn type merged pool).1.keys) =
      [moduleKey].filter (· ∉ merged.keys) := by
    refine List.filter_congr fun key member => ?_
    rw [List.mem_singleton.mp member, keys_nameIn]
    simp only [List.mem_append, other, or_false]
  rw [located, Dict.keys_insert_eq_append, same, keys_nameIn, List.append_assoc,
    ← List.filter_append]
  rfl

theorem get?_nameIn {type key : String} {merged : Fields} {pool : NamePool}
    (kept : key = nameKey → ¬ Unset merged key) :
    (nameIn type merged pool).1.get? key = merged.get? key := by
  by_cases missing : Nameless merged
  · have other : nameKey ≠ key := by
      rintro rfl
      exact kept rfl missing
    rw [nameIn_of_nameless missing, Dict.get?_insert_of_ne _ _ other]
  · rw [nameIn_of_named missing]

/-- A module that is given is given by its name. -/
theorem get?_module {type moduleName : String} {named : Fields}
    (module : moduleOf type named = .ok moduleName) (given : ¬ Unset named moduleKey) :
    named.get? moduleKey = some (.string moduleName) := by
  unfold moduleOf at module
  split at module
  · rename_i absent
    exact absurd (.inl absent) given
  · rename_i null
    exact absurd (.inr null) given
  · rename_i name found
    obtain ⟨_, -, rfl⟩ := Except.bind_pure_eq_ok_iff.mp module
    exact found
  · cases module

theorem get?_located {type key moduleName : String} {merged : Fields} {pool : NamePool}
    (module : moduleOf type (nameIn type merged pool).1 = .ok moduleName)
    (kept : key ∈ [nameKey, moduleKey] → ¬ Unset merged key) :
    (located (nameIn type merged pool).1 moduleName).get? key = merged.get? key := by
  have named : (nameIn type merged pool).1.get? key = merged.get? key :=
    get?_nameIn fun same => kept (by simp [same])
  by_cases same : key = moduleKey
  · subst same
    have given : ¬ Unset (nameIn type merged pool).1 moduleKey := by
      unfold Unset
      rw [named]
      exact kept (by decide)
    rw [← named, get?_module module given, located, Dict.get?_insert_self]
  · rw [located, Dict.get?_insert_of_ne _ _ (Ne.symm same), named]

theorem not_variable_of_unset {fields : Fields} {key : String} (unset : Unset fields key)
    (inner : Fields) : fields.get? key ≠ some (.variable inner) := by
  rcases unset with none | null
  · rw [none]
    exact nofun
  · rw [null]
    exact nofun

/-- What is put in hides no variable and is none. -/
theorem markedKeys_located {type moduleName : String} {merged : Fields} {pool : NamePool}
    (module : moduleOf type (nameIn type merged pool).1 = .ok moduleName) :
    markedKeys (located (nameIn type merged pool).1 moduleName) = markedKeys merged := by
  have named : markedKeys (nameIn type merged pool).1 = markedKeys merged := by
    by_cases missing : Nameless merged
    · rw [nameIn_of_nameless missing]
      exact Variable.markedKeys_insert (not_variable_of_unset missing) rfl
    · rw [nameIn_of_named missing]
  rw [located, ← named]
  refine Variable.markedKeys_insert ?_ rfl
  by_cases unset : Unset (nameIn type merged pool).1 moduleKey
  · exact not_variable_of_unset unset
  · rw [get?_module module unset]
    exact nofun

/-- A variable of the fields that the code is rendered over is one of the merged fields. -/
theorem variable_of_located {type key moduleName : String} {merged inner : Fields}
    {pool : NamePool}
    (found : (located (nameIn type merged pool).1 moduleName).get? key = some (.variable inner)) :
    merged.get? key = some (.variable inner) := by
  have other : key ≠ moduleKey := by
    rintro rfl
    rw [located, Dict.get?_insert_self] at found
    cases found
  rw [located, Dict.get?_insert_of_ne _ _ (Ne.symm other)] at found
  by_cases missing : Nameless merged
  · rw [nameIn_of_nameless missing] at found
    by_cases same : nameKey = key
    · rw [same, Dict.get?_insert_self] at found
      cases found
    · rwa [Dict.get?_insert_of_ne _ _ same] at found
  · rwa [nameIn_of_named missing] at found

theorem distinct_nameIn {type : String} {merged : Fields} {pool : NamePool}
    (distinct : merged.Distinct) : (nameIn type merged pool).1.Distinct := by
  by_cases missing : Nameless merged
  · rw [nameIn_of_nameless missing]
    exact distinct.insert _ _
  · rwa [nameIn_of_named missing]

/-- How the fields and variables of a resource follow from the given fields and the defaults of its type. -/
structure Completed (catalog : Catalog) (config defaults : Fields) (r : Resource) : Prop where
  keys : r.config.keys = config.keys ++ defaults.keys.filter (· ∉ config.keys) ++
    [nameKey, moduleKey].filter (· ∉ (config.merge defaults).keys)
  kept : ∀ key, (∀ inner, (config.merge defaults).get? key ≠ some (.variable inner)) →
    (key ∈ [nameKey, moduleKey] → ¬ Unset (config.merge defaults) key) →
      r.config.get? key = (config.merge defaults).get? key
  targets : r.vars.map (·.target) = markedKeys (config.merge defaults)
  declared : ∀ v ∈ r.vars, ∃ inner,
    (config.merge defaults).get? v.target = some (.variable inner) ∧
      Variable.declare catalog v.target inner = .ok v
  resolved : ∀ v ∈ r.vars, r.config.get? v.target = some v.toValue

theorem Assembles.completed {catalog : Catalog} {type : String} {config defaults : Fields}
    {pool : NamePool} {r : Resource} (distinct : config.Distinct) (also : defaults.Distinct)
    (assembles : Assembles catalog type (nameIn type (config.merge defaults) pool).1 r) :
    Completed catalog config defaults r := by
  have keyed : (located (nameIn type (config.merge defaults) pool).1 r.moduleName).Distinct :=
    Distinct.located (distinct_nameIn (distinct.merge defaults)) _
  have sound : ∀ v ∈ r.vars, ∃ inner,
      (located (nameIn type (config.merge defaults) pool).1 r.moduleName).get? v.target =
        some (.variable inner) ∧ Variable.declare catalog v.target inner = .ok v := by
    intro v member
    obtain ⟨inner, place, declared⟩ := Variable.extract_sound assembles.vars v member
    exact ⟨inner, keyed.get?_of_mem place, declared⟩
  refine ⟨?_, fun key other kept => ?_, ?_, fun v member => ?_, fun v member => ?_⟩
  · have covered : ∀ v ∈ r.vars,
        v.target ∈ (located (nameIn type (config.merge defaults) pool).1 r.moduleName).keys := by
      intro v member
      obtain ⟨inner, found, -⟩ := sound v member
      exact Dict.mem_keys_of_mem (Dict.mem_of_get? found)
    rw [assembles.config, keys_resolve covered, keys_located, Dict.keys_merge config also]
  · have same := get?_located assembles.module kept
    rw [assembles.config, get?_resolve_of_untouched, same]
    rintro v member rfl
    obtain ⟨inner, found, -⟩ := sound v member
    exact other inner (same ▸ found)
  · rw [Variable.targets_extract assembles.vars, markedKeys_located assembles.module]
  · obtain ⟨inner, found, declared⟩ := sound v member
    exact ⟨inner, variable_of_located found, declared⟩
  · rw [assembles.config]
    exact get?_resolve_of_mem (Variable.nodup_targets keyed assembles.vars) member

/-- The reference that stands for a variable's field has the name that the variable is declared by. -/
theorem standIn_target {catalog : Catalog} {target : String} {fields inner : Fields} {v : Variable}
    (nameless : catalog.NamesNoVariable) (found : fields.get? target = some (.variable inner))
    (declared : Variable.declare catalog target inner = .ok v) :
    Placeholder.standIn fields target = (Literal.referTo v.name).toList := by
  obtain ⟨merged, declares⟩ := Variable.declare_ok declared
  rw [Placeholder.standIn, found, Literal.ofField?_variable, declares.name_eq nameless]

/-- The fields of a built resource are the given ones, the missing defaults, a name and a module, in this
order. Nothing that was given or comes from a default is moved, dropped or changed, up to a missing name or
module and the variables. These are declared one for one and in field order, each from its field and for it,
and each takes its field with all that the declaration completes. Where declarations get no name by default,
the code has the reference to a variable by its name wherever its template has the field. -/
theorem completed_of_build {catalog : Catalog} {type : String} {config : Fields}
    {pool after : NamePool} {r : Resource} (distinct : config.Distinct)
    (success : build catalog type config pool = (.ok r, after)) :
    (∃ defaults, catalog.defaults type = .ok defaults ∧ Completed catalog config defaults r) ∧
    ∃ text fields, FilledFrom catalog type config pool r text fields ∧
      r.code.toList = (Placeholder.split text.toList).fillWith (Placeholder.standIn fields) ∧
      (catalog.NamesNoVariable → ∀ v ∈ r.vars,
        Placeholder.standIn fields v.target = (Literal.referTo v.name).toList) := by
  obtain ⟨merged, found, -, assembles⟩ := build_ok success
  obtain ⟨defaults, shipped, rfl⟩ := Catalog.withDefaults_eq_ok_iff.mp found
  have also : defaults.Distinct := (Value.law_wellKeyed.defaults shipped).distinct
  refine ⟨⟨defaults, shipped, assembles.completed distinct also⟩, ?_⟩
  obtain ⟨text, source, filled⟩ := render_ok assembles.code
  refine ⟨text, _, ⟨⟨_, found, rfl⟩, source, filled⟩, (Placeholder.fill_eq_ok_iff.mp filled).2, ?_⟩
  intro nameless v member
  obtain ⟨inner, place, declared⟩ := Variable.extract_sound assembles.vars v member
  have keyed : (located (nameIn type (config.merge defaults) pool).1 r.moduleName).Distinct :=
    Distinct.located (distinct_nameIn (distinct.merge defaults)) _
  exact standIn_target nameless (keyed.get?_of_mem place) declared

namespace Houses

/-- Houses have a size by default, and a zone that is no variable. -/
def catalog : Catalog where
  disk :=
    { workingDirectory := []
      entries :=
        [(["root"], .directory), (["root", "infra_templates"], .directory),
          (["root", "infra_defaults"], .directory),
          (["root", "infra_templates", "house.tf"],
            .file "zone = <zone>\nsize = <size>\n".toUTF8),
          (["root", "infra_templates", "_config_variable.tf"], .file "variable <name>\n".toUTF8),
          (["root", "infra_defaults", "house.yaml"], .file "size: 2\nzone: {}\n".toUTF8)] }
  root := "root"
  libraries := .own

def config : Fields :=
  [("_module", .null),
    ("zone", .variable
      [("is_variable", .bool true), ("type", .string "string"), ("name", .string "home")])]

theorem distinct_config : config.Distinct := by
  unfold Dict.Distinct
  decide

theorem namesNoVariable : catalog.NamesNoVariable := by
  intro defaults found
  have missing : catalog.defaults Variable.template = .ok [] :=
    Catalog.defaults_of_missing (by decide) (by decide +kernel)
  cases Except.ok.inj (missing.symm.trans found)
  rfl

end Houses

/-- The empty module keeps its place, the default zone is not taken, and the name comes last. -/
theorem completed_of_build_house :
    ∃ r after, build Houses.catalog "house" Houses.config Zones.pool = (.ok r, after) ∧
      r.code = "zone = var.home\nsize = 2\n" ∧
      r.config.keys = ["_module", "zone", "size", "resource_name"] ∧
      (∃ defaults, Houses.catalog.defaults "house" = .ok defaults ∧
        Completed Houses.catalog Houses.config defaults r) ∧
      ∃ text fields, FilledFrom Houses.catalog "house" Houses.config Zones.pool r text fields ∧
        ∀ v ∈ r.vars, Placeholder.standIn fields v.target = (Literal.referTo v.name).toList := by
  have outcome : (build Houses.catalog "house" Houses.config Zones.pool).1.map
      (fun r => (r.code, r.config.keys)) =
        .ok ("zone = var.home\nsize = 2\n", ["_module", "zone", "size", "resource_name"]) := by
    decide +kernel
  obtain ⟨r, built, same⟩ := Except.map_eq_ok_iff.mp outcome
  have success : build Houses.catalog "house" Houses.config Zones.pool =
      (.ok r, (build Houses.catalog "house" Houses.config Zones.pool).2) :=
    Prod.fst_eq_iff.mp built
  obtain ⟨whole, text, fields, filled, -, references⟩ :=
    completed_of_build Houses.distinct_config success
  exact ⟨r, _, success, congrArg Prod.fst same, congrArg Prod.snd same, whole, text, fields,
    filled, references Houses.namesNoVariable⟩

end Resource

end Groundwork
