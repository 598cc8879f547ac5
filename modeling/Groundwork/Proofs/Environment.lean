import Groundwork.Environment
import Groundwork.Proofs.Module
import Groundwork.Proofs.Variable
import Mathlib.Data.List.Count
import Mathlib.Data.List.Nodup

set_option autoImplicit false

/- Variables of an environment. They come from two places, the entries of its section of variables
and the marked fields beside it. A marked field adds a variable only under a name that is still
free, so it never repeats a name; the entries of the section are taken as they are. -/
namespace Groundwork

namespace Module

theorem count_addVariable (known : List Variable) (v : Variable) (name : String) :
    ((addVariable known v).map (·.name)).count name =
      max ((known.map (·.name)).count name) (if name = v.name then 1 else 0) := by
  rw [addVariable_eq]
  by_cases present : v.name ∈ known.map (·.name)
  · have positive := List.count_pos_iff.mpr present
    rw [if_pos present]
    by_cases here : name = v.name
    · rw [if_pos here, here]
      omega
    · rw [if_neg here]
      omega
  · have unused := List.count_eq_zero.mpr present
    rw [if_neg present, List.map_append, List.count_append, List.map_singleton]
    by_cases here : name = v.name
    · rw [if_pos here, here, unused, List.count_singleton_self]
      rfl
    · have other : [v.name].count name = 0 :=
        List.count_eq_zero.mpr fun member => here (List.mem_singleton.mp member)
      rw [if_neg here, other]
      omega

/-- A name is declared as often as before, but at least once where a variable of it is added. -/
theorem count_addVariables (known vs : List Variable) (name : String) :
    ((addVariables known vs).map (·.name)).count name =
      max ((known.map (·.name)).count name) (if name ∈ vs.map (·.name) then 1 else 0) := by
  induction vs generalizing known with
  | nil => simp [addVariables]
  | cons v rest ih =>
      change ((addVariables (addVariable known v) rest).map _).count name = _
      -- Being declared at least once by the first or by a later variable is one condition.
      rw [ih, count_addVariable, Nat.max_assoc, List.map_cons]
      congr 1
      grind

theorem nodup_addVariables_iff (known vs : List Variable) :
    ((addVariables known vs).map (·.name)).Nodup ↔ (known.map (·.name)).Nodup := by
  rw [List.nodup_iff_count_le_one, List.nodup_iff_count_le_one]
  refine forall_congr' fun name => ?_
  rw [count_addVariables]
  split <;> omega

end Module

namespace Environment

/-- The variable that an entry of the section of variables stands for. -/
def SectionVariable (catalog : Catalog) (entry : String × Value) (v : Variable) : Prop :=
  ∃ fields, entry.2.fields? = some fields ∧ Variable.declare catalog entry.1 fields = .ok v

theorem forall₂_declareAll {catalog : Catalog} {entity : Entity} {fields : Fields}
    {vars : List Variable} (success : declareAll catalog entity fields = .ok vars) :
    List.Forall₂ (SectionVariable catalog) fields vars := by
  induction fields generalizing vars with
  | nil =>
      cases Except.ok.inj success
      exact .nil
  | cons entry rest ih =>
      unfold declareAll at success
      split at success
      · cases success
      · rename_i fields found
        obtain ⟨v, first, success⟩ := Except.bind_eq_ok_iff.mp success
        obtain ⟨others, more, rfl⟩ := Except.bind_pure_eq_ok_iff.mp success
        exact .cons ⟨fields, found, Except.mapError_eq_ok_iff.mp first⟩ (ih more)

theorem forall₂_sectionVariables {catalog : Catalog} {entity : Entity} {config : Fields}
    {vars : List Variable} (success : sectionVariables catalog entity config = .ok vars) :
    List.Forall₂ (SectionVariable catalog) (declaredFields config) vars := by
  unfold sectionVariables at success
  unfold declaredFields
  split at success
  · rename_i absent
    cases success
    rw [absent]
    exact .nil
  · rename_i absent
    cases success
    rw [absent]
    exact .nil
  · rename_i found
    rw [found]
    exact forall₂_declareAll success
  · cases success

/-- What an environment is built of: its complete fields, and the variables of both kinds. -/
structure Builds (catalog : Catalog) (config merged : Fields)
    (inSection marked : List Variable) : Prop where
  completed : catalog.withDefaults templateName config = .ok merged
  inSection : List.Forall₂ (SectionVariable catalog) (declaredFields merged) inSection
  marked : Variable.extract catalog merged = .ok marked

theorem build_ok {catalog : Catalog} {name : String} {config : Fields} {e : Environment}
    (success : build catalog name config = .ok e) :
    ∃ merged inSection marked template, Builds catalog config merged inSection marked ∧
      e = refresh ⟨name, merged, Module.addVariables inSection marked, template, "", ""⟩ := by
  obtain ⟨merged, completed, success⟩ := Except.bind_eq_ok_iff.mp success
  obtain ⟨inSection, declared, success⟩ := Except.bind_eq_ok_iff.mp success
  obtain ⟨marked, extracted, success⟩ := Except.bind_eq_ok_iff.mp success
  obtain ⟨template, -, rfl⟩ := Except.bind_pure_eq_ok_iff.mp success
  exact ⟨merged, inSection, marked, template, ⟨ofTemplates_eq_ok_iff.mp completed,
    forall₂_sectionVariables declared, Except.mapError_eq_ok_iff.mp extracted⟩, rfl⟩

/-- The declarations of all variables, with a blank line between them. -/
def declarations (e : Environment) : String := "\n\n".intercalate (e.vars.map (·.declaration))

theorem extend_eq_ok_iff {catalog : Catalog} {e extended : Environment} {providers : List Provider}
    {modules : List Module} :
    e.extend catalog providers modules = .ok extended ↔ ∃ mainCode,
      catalog.render templateName e.template (e.context providers modules) = .ok mainCode ∧
      refresh { e with mainCode, variableCode := e.declarations } = extended := by
  simp only [← ofTemplates_eq_ok_iff (a := (_ : String))]
  exact Except.bind_pure_eq_ok_iff

/-- The declarations are written for the variables that are there. -/
theorem variables_extend {catalog : Catalog} {e extended : Environment} {providers : List Provider}
    {modules : List Module} (success : e.extend catalog providers modules = .ok extended) :
    extended.variableNames = e.variableNames ∧
      extended.variableCode = "\n\n".intercalate (e.vars.map (·.declaration)) := by
  obtain ⟨mainCode, -, rfl⟩ := extend_eq_ok_iff.mp success
  exact ⟨rfl, rfl⟩

/-- Names are different exactly if those of the section are. How often a name is declared is up to the
section, and marked fields declare the others once; the declarations are then written for just these
variables. -/
theorem variableNames_nodup_iff {catalog : Catalog} {name : String} {config : Fields}
    {e : Environment} (success : build catalog name config = .ok e) :
    ∃ merged inSection marked, Builds catalog config merged inSection marked ∧
      (∀ other, e.variableNames.count other = max ((inSection.map (·.name)).count other)
        (if other ∈ marked.map (·.name) then 1 else 0)) ∧
      (e.variableNames.Nodup ↔ (inSection.map (·.name)).Nodup) ∧
      ∀ providers modules extended, e.extend catalog providers modules = .ok extended →
        extended.variableNames = e.variableNames ∧
        extended.variableCode = "\n\n".intercalate (e.vars.map (·.declaration)) := by
  obtain ⟨merged, inSection, marked, template, builds, rfl⟩ := build_ok success
  exact ⟨merged, inSection, marked, builds, Module.count_addVariables inSection marked,
    Module.nodup_addVariables_iff inSection marked, fun _ _ _ further => variables_extend further⟩

namespace Twins

/-- An empty root code, and declarations that are just the name. -/
def catalog : Catalog where
  disk :=
    { workingDirectory := []
      entries :=
        [(["root"], .directory), (["root", "infra_templates"], .directory),
          (["root", "infra_templates", "_config_environment.tf"], .file "".toUTF8),
          (["root", "infra_templates", "_config_variable.tf"],
            .file "variable <name>".toUTF8)] }
  root := "root"
  libraries := .own

def called (name : String) : Value := .map [("type", .string "string"), ("name", .string name)]

/-- Two entries of the section have one name. -/
def paired : Fields := [("variables", .map [("a", called "x"), ("b", called "x")])]

/-- An entry of the section and a field beside it have one name. -/
def beside : Fields :=
  [("variables", .map [("a", called "x"), ("b", .map [("type", .string "string")])]),
    ("c", .variable [("is_variable", .bool true), ("type", .string "string"),
      ("name", .string "x")])]

end Twins

/-- The field beside the section declares nothing again. -/
theorem variableNames_nodup_iff_beside :
    ∃ e, build Twins.catalog "dev" Twins.beside = .ok e ∧ e.variableNames = ["x", "b"] ∧
      ∃ merged inSection marked, Builds Twins.catalog Twins.beside merged inSection marked ∧
        (e.variableNames.Nodup ↔ (inSection.map (·.name)).Nodup) := by
  have outcome : (build Twins.catalog "dev" Twins.beside).map (·.variableNames) =
      .ok ["x", "b"] := by
    decide +kernel
  obtain ⟨e, success, names⟩ := Except.map_eq_ok_iff.mp outcome
  obtain ⟨merged, inSection, marked, builds, -, distinct, -⟩ := variableNames_nodup_iff success
  exact ⟨e, success, names, merged, inSection, marked, builds, distinct⟩

/-- Two entries of the section declare one name, and the code declares it twice. -/
theorem variable_declared_twice :
    ∃ e extended, build Twins.catalog "dev" Twins.paired = .ok e ∧
      e.extend Twins.catalog [] [] = .ok extended ∧ ¬ e.variableNames.Nodup ∧
      extended.variableCode = "variable \"x\"\n\nvariable \"x\"" := by
  have outcome : (build Twins.catalog "dev" Twins.paired >>= (·.extend Twins.catalog [] [])).map
      (fun e => (e.variableNames, e.variableCode)) =
        .ok (["x", "x"], "variable \"x\"\n\nvariable \"x\"") := by
    decide +kernel
  obtain ⟨extended, success, same⟩ := Except.map_eq_ok_iff.mp outcome
  obtain ⟨e, built, further⟩ := Except.bind_eq_ok_iff.mp success
  have names : e.variableNames = ["x", "x"] :=
    (variables_extend further).1.symm.trans (congrArg Prod.fst same)
  refine ⟨e, extended, built, further, ?_, congrArg Prod.snd same⟩
  rw [names]
  decide

end Environment

end Groundwork
