import Groundwork.Proofs.Acceptance
import Groundwork.Proofs.Completion
import Groundwork.Proofs.FirstDeclaration

set_option autoImplicit false

/- What an environment writes about itself. Each time it is brought up to date, its fields take its
name, its two texts and the names of its variables; no other field but the section of variables is
touched. So after any number of extensions the fields mirror the environment, and else are what the
configuration and its defaults made them. -/
namespace Groundwork

namespace Environment

/-- The keys under which an environment writes about itself. -/
def mirrorKeys : List String := ["name", "main.tf", "var.tf", "variables_names", variablesKey]

/-- What an environment writes into its fields. -/
def mirror (e : Environment) : Fields :=
  [("name", .string e.name), ("main.tf", .string e.mainCode), ("var.tf", .string e.variableCode),
    ("variables_names", .ofNames e.variableNames),
    (variablesKey, .map (recordVariables (declaredFields e.config) e.vars))]

theorem distinct_mirror (e : Environment) : e.mirror.Distinct := by
  show mirrorKeys.Nodup
  decide

theorem declaredFields_insert {fields : Fields} {key : String} (v : Value)
    (other : key ≠ variablesKey) : declaredFields (fields.insert key v) = declaredFields fields := by
  unfold declaredFields
  rw [Dict.get?_insert_of_ne _ _ other]

theorem config_refresh (e : Environment) :
    e.refresh.config = e.mirror.foldl (fun fields entry => fields.insert entry.1 entry.2) e.config := by
  unfold refresh
  simp only [declaredFields_insert _ (show "name" ≠ variablesKey by decide),
    declaredFields_insert _ (show "main.tf" ≠ variablesKey by decide),
    declaredFields_insert _ (show "var.tf" ≠ variablesKey by decide),
    declaredFields_insert _ (show "variables_names" ≠ variablesKey by decide)]
  rfl

theorem get?_refresh (e : Environment) (key : String) :
    e.refresh.config.get? key = (e.mirror.get? key).or (e.config.get? key) := by
  rw [config_refresh, Dict.get?_foldl_insert e.distinct_mirror]

theorem keys_refresh (e : Environment) :
    e.refresh.config.keys = e.config.keys ++ mirrorKeys.filter (· ∉ e.config.keys) := by
  rw [config_refresh]
  exact Dict.keys_foldl_insert e.distinct_mirror e.config

/-- The fields are those that were completed, with what the environment writes about itself. -/
structure Mirrors (merged : Fields) (e : Environment) : Prop where
  name : e.config.get? "name" = some (.string e.name)
  mainCode : e.config.get? "main.tf" = some (.string e.mainCode)
  variableCode : e.config.get? "var.tf" = some (.string e.variableCode)
  variableNames : e.config.get? "variables_names" = some (.ofNames e.variableNames)
  others : ∀ key ∉ mirrorKeys, e.config.get? key = merged.get? key
  keys : e.config.keys = merged.keys ++ mirrorKeys.filter (· ∉ merged.keys)

theorem mirrors_refresh {merged : Fields} {e : Environment}
    (others : ∀ key ∉ mirrorKeys, e.config.get? key = merged.get? key)
    (keys : e.refresh.config.keys = merged.keys ++ mirrorKeys.filter (· ∉ merged.keys)) :
    Mirrors merged e.refresh := by
  refine ⟨get?_refresh e _, get?_refresh e _, get?_refresh e _, get?_refresh e _, ?_, keys⟩
  intro key other
  have unwritten : e.mirror.get? key = none := (Dict.get?_eq_none_iff e.mirror key).mpr other
  rw [get?_refresh, unwritten, Option.none_or, others key other]

/-- Keys that are there already stay in their places. -/
theorem Mirrors.refresh {merged : Fields} {e next : Environment} (mirrors : Mirrors merged e)
    (same : next.config = e.config) : Mirrors merged next.refresh := by
  have present : ∀ key ∈ mirrorKeys, key ∈ next.config.keys := by
    intro key member
    rw [same, mirrors.keys]
    by_cases given : key ∈ merged.keys
    · exact List.mem_append_left _ given
    · exact List.mem_append_right _ (List.mem_filter.mpr ⟨member, by simpa using given⟩)
  have none : mirrorKeys.filter (· ∉ next.config.keys) = [] := by
    rw [List.filter_eq_nil_iff]
    intro key member
    simpa using present key member
  apply mirrors_refresh
  · rw [same]
    exact mirrors.others
  · rw [keys_refresh, none, List.append_nil, same, mirrors.keys]

/-- Extends an environment once for each of these providers and modules. -/
def extendEach (catalog : Catalog) (e : Environment)
    (inputs : List (List Provider × List Module)) : Except Failure Environment :=
  inputs.foldlM (fun e input => e.extend catalog input.1 input.2) e

section

variable {catalog : Catalog}

theorem extendEach_cons_ok {e last : Environment} {input : List Provider × List Module}
    {rest : List (List Provider × List Module)}
    (success : e.extendEach catalog (input :: rest) = .ok last) :
    ∃ next, e.extend catalog input.1 input.2 = .ok next ∧
      next.extendEach catalog rest = .ok last :=
  Except.bind_eq_ok_iff.mp success

/-- What an extension keeps holds after any number of them. -/
theorem extendEach_rec {P : Environment → Prop} {e last : Environment}
    {inputs : List (List Provider × List Module)} (success : e.extendEach catalog inputs = .ok last)
    (first : P e)
    (step : ∀ (e : Environment) (mainCode : String), P e →
      P (refresh { e with mainCode, variableCode := e.declarations })) : P last := by
  induction inputs generalizing e with
  | nil =>
      cases Except.ok.inj success
      exact first
  | cons input rest ih =>
      obtain ⟨next, extended, more⟩ := extendEach_cons_ok success
      obtain ⟨mainCode, -, rfl⟩ := extend_eq_ok_iff.mp extended
      exact ih more (step e mainCode first)

theorem vars_extendEach {e last : Environment} {inputs : List (List Provider × List Module)}
    (success : e.extendEach catalog inputs = .ok last) : last.name = e.name ∧ last.vars = e.vars :=
  extendEach_rec (P := fun x => x.name = e.name ∧ x.vars = e.vars) success ⟨rfl, rfl⟩
    fun _ _ same => same

/-- One extension is enough to have all declarations written. -/
theorem variableCode_extendEach {e last : Environment}
    {inputs : List (List Provider × List Module)} (some : inputs ≠ [])
    (success : e.extendEach catalog inputs = .ok last) : last.variableCode = last.declarations := by
  cases inputs with
  | nil => exact absurd rfl some
  | cons input rest =>
      obtain ⟨next, extended, more⟩ := extendEach_cons_ok success
      obtain ⟨mainCode, -, rfl⟩ := extend_eq_ok_iff.mp extended
      exact extendEach_rec (P := fun x => x.variableCode = x.declarations) more rfl
        fun _ _ _ => rfl

end

/-- The variable that a marked field stands for. -/
def MarkedVariable (catalog : Catalog) (entry : String × Value) (v : Variable) : Prop :=
  ∃ inner, entry.2 = .variable inner ∧ Variable.declare catalog entry.1 inner = .ok v

theorem forall₂_extract {catalog : Catalog} {fields : Fields} {vars : List Variable}
    (extracted : Variable.extract catalog fields = .ok vars) :
    List.Forall₂ (MarkedVariable catalog) (fields.filter (·.2.isVariable)) vars := by
  fun_induction Variable.extract catalog fields generalizing vars with
  | case1 =>
      cases Except.ok.inj extracted
      exact .nil
  | case2 field config rest ih =>
      obtain ⟨v, declared, extracted⟩ := Except.bind_eq_ok_iff.mp extracted
      obtain ⟨others, more, rfl⟩ := Except.bind_pure_eq_ok_iff.mp extracted
      exact .cons ⟨config, rfl, declared⟩ (ih more)
  | case3 entry rest plain ih =>
      have other : ¬ entry.2.isVariable = true := by
        intro marked
        obtain ⟨inner, same⟩ := Variable.isVariable_iff.mp marked
        exact plain entry.1 inner (Prod.ext rfl same)
      have skipped : (entry :: rest).filter (·.2.isVariable) = rest.filter (·.2.isVariable) :=
        List.filter_cons_of_neg other
      rw [skipped]
      exact ih extracted

/-- The variables of the section in order, and behind them those marked fields, in order, whose name had
not been collected. -/
structure Collected (catalog : Catalog) (merged : Fields) (inSection marked vars : List Variable) :
    Prop where
  ofSection : List.Forall₂ (SectionVariable catalog) (declaredFields merged) inSection
  ofMarked : List.Forall₂ (MarkedVariable catalog) (merged.filter (·.2.isVariable)) marked
  vars_eq : vars = inSection ++ Module.unseen inSection marked

theorem Collected.targets {catalog : Catalog} {merged : Fields}
    {inSection marked vars : List Variable}
    (collected : Collected catalog merged inSection marked vars) :
    inSection.map (·.target) = (declaredFields merged).keys ∧
      marked.map (·.target) = Variable.markedKeys merged := by
  constructor
  · refine map_eq_of_forall₂ collected.ofSection fun entry v declared => ?_
    obtain ⟨fields, -, success⟩ := declared
    exact (Variable.declare_ok success).elim fun _ declares => declares.target_eq
  · refine map_eq_of_forall₂ collected.ofMarked fun entry v declared => ?_
    obtain ⟨inner, -, success⟩ := declared
    exact (Variable.declare_ok success).elim fun _ declares => declares.target_eq

theorem Builds.collected {catalog : Catalog} {config merged : Fields}
    {inSection marked : List Variable} (builds : Builds catalog config merged inSection marked) :
    Collected catalog merged inSection marked (Module.addVariables inSection marked) :=
  ⟨builds.inSection, forall₂_extract builds.marked, Module.addVariables_eq_unseen ..⟩

theorem exists_collected {catalog : Catalog} {name : String} {config : Fields}
    {built e : Environment} {inputs : List (List Provider × List Module)}
    (success : build catalog name config = .ok built)
    (extended : built.extendEach catalog inputs = .ok e) :
    ∃ merged inSection marked, catalog.withDefaults templateName config = .ok merged ∧
      Collected catalog merged inSection marked e.vars ∧ Mirrors merged e := by
  obtain ⟨-, sameVars⟩ := vars_extendEach extended
  obtain ⟨merged, inSection, marked, template, builds, rfl⟩ := build_ok success
  have first : Mirrors merged
      (refresh ⟨name, merged, Module.addVariables inSection marked, template, "", ""⟩) :=
    mirrors_refresh (fun _ _ => rfl) (keys_refresh _)
  have mirrors := extendEach_rec extended first fun _ _ mirrors => mirrors.refresh rfl
  refine ⟨merged, inSection, marked, builds.completed, ?_, mirrors⟩
  rw [sameVars]
  exact builds.collected

/-- However often an environment is extended, its variables are those that were collected when it was
built. Its fields are the completed ones, each in its place, but for the keys under which it writes about
itself; there stand its current name, texts and variable names. The declarations are written as soon as
it has been extended once. -/
theorem mirrors_extendEach {catalog : Catalog} {name : String} {config : Fields}
    {built e : Environment} {inputs : List (List Provider × List Module)}
    (success : build catalog name config = .ok built)
    (extended : built.extendEach catalog inputs = .ok e) :
    e.name = built.name ∧ e.vars = built.vars ∧ ∃ merged inSection marked,
      catalog.withDefaults templateName config = .ok merged ∧
      Collected catalog merged inSection marked e.vars ∧ Mirrors merged e ∧
      (inputs ≠ [] → e.variableCode = "\n\n".intercalate (e.vars.map (·.declaration))) := by
  obtain ⟨sameName, sameVars⟩ := vars_extendEach extended
  obtain ⟨merged, inSection, marked, completed, collected, mirrors⟩ :=
    exists_collected success extended
  exact ⟨sameName, sameVars, merged, inSection, marked, completed, collected, mirrors,
    fun some => variableCode_extendEach some extended⟩

namespace Twins

/-- Fields that have names of what an environment writes, one of them a variable. -/
def shadowing : Fields :=
  [("var.tf", .string "old"), ("name", .variable [("is_variable", .bool true),
      ("type", .string "string")]), ("variables", .map [("a", called "x")]),
    ("region", .string "west"), ("b", .variable [("is_variable", .bool true),
      ("type", .string "string"), ("name", .string "x")])]

/-- Two extensions without providers and modules. -/
def twice : List (List Provider × List Module) := [([], []), ([], [])]

end Twins

/-- Names and texts take the place of what stood there, and the variable behind the name is kept. -/
theorem mirrors_extendEach_shadowing :
    ∃ built e, build Twins.catalog "dev" Twins.shadowing = .ok built ∧
      built.extendEach Twins.catalog Twins.twice = .ok e ∧
      e.config.keys =
        ["var.tf", "name", "variables", "region", "b", "main.tf", "variables_names"] ∧
      e.variableNames = ["x", "name"] ∧
      e.variableCode = "\n\n".intercalate (e.vars.map (·.declaration)) ∧
      ∃ merged inSection marked, Collected Twins.catalog merged inSection marked e.vars ∧
        Mirrors merged e := by
  have outcome : (build Twins.catalog "dev" Twins.shadowing >>=
      (·.extendEach Twins.catalog Twins.twice)).map
      (fun e => (e.config.keys, e.variableNames)) =
        .ok (["var.tf", "name", "variables", "region", "b", "main.tf", "variables_names"],
          ["x", "name"]) := by
    decide +kernel
  obtain ⟨e, success, same⟩ := Except.map_eq_ok_iff.mp outcome
  obtain ⟨built, first, extended⟩ := Except.bind_eq_ok_iff.mp success
  obtain ⟨-, -, merged, inSection, marked, -, collected, mirrors, written⟩ :=
    mirrors_extendEach first extended
  exact ⟨built, e, first, extended, congrArg Prod.fst same, congrArg Prod.snd same,
    written (List.cons_ne_nil _ _), merged, inSection, marked, collected, mirrors⟩

end Environment

end Groundwork
