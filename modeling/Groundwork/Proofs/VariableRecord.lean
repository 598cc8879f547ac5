import Groundwork.Proofs.Lawful
import Groundwork.Proofs.Mirror
import Groundwork.Proofs.Rebuilding

set_option autoImplicit false

/- The variables that an environment records. They are collected by their names and recorded by the
fields that they stand for, so an entry of the section of variables and a marked field beside it may
share one place in the record. The later one takes it, and the record is complete exactly if this
does not happen. -/
namespace Groundwork.Environment

/-- The last of the variables that stand for a field. -/
def lastFor (vars : List Variable) (target : String) : Option Variable :=
  (vars.filter (·.target = target)).getLast?

theorem lastFor_append_singleton (vars : List Variable) (v : Variable) (target : String) :
    lastFor (vars ++ [v]) target = if v.target = target then some v else lastFor vars target := by
  unfold lastFor
  rw [List.filter_append]
  by_cases here : v.target = target
  · rw [if_pos here, List.filter_cons_of_pos (by simpa using here), List.filter_nil,
      List.getLast?_concat]
  · rw [if_neg here, List.filter_cons_of_neg (by simpa using here), List.filter_nil,
      List.append_nil]

theorem mem_of_lastFor {vars : List Variable} {target : String} {v : Variable}
    (last : lastFor vars target = some v) : v ∈ vars ∧ v.target = target := by
  have kept := List.mem_filter.mp (List.mem_of_getLast? last)
  exact ⟨kept.1, of_decide_eq_true kept.2⟩

theorem lastFor_eq_none_iff {vars : List Variable} {target : String} :
    lastFor vars target = none ↔ target ∉ vars.map (·.target) := by
  simp [lastFor]

/-- Where no two variables stand for one field, each is the last one for its own. -/
theorem lastFor_of_mem {vars : List Variable} (apart : (vars.map (·.target)).Nodup) {v : Variable}
    (member : v ∈ vars) : lastFor vars v.target = some v := by
  have present : lastFor vars v.target ≠ none := by
    rw [Ne, lastFor_eq_none_iff]
    exact not_not_intro (List.mem_map_of_mem member)
  obtain ⟨w, last⟩ := Option.ne_none_iff_exists'.mp present
  obtain ⟨inside, same⟩ := mem_of_lastFor last
  rw [last, List.inj_on_of_nodup_map apart inside member same]

theorem get?_recordVariables (declared : Fields) (vars : List Variable) (target : String) :
    (recordVariables declared vars).get? target =
      ((lastFor vars target).map (·.toValue)).or (declared.get? target) := by
  induction vars using List.reverseRecOn with
  | nil => rfl
  | append_singleton vars v ih =>
      have step : recordVariables declared (vars ++ [v]) =
          (recordVariables declared vars).insert v.target v.toValue := List.foldl_append
      rw [step, lastFor_append_singleton]
      by_cases here : v.target = target
      · rw [if_pos here, ← here, Dict.get?_insert_self]
        rfl
      · rw [if_neg here, Dict.get?_insert_of_ne _ _ here, ih]

/-- The section of variables holds, for every field, the last variable that stands for it, and nothing
else. -/
structure Records (e : Environment) (recorded : Fields) : Prop where
  inSection : e.config.get? variablesKey = some (.map recorded)
  entries : ∀ target, recorded.get? target = (lastFor e.vars target).map (·.toValue)

theorem records_refresh {e : Environment}
    (covered : ∀ target ∈ (declaredFields e.config).keys, target ∈ e.vars.map (·.target)) :
    e.refresh.Records (recordVariables (declaredFields e.config) e.vars) := by
  refine ⟨get?_refresh e variablesKey, fun target => ?_⟩
  have same : e.refresh.vars = e.vars := rfl
  rw [get?_recordVariables, same]
  cases last : lastFor e.vars target with
  | some v => rfl
  | none =>
      have absent := mt (covered target) (lastFor_eq_none_iff.mp last)
      rw [(Dict.get?_eq_none_iff _ _).mpr absent]
      rfl

/-- Recording a second time writes over what was recorded. -/
theorem Records.refresh {e next : Environment} {recorded : Fields} (records : e.Records recorded)
    (sameConfig : next.config = e.config) (sameVars : next.vars = e.vars) :
    ∃ again, next.refresh.Records again := by
  refine ⟨_, records_refresh fun target member => ?_⟩
  have declared : declaredFields next.config = recorded := by
    unfold declaredFields
    rw [sameConfig, records.inSection]
  have present : recorded.get? target ≠ none := by
    rw [Ne, Dict.get?_eq_none_iff, ← declared]
    exact not_not_intro member
  rw [records.entries, Ne, Option.map_eq_none_iff, lastFor_eq_none_iff, ← sameVars] at present
  exact Decidable.not_not.mp present

theorem records_extendEach {catalog : Catalog} {name : String} {config : Fields}
    {built e : Environment} {inputs : List (List Provider × List Module)}
    (success : build catalog name config = .ok built)
    (extended : built.extendEach catalog inputs = .ok e) :
    ∃ recorded, e.Records recorded := by
  obtain ⟨merged, inSection, marked, template, builds, rfl⟩ := build_ok success
  have collected := builds.collected
  have covered : ∀ target ∈ (declaredFields merged).keys,
      target ∈ (Module.addVariables inSection marked).map (·.target) := by
    intro target member
    rw [collected.vars_eq, List.map_append, collected.targets.1]
    exact List.mem_append_left _ member
  have first : ∃ recorded, Records
      (refresh ⟨name, merged, Module.addVariables inSection marked, template, "", ""⟩) recorded :=
    ⟨_, records_refresh covered⟩
  refine extendEach_rec (P := fun x => ∃ recorded, x.Records recorded) extended first ?_
  intro before mainCode known
  obtain ⟨recorded, records⟩ := known
  exact records.refresh rfl rfl

/-- Every variable is recorded under its target, with its complete fields. -/
def Complete (vars : List Variable) (recorded : Fields) : Prop :=
  ∀ v ∈ vars, recorded.get? v.target = some v.toValue

/-- Variables with the same complete fields have the same name. -/
theorem name_of_toValue {catalog : Catalog} {u v : Variable} {target field : String}
    {fields inner : Fields} (declared : Variable.declare catalog target fields = .ok u)
    (other : Variable.declare catalog field inner = .ok v) (same : u.toValue = v.toValue) :
    u.name = v.name := by
  have named : ∀ {target : String} {fields : Fields} {w : Variable},
      Variable.declare catalog target fields = .ok w →
        w.config.get? Value.nameKey = some (.string w.name) := by
    intro target fields w declared
    obtain ⟨merged, declares⟩ := Variable.declare_ok declared
    rw [declares.config_eq, declares.reference]
    exact Variable.get?_name_complete target merged
  have config : u.config = v.config := Value.variable.inj same
  have names := (named declared).symm.trans (config ▸ named other)
  exact Value.string.inj (Option.some.inj names)

theorem Collected.complete_iff {catalog : Catalog} {merged : Fields}
    {inSection marked vars : List Variable} {recorded : Fields}
    (collected : Collected catalog merged inSection marked vars)
    (distinct : (declaredFields merged).Distinct) (also : merged.Distinct)
    (entries : ∀ target, recorded.get? target = (lastFor vars target).map (·.toValue)) :
    Complete vars recorded ↔
      ∀ v ∈ Module.unseen inSection marked, v.target ∉ (declaredFields merged).keys := by
  obtain ⟨inTargets, markedTargets⟩ := collected.targets
  constructor
  · intro complete v member clash
    -- The entry of the section and the field are recorded alike, so they would have one name.
    rw [← inTargets] at clash
    obtain ⟨u, known, same⟩ := List.mem_map.mp clash
    have first := complete u (collected.vars_eq ▸ List.mem_append_left _ known)
    have second := complete v (collected.vars_eq ▸ List.mem_append_right _ member)
    rw [same, second] at first
    obtain ⟨_, -, _, -, declared⟩ := mem_of_forall₂ collected.ofSection known
    obtain ⟨_, -, _, -, other⟩ :=
      mem_of_forall₂ collected.ofMarked ((Module.unseen_sublist inSection marked).subset member)
    have names := name_of_toValue declared other (Option.some.inj first).symm
    exact Module.name_of_mem_unseen member (names ▸ List.mem_map_of_mem known)
  · intro apart v member
    have nodup : (vars.map (·.target)).Nodup := by
      rw [collected.vars_eq, List.map_append, List.nodup_append, inTargets]
      have kept : ((Module.unseen inSection marked).map (·.target)).Nodup := by
        have all : (marked.map (·.target)).Nodup := by
          rw [markedTargets]
          exact List.Sublist.nodup (List.filter_sublist.map _) also
        exact all.sublist ((Module.unseen_sublist inSection marked).map _)
      refine ⟨distinct, kept, fun target declared other fresh same => ?_⟩
      obtain ⟨w, inside, rfl⟩ := List.mem_map.mp fresh
      exact apart w inside (same ▸ declared)
    rw [entries, lastFor_of_mem nodup member]
    rfl

/-- However often an environment is extended, its section of variables records under every field the last
variable that stands for it. Each variable is recorded exactly if no marked field that adds one is called
like an entry of the section. -/
theorem complete_extendEach_iff {catalog : Catalog} {name : String} {config : Fields}
    {built e : Environment} {inputs : List (List Provider × List Module)} (keyed : config.WellKeyed)
    (success : build catalog name config = .ok built)
    (extended : built.extendEach catalog inputs = .ok e) :
    ∃ merged inSection marked recorded,
      catalog.withDefaults templateName config = .ok merged ∧
      Collected catalog merged inSection marked e.vars ∧ e.Records recorded ∧
      (Complete e.vars recorded ↔
        ∀ v ∈ Module.unseen inSection marked, v.target ∉ (declaredFields merged).keys) := by
  obtain ⟨recorded, records⟩ := records_extendEach success extended
  obtain ⟨merged, inSection, marked, completed, collected, -⟩ := exists_collected success extended
  have whole := Value.law_wellKeyed.withDefaults keyed completed
  have declared : (declaredFields merged).Distinct :=
    ((obeys_declaredFields Value.law_wellKeyed whole).fields rfl).distinct
  exact ⟨merged, inSection, marked, recorded, completed, collected, records,
    collected.complete_iff declared whole.distinct records.entries⟩

namespace Twins

theorem wellKeyed_called (name : String) : (called name).WellKeyed := by
  have named : Fields.WellKeyed [("name", .string name)] :=
    Fields.wellKeyed_singleton (.string name)
  have new : "type" ∉ ["name"] := by decide
  exact (named.cons new (.string "string")).map

/-- An entry of the section and a marked field stand for `a`, under different names. -/
def clashing : Fields :=
  [("variables", .map [("a", called "x")]),
    ("a", .variable [("is_variable", .bool true), ("type", .string "string")])]

/-- The field has another name than the entry. -/
def apart : Fields :=
  [("variables", .map [("a", called "x")]),
    ("b", .variable [("is_variable", .bool true), ("type", .string "string")])]

theorem wellKeyed_apart : apart.WellKeyed := by
  have inner : Fields.WellKeyed [("is_variable", .bool true), ("type", .string "string")] :=
    (Fields.wellKeyed_singleton (.string "string")).cons (by decide) (.bool true)
  have inSection : Fields.WellKeyed [("a", called "x")] :=
    Fields.wellKeyed_singleton (wellKeyed_called "x")
  exact (Fields.wellKeyed_singleton inner.marked).cons (by decide) inSection.map

end Twins

/-- An entry and a field of different names are both recorded. -/
theorem complete_extendEach_iff_apart :
    Twins.apart.WellKeyed ∧ ∃ built e, build Twins.catalog "dev" Twins.apart = .ok built ∧
      built.extendEach Twins.catalog Twins.twice = .ok e ∧ e.vars.map (·.target) = ["a", "b"] ∧
      ∃ recorded, e.Records recorded ∧ Complete e.vars recorded := by
  have outcome : (build Twins.catalog "dev" Twins.apart >>=
      (·.extendEach Twins.catalog Twins.twice)).map
      (fun e => e.vars.map (·.target)) = .ok ["a", "b"] := by
    decide +kernel
  obtain ⟨e, success, targets⟩ := Except.map_eq_ok_iff.mp outcome
  obtain ⟨built, first, extended⟩ := Except.bind_eq_ok_iff.mp success
  obtain ⟨merged, inSection, marked, recorded, -, collected, records, complete⟩ :=
    complete_extendEach_iff Twins.wellKeyed_apart first extended
  refine ⟨Twins.wellKeyed_apart, built, e, first, extended, targets, recorded, records,
    complete.mpr ?_⟩
  have distinct : (e.vars.map (·.target)).Nodup := by
    rw [targets]
    decide
  rw [collected.vars_eq, List.map_append, List.nodup_append, collected.targets.1] at distinct
  exact fun v member clash => distinct.2.2 v.target clash v.target (List.mem_map_of_mem member) rfl

/-- The code declares a variable that no record holds: another one has taken its place. -/
theorem variable_not_recorded :
    ∃ built e, build Twins.catalog "dev" Twins.clashing = .ok built ∧
      built.extendEach Twins.catalog [([], [])] = .ok e ∧ e.variableNames = ["x", "a"] ∧
      e.variableCode = "variable \"x\"\n\nvariable \"a\"" ∧
      ¬ ∃ recorded, e.config.get? variablesKey = some (.map recorded) ∧ Complete e.vars recorded := by
  have outcome : (build Twins.catalog "dev" Twins.clashing >>=
      (·.extendEach Twins.catalog [([], [])])).map
      (fun e => (e.variableNames, e.variableCode,
        e.vars.map fun v => (v.target, v.config.text? Value.nameKey))) =
        .ok (["x", "a"], "variable \"x\"\n\nvariable \"a\"", [("a", some "x"), ("a", some "a")]) := by
    decide +kernel
  obtain ⟨e, success, same⟩ := Except.map_eq_ok_iff.mp outcome
  obtain ⟨built, first, extended⟩ := Except.bind_eq_ok_iff.mp success
  obtain ⟨names, code, vars⟩ := Prod.ext_iff.mp same |>.imp_right Prod.ext_iff.mp
  refine ⟨built, e, first, extended, names, code, ?_⟩
  rintro ⟨recorded, -, complete⟩
  obtain ⟨u, rest, whole, here, others⟩ := List.map_eq_cons_iff.mp vars
  obtain ⟨v, _, rfl, there, -⟩ := List.map_eq_cons_iff.mp others
  have one := complete u (whole ▸ List.mem_cons_self)
  have two := complete v (whole ▸ List.mem_cons_of_mem u List.mem_cons_self)
  have targets : u.target = v.target :=
    (congrArg Prod.fst here).trans (congrArg Prod.fst there).symm
  rw [targets, two] at one
  have config : v.config = u.config := Value.variable.inj (Option.some.inj one)
  have text : some "a" = some "x" :=
    (congrArg Prod.snd there).symm.trans (config ▸ congrArg Prod.snd here)
  exact absurd text (by decide)

end Groundwork.Environment
