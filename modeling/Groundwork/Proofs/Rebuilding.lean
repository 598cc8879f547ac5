import Groundwork.Proofs.Completion

set_option autoImplicit false

/- Recorded fields build what they were recorded from. Everything that is put into fields on the way
to a variable or to a resource is found there the second time, so each step leaves them as they
are. -/
namespace Groundwork

namespace Variable

/-- The variable of complete fields. -/
def ofComplete (target type : String) (config : Fields) (declaration : String) : Variable where
  target
  name := referenceName target config
  type
  default := (config.get? defaultKey).getD .null
  description := ((config.get? descriptionKey).bind Value.string?).getD ""
  config
  declaration

theorem declare_eq_ok_iff {catalog : Catalog} {target : String} {config : Fields} {v : Variable} :
    declare catalog target config = .ok v ↔ ∃ type merged declaration,
      config.text? typeKey = some type ∧ catalog.withDefaults template config = .ok merged ∧
        render catalog target (complete target merged) = .ok declaration ∧
          v = ofComplete target type (complete target merged) declaration := by
  unfold declare
  constructor
  · intro declared
    split at declared
    · cases declared
    · rename_i type typed
      obtain ⟨merged, found, declared⟩ := Except.bind_eq_ok_iff.mp declared
      obtain ⟨declaration, rendered, declared⟩ := Except.bind_eq_ok_iff.mp declared
      exact ⟨type, merged, declaration, typed, ofTemplates_eq_ok_iff.mp found, rendered,
        (Except.ok.inj declared).symm⟩
  · rintro ⟨type, merged, declaration, typed, found, rendered, rfl⟩
    rw [typed]
    refine Except.bind_eq_ok_iff.mpr ⟨merged, ofTemplates_eq_ok_iff.mpr found, ?_⟩
    exact Except.bind_eq_ok_iff.mpr ⟨declaration, rendered, rfl⟩

theorem get?_complete {target key : String} {fields : Fields}
    (other : key ∉ [targetKey, Value.marker, Value.nameKey]) :
    (complete target fields).get? key = fields.get? key := by
  simp only [List.mem_cons, List.not_mem_nil, or_false, not_or] at other
  obtain ⟨target, marker, name⟩ := other
  rw [complete, Dict.get?_insert_of_ne _ _ (Ne.symm name),
    Dict.get?_insert_of_ne _ _ (Ne.symm marker), Dict.get?_insert_of_ne _ _ (Ne.symm target)]

theorem mem_keys_complete {target key : String} {fields : Fields} (member : key ∈ fields.keys) :
    key ∈ (complete target fields).keys :=
  Dict.mem_keys_insert (Dict.mem_keys_insert (Dict.mem_keys_insert member))

/-- The name that is recorded is the one that the complete fields are referred to by. -/
theorem get?_name_complete (target : String) (fields : Fields) :
    (complete target fields).get? Value.nameKey =
      some (.string (referenceName target (complete target fields))) := by
  rw [referenceName_complete, complete, Dict.get?_insert_self, referenceName, text?_name_marked,
    ← referenceName]

theorem complete_complete (target : String) (fields : Fields) :
    complete target (complete target fields) = complete target fields := by
  have targeted : (complete target fields).get? targetKey = some (.string target) := by
    rw [complete, Dict.get?_insert_of_ne _ _ (by decide), Dict.get?_insert_of_ne _ _ (by decide),
      Dict.get?_insert_self]
  have marked : (complete target fields).get? Value.marker = some (.bool true) := by
    rw [complete, Dict.get?_insert_of_ne _ _ (by decide), Dict.get?_insert_self]
  have same : ((complete target fields).insert targetKey (.string target)).insert Value.marker
      (.bool true) = complete target fields := by
    rw [Dict.insert_of_get? targeted, Dict.insert_of_get? marked]
  rw [complete, same, Dict.insert_of_get? (get?_name_complete target fields)]

/-- A type that is given is not taken from the defaults. -/
theorem text?_type_complete {target type : String} {config defaults : Fields}
    (typed : config.text? typeKey = some type) :
    (complete target (config.merge defaults)).text? typeKey = some type := by
  unfold Dict.text? at typed ⊢
  rw [get?_complete (by decide), Dict.get?_merge]
  cases given : config.get? typeKey with
  | none =>
      rw [given] at typed
      cases typed
  | some v => rwa [given] at typed

/-- Fields that a declaration has completed declare the same variable once more. -/
theorem declare_config {catalog : Catalog} {target : String} {config : Fields} {v : Variable}
    (declared : declare catalog target config = .ok v) :
    declare catalog v.target v.config = .ok v := by
  obtain ⟨type, merged, declaration, typed, found, rendered, rfl⟩ := declare_eq_ok_iff.mp declared
  obtain ⟨defaults, shipped, rfl⟩ := Catalog.withDefaults_eq_ok_iff.mp found
  have covered : ∀ key ∈ defaults.keys, key ∈ (complete target (config.merge defaults)).keys :=
    fun key member => mem_keys_complete (Dict.mem_keys_merge.mpr (.inr member))
  refine declare_eq_ok_iff.mpr ⟨type, complete target (config.merge defaults), declaration,
    text?_type_complete typed, ?_, ?_, ?_⟩
  · exact Catalog.withDefaults_eq_ok_iff.mpr
      ⟨defaults, shipped, (Dict.merge_of_covered covered).symm⟩
  · exact (congrArg (render catalog target) (complete_complete ..)).trans rendered
  · exact congrArg (ofComplete target type · declaration) (complete_complete ..).symm

end Variable

namespace Placeholder

/-- A filled text depends on nothing but the literals of the fields. -/
theorem fill_congr_literals {text : String} {fields others : Fields}
    (same : ∀ f, Literal.ofField? f (others.get? f) = Literal.ofField? f (fields.get? f)) :
    fill text others = fill text fields := by
  have part : fillPart others = fillPart fields := by
    funext p
    unfold fillPart
    rw [same]
  rw [fill_eq, fill_eq, part]

end Placeholder

namespace Resource

theorem resolve_cons_of_apart {entry : String × Value} {rest : Fields} {vars : List Variable}
    (apart : ∀ v ∈ vars, v.target ≠ entry.1) :
    resolve (entry :: rest) vars = entry :: resolve rest vars := by
  induction vars generalizing rest with
  | nil => rfl
  | cons v others ih =>
      obtain ⟨first, later⟩ := List.forall_mem_cons.mp apart
      rw [resolve_cons, Dict.insert, if_neg (Ne.symm first), ih later, resolve_cons]

/-- What is written back is extracted again. -/
theorem extract_resolve {catalog : Catalog} {fields : Fields} {vars : List Variable}
    (distinct : fields.Distinct) (extracted : Variable.extract catalog fields = .ok vars) :
    Variable.extract catalog (resolve fields vars) = .ok vars := by
  fun_induction Variable.extract catalog fields generalizing vars with
  | case1 =>
      cases Except.ok.inj extracted
      rfl
  | case2 field config rest ih =>
      obtain ⟨single, later⟩ := List.nodup_cons.mp distinct
      obtain ⟨v, declared, extracted⟩ := Except.bind_eq_ok_iff.mp extracted
      obtain ⟨others, more, rfl⟩ := Except.bind_pure_eq_ok_iff.mp extracted
      have apart : ∀ w ∈ others, w.target ≠ field := by
        rintro w member rfl
        obtain ⟨inner, place, -⟩ := Variable.extract_sound more w member
        exact single (Dict.mem_keys_of_mem place)
      have again := Variable.declare_config declared
      obtain ⟨merged, declares⟩ := Variable.declare_ok declared
      rw [declares.target_eq] at again
      have written : resolve ((field, .variable config) :: rest) (v :: others) =
          (field, .variable v.config) :: resolve rest others := by
        rw [resolve_cons, declares.target_eq, Dict.insert, if_pos rfl]
        exact resolve_cons_of_apart apart
      rw [written, Variable.extract, again, ih later more]
      rfl
  | case3 entry rest plain ih =>
      obtain ⟨single, later⟩ := List.nodup_cons.mp distinct
      have apart : ∀ v ∈ vars, v.target ≠ entry.1 := by
        intro v member same
        obtain ⟨inner, place, -⟩ := Variable.extract_sound extracted v member
        exact single (same ▸ Dict.mem_keys_of_mem place)
      rw [resolve_cons_of_apart apart, Variable.extract, ih later extracted]
      exact plain

theorem resolve_of_get? {fields : Fields} {vars : List Variable}
    (written : ∀ v ∈ vars, fields.get? v.target = some v.toValue) : resolve fields vars = fields := by
  induction vars with
  | nil => rfl
  | cons v rest ih =>
      obtain ⟨first, others⟩ := List.forall_mem_cons.mp written
      rw [resolve_cons, Dict.insert_of_get? first, ih others]

theorem set_resolve {fields : Fields} {vars : List Variable} {key : String}
    (given : ¬ Unset fields key) : ¬ Unset (resolve fields vars) key := by
  induction vars generalizing fields with
  | nil => exact given
  | cons v rest ih =>
      rw [resolve_cons]
      refine ih ?_
      unfold Unset
      by_cases same : v.target = key
      · rw [same, Dict.get?_insert_self]
        rintro (none | null)
        · cases none
        · cases null
      · rwa [Dict.get?_insert_of_ne _ _ same]

/-- Where declarations get no name by default, no literal changes by writing variables back. -/
theorem ofField?_resolve {catalog : Catalog} {fields : Fields} {vars : List Variable}
    (nameless : catalog.NamesNoVariable) (distinct : fields.Distinct)
    (extracted : Variable.extract catalog fields = .ok vars) (f : String) :
    Literal.ofField? f ((resolve fields vars).get? f) = Literal.ofField? f (fields.get? f) := by
  by_cases touched : ∃ v ∈ vars, v.target = f
  · obtain ⟨v, member, rfl⟩ := touched
    obtain ⟨inner, place, declared⟩ := Variable.extract_sound extracted v member
    obtain ⟨merged, declares⟩ := Variable.declare_ok declared
    have apart := Variable.nodup_targets distinct extracted
    rw [get?_resolve_of_mem apart member, distinct.get?_of_mem place, Variable.toValue,
      Literal.ofField?_variable, Literal.ofField?_variable, ← declares.name_eq nameless,
      declares.config_eq, ← declares.reference]
  · rw [get?_resolve_of_untouched]
    exact fun v member same => touched ⟨v, member, same⟩

theorem Assembles.assemble {catalog : Catalog} {type : String} {named : Fields} {r : Resource}
    (assembles : Assembles catalog type named r) : assemble catalog type named = .ok r := by
  obtain ⟨rfl, module, jinja, vars, code, config⟩ := assembles
  refine Except.bind_eq_ok_iff.mpr ⟨_, module, Except.bind_eq_ok_iff.mpr ⟨_, jinja, ?_⟩⟩
  refine Except.bind_eq_ok_iff.mpr ⟨_, Except.mapError_eq_ok_iff.mpr vars, ?_⟩
  refine Except.bind_eq_ok_iff.mpr ⟨_, code, ?_⟩
  rw [← located, ← config]
  rfl

theorem render_congr {catalog : Catalog} {type : String} {config others : Fields}
    (same : ∀ f, Literal.ofField? f (others.get? f) = Literal.ofField? f (config.get? f)) :
    render catalog type false others = render catalog type false config := by
  have filled (text : String) : Placeholder.fill text others = Placeholder.fill text config :=
    Placeholder.fill_congr_literals same
  unfold render
  simp only [filled]
  rfl

theorem moduleOf_of_plain {type moduleName : String} {config : Fields}
    (found : config.get? moduleKey = some (.string moduleName))
    (plain : isPlainName moduleName = true) : moduleOf type config = .ok moduleName := by
  unfold moduleOf requireDirectoryName
  rw [found]
  dsimp only
  rw [if_pos plain]
  rfl

/-- A flag for conditional parts is no variable. -/
theorem jinjaOf_resolve {type : String} {catalog : Catalog} {fields : Fields}
    {vars : List Variable} {usesJinja : Bool} (distinct : fields.Distinct)
    (jinja : jinjaOf type fields = .ok usesJinja)
    (extracted : Variable.extract catalog fields = .ok vars) :
    jinjaOf type (resolve fields vars) = .ok usesJinja := by
  have untouched : ∀ v ∈ vars, v.target ≠ jinjaKey := by
    intro v member same
    obtain ⟨inner, place, -⟩ := Variable.extract_sound extracted v member
    have found := distinct.get?_of_mem place
    unfold jinjaOf at jinja
    rw [← same, found] at jinja
    cases jinja
  unfold jinjaOf at jinja ⊢
  rwa [get?_resolve_of_untouched _ _ _ untouched]

theorem Assembles.again {catalog : Catalog} {type : String} {named : Fields} {r : Resource}
    (assembles : Assembles catalog type named r) (nameless : catalog.NamesNoVariable)
    (distinct : named.Distinct) (plain : isPlainName r.moduleName = true)
    (unconditional : r.usesJinja = false) : Assembles catalog type r.config r := by
  have keyed : (located named r.moduleName).Distinct := Distinct.located distinct _
  have found : r.config.get? moduleKey = some (.string r.moduleName) :=
    assembles.get?_of_string distinct (Dict.get?_insert_self ..)
  have same : located r.config r.moduleName = r.config := Dict.insert_of_get? found
  refine ⟨assembles.type_eq, moduleOf_of_plain found plain, ?_, ?_, ?_, ?_⟩ <;>
    rw [same]
  · rw [assembles.config]
    exact jinjaOf_resolve keyed assembles.jinja assembles.vars
  · rw [assembles.config]
    exact extract_resolve keyed assembles.vars
  · have code := assembles.code
    rw [unconditional] at code ⊢
    rw [assembles.config, render_congr (ofField?_resolve nameless keyed assembles.vars), code]
  · refine (resolve_of_get? fun v member => ?_).symm
    rw [assembles.config]
    exact get?_resolve_of_mem (Variable.nodup_targets keyed assembles.vars) member

theorem build_of_complete {catalog : Catalog} {type : String} {config : Fields} {pool : NamePool}
    {r : Resource} (complete : catalog.withDefaults type config = .ok config)
    (named : ¬ Nameless config) (assembles : Assembles catalog type config r) :
    build catalog type config pool = (.ok r, pool) := by
  have given : ¬ config.isEmpty = true := by
    intro empty
    rw [List.isEmpty_iff.mp empty] at named
    exact named (.inl rfl)
  unfold build
  rw [if_neg given, ofTemplates_eq_ok_iff.mpr complete]
  dsimp only
  rw [nameIn_of_named named, assembles.assemble]

theorem set_located {type moduleName : String} {merged : Fields} {pool : NamePool} :
    ¬ Unset (located (nameIn type merged pool).1 moduleName) nameKey := by
  unfold Unset
  rw [get?_located_name]
  by_cases missing : Nameless merged
  · rw [nameIn_of_nameless missing, Dict.get?_insert_self]
    exact fun unset => unset.elim nofun nofun
  · rw [nameIn_of_named missing]
    exact missing

theorem build_config {catalog : Catalog} {type : String} {config : Fields} {pool after : NamePool}
    {r : Resource} (nameless : catalog.NamesNoVariable) (distinct : config.Distinct)
    (success : build catalog type config pool = (.ok r, after)) (unconditional : r.usesJinja = false)
    (other : NamePool) : build catalog r.type r.config other = (.ok r, other) := by
  have plain := plain_moduleName success
  obtain ⟨merged, found, -, assembles⟩ := build_ok success
  obtain ⟨defaults, shipped, rfl⟩ := Catalog.withDefaults_eq_ok_iff.mp found
  have also : defaults.Distinct := (Value.law_wellKeyed.defaults shipped).distinct
  have keyed : (nameIn type (config.merge defaults) pool).1.Distinct :=
    distinct_nameIn (distinct.merge defaults)
  have covered : ∀ key ∈ defaults.keys, key ∈ r.config.keys := by
    intro key member
    rw [(assembles.completed distinct also).keys, ← Dict.keys_merge config also]
    exact List.mem_append_left _ (Dict.mem_keys_merge.mpr (.inr member))
  have named : ¬ Unset r.config nameKey := by
    rw [assembles.config]
    exact set_resolve set_located
  rw [assembles.type_eq]
  refine build_of_complete ?_ named (assembles.again nameless keyed plain unconditional)
  exact Catalog.withDefaults_eq_ok_iff.mpr ⟨defaults, shipped, (Dict.merge_of_covered covered).symm⟩

/-- What is recorded of a variable declares it once more, and where declarations get no name by default, what
is recorded of a resource without conditional parts builds it once more, down to its code, and takes no name
from any pool. -/
theorem rebuilt_of_recorded (catalog : Catalog) :
    (∀ target config v, Variable.declare catalog target config = .ok v →
      Variable.declare catalog v.target v.config = .ok v) ∧
    (catalog.NamesNoVariable → ∀ type (config : Fields) pool r after, config.Distinct →
      build catalog type config pool = (.ok r, after) → r.usesJinja = false →
        ∀ other, build catalog r.type r.config other = (.ok r, other)) := by
  refine ⟨fun target config v => Variable.declare_config, ?_⟩
  intro nameless type config pool r after distinct success unconditional other
  exact build_config nameless distinct success unconditional other

/-- A house that was named by its pool keeps its name in another one. -/
theorem rebuilt_of_recorded_house :
    ∃ r after, build Houses.catalog "house" Houses.config Zones.pool = (.ok r, after) ∧
      r.usesJinja = false ∧ r.instanceName = "house_1" ∧
      (∀ v ∈ r.vars, Variable.declare Houses.catalog v.target v.config = .ok v) ∧
      build Houses.catalog r.type r.config Zones.pool = (.ok r, Zones.pool) := by
  have outcome : (build Houses.catalog "house" Houses.config Zones.pool).1.map
      (fun r => (r.usesJinja, r.instanceName)) = .ok (false, "house_1") := by
    decide +kernel
  obtain ⟨r, built, same⟩ := Except.map_eq_ok_iff.mp outcome
  have success : build Houses.catalog "house" Houses.config Zones.pool =
      (.ok r, (build Houses.catalog "house" Houses.config Zones.pool).2) :=
    Prod.fst_eq_iff.mp built
  obtain ⟨again, rebuilt⟩ := rebuilt_of_recorded Houses.catalog
  have declared : ∀ v ∈ r.vars, ∃ inner, Variable.declare Houses.catalog v.target inner = .ok v := by
    obtain ⟨_, -, -, assembles⟩ := build_ok success
    intro v member
    obtain ⟨inner, -, known⟩ := Variable.extract_sound assembles.vars v member
    exact ⟨inner, known⟩
  refine ⟨r, _, success, congrArg Prod.fst same, congrArg Prod.snd same, fun v member => ?_, ?_⟩
  · obtain ⟨inner, known⟩ := declared v member
    exact again _ _ _ known
  · exact rebuilt Houses.namesNoVariable _ _ _ _ _ Houses.distinct_config success
      (congrArg Prod.fst same) _

end Resource

end Groundwork
