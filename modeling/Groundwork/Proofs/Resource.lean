import Groundwork.Proofs.NamePool
import Groundwork.Proofs.Variable
import Groundwork.Resource

set_option autoImplicit false

/- Building resources. A resource is made of its merged and named fields in one way, its instance
name is either generated or given, and a list of resources built with one pool may be cut anywhere:
the second part goes on with the pool that the first part leaves. -/
namespace Groundwork

theorem requireDirectoryName_eq_ok {entity : Entity} {name : String} {checked : Unit}
    (success : requireDirectoryName entity name = .ok checked) : isPlainName name = true := by
  unfold requireDirectoryName at success
  split at success
  · rename_i plain
    exact plain
  · cases success

namespace Resource

/-- The fields that a resource's code is rendered over: named, and placed in a module. -/
def located (named : Fields) (moduleName : String) : Fields :=
  named.insert moduleKey (.string moduleName)

/-- What a resource with these named fields consists of. -/
structure Assembles (catalog : Catalog) (type : String) (named : Fields) (r : Resource) : Prop where
  type_eq : r.type = type
  module : moduleOf type named = .ok r.moduleName
  jinja : jinjaOf type (located named r.moduleName) = .ok r.usesJinja
  vars : Variable.extract catalog (located named r.moduleName) = .ok r.vars
  code : render catalog type r.usesJinja (located named r.moduleName) = .ok r.code
  config : r.config = resolve (located named r.moduleName) r.vars

theorem assemble_ok {catalog : Catalog} {type : String} {named : Fields} {r : Resource}
    (success : assemble catalog type named = .ok r) : Assembles catalog type named r := by
  unfold assemble at success
  obtain ⟨moduleName, module, success⟩ := Except.bind_eq_ok_iff.mp success
  obtain ⟨usesJinja, jinja, success⟩ := Except.bind_eq_ok_iff.mp success
  obtain ⟨vars, extracted, success⟩ := Except.bind_eq_ok_iff.mp success
  obtain ⟨code, rendered, success⟩ := Except.bind_eq_ok_iff.mp success
  cases Except.ok.inj success
  exact ⟨rfl, module, jinja, Except.mapError_eq_ok_iff.mp extracted, rendered, rfl⟩

theorem build_ok {catalog : Catalog} {type : String} {config : Fields} {pool after : NamePool}
    {r : Resource} (success : build catalog type config pool = (.ok r, after)) :
    ∃ merged, catalog.withDefaults type config = .ok merged ∧
      after = (nameIn type merged pool).2 ∧
      Assembles catalog type (nameIn type merged pool).1 r := by
  unfold build at success
  split at success
  · cases congrArg Prod.fst success
  · split at success
    · cases congrArg Prod.fst success
    · rename_i merged found
      exact ⟨merged, ofTemplates_eq_ok_iff.mp found, (congrArg Prod.snd success).symm,
        assemble_ok (congrArg Prod.fst success)⟩

theorem render_ok {catalog : Catalog} {type : String} {usesJinja : Bool} {config : Fields}
    {code : String} (success : render catalog type usesJinja config = .ok code) :
    ∃ text, source catalog type usesJinja config = .ok text ∧
      Placeholder.fill text config = .ok code := by
  obtain ⟨text, found, filled⟩ := Except.bind_eq_ok_iff.mp success
  exact ⟨text, found, ofTemplates_eq_ok_iff.mp (Except.mapError_eq_ok_iff.mp filled)⟩

/-- The name of a resource's module may become a directory. -/
theorem plain_moduleName {catalog : Catalog} {type : String} {config : Fields}
    {pool after : NamePool} {r : Resource}
    (success : build catalog type config pool = (.ok r, after)) :
    isPlainName r.moduleName = true := by
  obtain ⟨merged, -, -, assembles⟩ := build_ok success
  have module := assembles.module
  unfold moduleOf at module
  split at module
  · rw [← Except.ok.inj module]
    decide
  · rw [← Except.ok.inj module]
    decide
  · obtain ⟨_, plain, same⟩ := Except.bind_pure_eq_ok_iff.mp module
    rw [← same]
    exact requireDirectoryName_eq_ok plain
  · cases module

theorem resolve_nil (config : Fields) : resolve config [] = config := rfl

theorem resolve_cons (config : Fields) (v : Variable) (rest : List Variable) :
    resolve config (v :: rest) = resolve (config.insert v.target v.toValue) rest := rfl

theorem get?_resolve_of_untouched (config : Fields) (vars : List Variable) (key : String)
    (untouched : ∀ v ∈ vars, v.target ≠ key) :
    (resolve config vars).get? key = config.get? key := by
  induction vars generalizing config with
  | nil => rw [resolve_nil]
  | cons v rest ih =>
      rw [resolve_cons, ih _ fun w member => untouched w (List.mem_cons_of_mem v member)]
      exact Dict.get?_insert_of_ne _ _ (untouched v List.mem_cons_self)

/-- Writing variables back makes no field a string. -/
theorem string_of_resolve (config : Fields) (vars : List Variable) (key text : String)
    (found : (resolve config vars).get? key = some (.string text)) :
    config.get? key = some (.string text) := by
  induction vars generalizing config with
  | nil => rwa [resolve_nil] at found
  | cons v rest ih =>
      rw [resolve_cons] at found
      have before := ih _ found
      by_cases same : v.target = key
      · rw [same, Dict.get?_insert_self] at before
        cases before
      · rwa [Dict.get?_insert_of_ne _ _ same] at before

theorem Distinct.located {named : Fields} (distinct : named.Distinct) (moduleName : String) :
    (located named moduleName).Distinct := Dict.Distinct.insert distinct _ _

/-- A field that is no variable keeps its value. -/
theorem Assembles.get?_of_string {catalog : Catalog} {type : String} {named : Fields} {r : Resource}
    (assembles : Assembles catalog type named r) (distinct : named.Distinct) {key text : String}
    (found : (located named r.moduleName).get? key = some (.string text)) :
    r.config.get? key = some (.string text) := by
  rw [assembles.config, get?_resolve_of_untouched, found]
  intro v member same
  obtain ⟨config, place, -⟩ := Variable.extract_sound assembles.vars v member
  rw [same] at place
  have marked := (Distinct.located distinct r.moduleName).get?_of_mem place
  rw [found] at marked
  cases marked

theorem givenName?_eq_some_iff {config : Fields} {name : String} :
    givenName? config = some name ↔ config.get? nameKey = some (.string name) := by
  unfold givenName?
  constructor
  · intro given
    obtain ⟨value, found, string⟩ := Option.bind_eq_some_iff.mp given
    cases value <;> cases string
    exact found
  · intro found
    rw [found]
    rfl

/-- No default of this type chooses an instance name. -/
def NamesNoInstance (catalog : Catalog) (type : String) : Prop :=
  ∀ defaults, catalog.defaults type = .ok defaults → givenName? defaults = none

/-- Either the pool gives the name, or it stays as it is and the name is the declared one, if any. -/
inductive Named (config : Fields) (type : String) (pool after : NamePool) (name : String) : Prop
  | generated (name_eq : name = (pool.fresh type).1) (after_eq : after = (pool.fresh type).2)
  | given (config_eq : givenName? config = some name) (after_eq : after = pool)
  | unnamed (name_eq : name = "") (after_eq : after = pool)

theorem get?_located_name (named : Fields) (moduleName : String) :
    (located named moduleName).get? nameKey = named.get? nameKey :=
  Dict.get?_insert_of_ne _ _ (by decide)

theorem instanceName_of_string {r : Resource} {name : String}
    (found : r.config.get? nameKey = some (.string name)) : r.instanceName = name := by
  rw [instanceName, givenName?_eq_some_iff.mpr found, Option.getD_some]

/-- Neither these fields nor what completes them name a resource. -/
def Nameless (merged : Fields) : Prop :=
  merged.get? nameKey = none ∨ merged.get? nameKey = some .null

theorem nameIn_of_nameless {type : String} {merged : Fields} {pool : NamePool}
    (missing : Nameless merged) :
    nameIn type merged pool =
      (merged.insert nameKey (.string (pool.fresh type).1), (pool.fresh type).2) := by
  unfold nameIn
  rcases missing with none | null
  · rw [none]
  · rw [null]

theorem nameIn_of_named {type : String} {merged : Fields} {pool : NamePool}
    (named : ¬ Nameless merged) : nameIn type merged pool = (merged, pool) := by
  unfold nameIn
  split
  · rename_i missing
    exact absurd (.inl missing) named
  · rename_i missing
    exact absurd (.inr missing) named
  · rfl

/-- A nameless resource is called what the pool gives. -/
theorem build_nameless {catalog : Catalog} {type : String} {config merged : Fields}
    {pool after : NamePool} {r : Resource}
    (success : build catalog type config pool = (.ok r, after)) (distinct : config.Distinct)
    (completed : catalog.withDefaults type config = .ok merged) (missing : Nameless merged) :
    r.instanceName = (pool.fresh type).1 ∧ after = (pool.fresh type).2 := by
  obtain ⟨_, again, afterEq, assembles⟩ := build_ok success
  cases Except.ok.inj (completed.symm.trans again)
  obtain ⟨defaults, -, mergedEq⟩ := Catalog.withDefaults_eq_ok_iff.mp completed
  have distinctMerged : merged.Distinct := mergedEq ▸ Dict.Distinct.merge distinct defaults
  rw [nameIn_of_nameless missing] at afterEq assembles
  refine ⟨instanceName_of_string ?_, afterEq⟩
  apply assembles.get?_of_string (Dict.Distinct.insert distinctMerged _ _)
  rw [get?_located_name, Dict.get?_insert_self]

/-- Any other resource leaves the pool alone; it has the name that its declaration gives, or none. -/
theorem build_declared {catalog : Catalog} {type : String} {config merged : Fields}
    {pool after : NamePool} {r : Resource}
    (success : build catalog type config pool = (.ok r, after))
    (nameless : NamesNoInstance catalog type)
    (completed : catalog.withDefaults type config = .ok merged) (named : ¬ Nameless merged) :
    after = pool ∧ (givenName? config = some r.instanceName ∨ r.instanceName = "") := by
  obtain ⟨_, again, afterEq, assembles⟩ := build_ok success
  cases Except.ok.inj (completed.symm.trans again)
  obtain ⟨defaults, found, mergedEq⟩ := Catalog.withDefaults_eq_ok_iff.mp completed
  rw [nameIn_of_named named] at afterEq assembles
  refine ⟨afterEq, ?_⟩
  cases given : givenName? r.config with
  | none => exact .inr (by rw [instanceName, given, Option.getD_none])
  | some name =>
      left
      have last := givenName?_eq_some_iff.mp given
      rw [instanceName_of_string last, givenName?_eq_some_iff]
      rw [assembles.config] at last
      have first := string_of_resolve _ _ _ _ last
      rw [get?_located_name, mergedEq, Dict.get?_merge] at first
      rcases Option.or_eq_some_iff.mp first with declared | ⟨-, default⟩
      · exact declared
      · have absent := nameless defaults found
        rw [givenName?_eq_some_iff.mpr default] at absent
        cases absent

theorem build_named {catalog : Catalog} {type : String} {config : Fields} {pool after : NamePool}
    {r : Resource} (success : build catalog type config pool = (.ok r, after))
    (distinct : config.Distinct) (nameless : NamesNoInstance catalog type) :
    Named config type pool after r.instanceName := by
  obtain ⟨merged, completed, -, -⟩ := build_ok success
  by_cases missing : Nameless merged
  · obtain ⟨name, afterEq⟩ := build_nameless success distinct completed missing
    exact .generated name afterEq
  · obtain ⟨afterEq, declared | unnamed⟩ := build_declared success nameless completed missing
    · exact .given declared afterEq
    · exact .unnamed unnamed afterEq

open NamePool (Agree)

theorem nameIn_agree {p q : NamePool} (agree : Agree p q) (type : String) (config : Fields) :
    (nameIn type config p).1 = (nameIn type config q).1 ∧
      Agree (nameIn type config p).2 (nameIn type config q).2 := by
  by_cases missing : Nameless config
  · rw [nameIn_of_nameless missing, nameIn_of_nameless missing, agree.fresh_name]
    exact ⟨rfl, agree.fresh_pool type⟩
  · rw [nameIn_of_named missing, nameIn_of_named missing]
    exact ⟨rfl, agree⟩

theorem build_agree {p q : NamePool} (agree : Agree p q) (catalog : Catalog) (type : String)
    (config : Fields) :
    (build catalog type config p).1 = (build catalog type config q).1 ∧
      Agree (build catalog type config p).2 (build catalog type config q).2 := by
  unfold build
  split
  · exact ⟨rfl, agree⟩
  · split
    · exact ⟨rfl, agree⟩
    · rename_i merged found
      obtain ⟨named, pools⟩ := nameIn_agree agree type merged
      exact ⟨congrArg (assemble catalog type) named, pools⟩

theorem buildAll_cons (catalog : Catalog) (type : String) (config : Fields)
    (rest : List (String × Fields)) (pool : NamePool) :
    buildAll catalog ((type, config) :: rest) pool =
      match (build catalog type config pool).1 with
      | .error e => (.error e, (build catalog type config pool).2)
      | .ok r =>
          ((buildAll catalog rest (build catalog type config pool).2).1.map (r :: ·),
            (buildAll catalog rest (build catalog type config pool).2).2) := by
  rw [buildAll]
  rcases build catalog type config pool with ⟨_ | r, after⟩ <;> rfl

/-- What is built depends on nothing but the generated names that the pool takes. -/
theorem buildAll_agree {p q : NamePool} (agree : Agree p q) (catalog : Catalog)
    (entries : List (String × Fields)) :
    (buildAll catalog entries p).1 = (buildAll catalog entries q).1 ∧
      Agree (buildAll catalog entries p).2 (buildAll catalog entries q).2 := by
  induction entries generalizing p q with
  | nil => exact ⟨rfl, agree⟩
  | cons entry rest ih =>
      obtain ⟨built, pools⟩ := build_agree agree catalog entry.1 entry.2
      obtain ⟨others, last⟩ := ih pools
      rw [buildAll_cons, buildAll_cons, ← built]
      cases (build catalog entry.1 entry.2 p).1 with
      | error e => exact ⟨rfl, pools⟩
      | ok r => exact ⟨congrArg (·.map (r :: ·)) others, last⟩

theorem buildAll_append (catalog : Catalog) (first second : List (String × Fields))
    (pool : NamePool) :
    buildAll catalog (first ++ second) pool =
      match (buildAll catalog first pool).1 with
      | .error e => (.error e, (buildAll catalog first pool).2)
      | .ok rs =>
          ((buildAll catalog second (buildAll catalog first pool).2).1.map (rs ++ ·),
            (buildAll catalog second (buildAll catalog first pool).2).2) := by
  induction first generalizing pool with
  | nil =>
      rw [List.nil_append, buildAll]
      rcases buildAll catalog second pool with ⟨_ | rs, after⟩ <;> rfl
  | cons entry rest ih =>
      rw [List.cons_append, buildAll_cons, buildAll_cons, ih]
      cases (build catalog entry.1 entry.2 pool).1 with
      | error e => rfl
      | ok r =>
          dsimp only
          cases (buildAll catalog rest (build catalog entry.1 entry.2 pool).2).1 with
          | error e => rfl
          | ok rs =>
              cases (buildAll catalog second (buildAll catalog rest
                (build catalog entry.1 entry.2 pool).2).2).1 <;> rfl

theorem buildAll_cons_ok {catalog : Catalog} {type : String} {config : Fields}
    {rest : List (String × Fields)} {pool last : NamePool} {rs : List Resource}
    (success : buildAll catalog ((type, config) :: rest) pool = (.ok rs, last)) :
    ∃ r others after, rs = r :: others ∧ build catalog type config pool = (.ok r, after) ∧
      buildAll catalog rest after = (.ok others, last) := by
  rw [buildAll_cons] at success
  rcases built : build catalog type config pool with ⟨_ | r, after⟩
  · rw [built] at success
    cases congrArg Prod.fst success
  · rw [built] at success
    dsimp only at success
    rcases more : buildAll catalog rest after with ⟨_ | others, end_⟩
    · rw [more] at success
      cases congrArg Prod.fst success
    · rw [more] at success
      cases success
      exact ⟨r, others, after, rfl, rfl, more⟩

/-- Whatever holds of every resource that can be built holds of a whole list of them. -/
theorem buildAll_forall {P : Resource → Prop} {catalog : Catalog}
    (each : ∀ type config pool r after, build catalog type config pool = (.ok r, after) → P r)
    {entries : List (String × Fields)} {pool last : NamePool} {rs : List Resource}
    (success : buildAll catalog entries pool = (.ok rs, last)) : ∀ r ∈ rs, P r := by
  induction entries generalizing pool rs with
  | nil =>
      cases success
      exact fun _ member => nomatch member
  | cons entry rest ih =>
      obtain ⟨first, others, after, rfl, built, more⟩ := buildAll_cons_ok success
      intro r member
      rcases List.mem_cons.mp member with rfl | later
      · exact each _ _ _ _ _ built
      · exact ih more r later

/-- A pool in which every declared name is reserved ends up taking, of the generated shape, what it took
before and the names of the built resources. -/
theorem buildAll_taken {catalog : Catalog} {entries : List (String × Fields)}
    {pool last : NamePool} {rs : List Resource}
    (success : buildAll catalog entries pool = (.ok rs, last))
    (distinct : ∀ e ∈ entries, e.2.Distinct)
    (nameless : ∀ e ∈ entries, NamesNoInstance catalog e.1)
    (reserved : ∀ e ∈ entries, ∀ name, givenName? e.2 = some name → name ∈ pool.taken)
    (type : String) (k : Nat) :
    NamePool.nameOf type k ∈ last.taken ↔
      NamePool.nameOf type k ∈ rs.map (·.instanceName) ∨ NamePool.nameOf type k ∈ pool.taken := by
  induction entries generalizing pool rs with
  | nil =>
      cases success
      simp only [List.map_nil, List.not_mem_nil, false_or]
  | cons entry rest ih =>
      obtain ⟨r, others, after, rfl, built, more⟩ := buildAll_cons_ok success
      have named := build_named built (distinct entry List.mem_cons_self)
        (nameless entry List.mem_cons_self)
      have grown : ∀ name, name ∈ pool.taken → name ∈ after.taken := by
        intro name member
        cases named with
        | generated _ afterEq => rw [afterEq, NamePool.mem_taken_fresh]; exact .inr member
        | given _ afterEq => rwa [afterEq]
        | unnamed _ afterEq => rwa [afterEq]
      have step : NamePool.nameOf type k ∈ after.taken ↔
          NamePool.nameOf type k = r.instanceName ∨ NamePool.nameOf type k ∈ pool.taken := by
        cases named with
        | generated nameEq afterEq => rw [afterEq, nameEq, NamePool.mem_taken_fresh]
        | given declared afterEq =>
            rw [afterEq]
            refine ⟨.inr, ?_⟩
            rintro (same | member)
            · exact same ▸ reserved entry List.mem_cons_self _ declared
            · exact member
        | unnamed nameEq afterEq =>
            rw [afterEq, nameEq]
            refine ⟨.inr, ?_⟩
            rintro (same | member)
            · exact absurd same (NamePool.nameOf_ne_empty type k)
            · exact member
      rw [ih more (fun e member => distinct e (List.mem_cons_of_mem entry member))
        (fun e member => nameless e (List.mem_cons_of_mem entry member))
        (fun e member name declared =>
          grown name (reserved e (List.mem_cons_of_mem entry member) name declared)),
        step, List.map_cons, List.mem_cons, ← or_assoc]
      exact or_congr_left or_comm

end Resource

end Groundwork
