import Groundwork.Proofs.Flattening
import Groundwork.Proofs.History
import Mathlib.Data.List.Nodup

set_option autoImplicit false

/- Modules as a partition of the resources. Placing a resource adds it to the one module of its
name, so after any history the modules are the declared ones and then those that resources asked for
first; each holds, in order, exactly the resources of its name, with their code and each of their
variables once. -/
namespace Groundwork

namespace Module

/-- Elements that are added unless their key is known: the first of each key stays. -/
theorem foldl_addNew {α β : Type} [DecidableEq β] (key : α → β) (known xs : List α) :
    xs.foldl (fun known x => if key x ∈ known.map key then known else known ++ [x]) known =
      known ++ (xs.filter (key · ∉ known.map key)).eraseDupsBy (key · == key ·) := by
  induction xs generalizing known with
  | nil => simp
  | cons x rest ih =>
      rw [List.foldl_cons, ih]
      by_cases old : key x ∈ known.map key
      · rw [if_pos old, List.filter_cons_of_neg (by simpa using old)]
      · have other : ∀ y, decide (key y ∉ (known ++ [x]).map key) =
            (decide (key y ∉ known.map key) && decide ((key y == key x) = false)) := by
          intro y
          simp
        rw [if_neg old, List.filter_cons_of_pos (by simpa using old), List.eraseDupsBy_cons,
          List.filter_filter, List.append_assoc, List.singleton_append]
        simp only [other, Bool.and_comm]

/-- Of variables with one name the first stays. -/
theorem addVariables_eq (known vs : List Variable) :
    addVariables known vs = known ++ (vs.filter (·.name ∉ known.map (·.name))).eraseDupsBy
      (·.name == ·.name) := by
  have step : addVariable = fun known v =>
      if v.name ∈ known.map (·.name) then known else known ++ [v] := funext₂ addVariable_eq
  rw [addVariables, step]
  exact foldl_addNew (·.name) known vs

/-- Code and variables are those of the module's resources. -/
structure Gathers (m : Module) : Prop where
  mainCode : m.mainCode = String.join (m.resources.map fun r => r.code ++ "\n\n")
  vars : m.vars = (m.resources.flatMap (·.vars)).eraseDupsBy (·.name == ·.name)

theorem gathers_empty (name : String) (config : Fields) : (empty name config).Gathers := ⟨rfl, rfl⟩

theorem Gathers.add {m : Module} (gathers : m.Gathers) (r : Resource) : (m.add r).Gathers := by
  have all : ∀ vs, vs.eraseDupsBy (fun v w : Variable => v.name == w.name) = addVariables [] vs := by
    intro vs
    rw [addVariables_eq, List.nil_append, List.filter_eq_self.mpr]
    simp
  constructor
  · show m.mainCode ++ r.code ++ "\n\n" = _
    simp [Module.add, gathers.mainCode, String.join_append, String.append_assoc]
  · show addVariables m.vars r.vars = ((m.resources ++ [r]).flatMap (·.vars)).eraseDupsBy _
    rw [List.flatMap_append, all, gathers.vars, all]
    simp [addVariables]

end Module

namespace Build

open Resource (Creation)

/-- A module stays as it is unless it has the resource's name; the module of this name gets it. -/
theorem mem_place_of_distinct {ms : List Module} (distinct : (ms.map (·.name)).Nodup)
    {r : Resource} {m : Module} (member : m ∈ place ms r) :
    (m ∈ ms ∧ m.name ≠ r.moduleName) ∨ ∃ base, base.name = r.moduleName ∧ m = base.add r ∧
      (base ∈ ms ∨ base = Module.empty r.moduleName [] ∧ r.moduleName ∉ ms.map (·.name)) := by
  -- A second module of the name would stay as it is behind the first one, and miss the resource.
  induction ms with
  | nil =>
      exact .inr ⟨_, rfl, List.mem_singleton.mp member, .inr ⟨rfl, List.not_mem_nil⟩⟩
  | cons first rest ih =>
      obtain ⟨fresh, others⟩ := List.nodup_cons.mp distinct
      simp only [place] at member
      split at member
      · rename_i same
        rcases List.mem_cons.mp member with rfl | later
        · exact .inr ⟨first, same, rfl, .inl List.mem_cons_self⟩
        · refine .inl ⟨List.mem_cons_of_mem first later, fun named => fresh ?_⟩
          show first.name ∈ rest.map (·.name)
          rw [same, ← named]
          exact List.mem_map_of_mem later
      · rename_i other
        rcases List.mem_cons.mp member with rfl | later
        · exact .inl ⟨List.mem_cons_self, other⟩
        · rcases ih others later with ⟨known, apart⟩ | ⟨base, named, rfl, known | ⟨new, absent⟩⟩
          · exact .inl ⟨List.mem_cons_of_mem first known, apart⟩
          · exact .inr ⟨base, named, rfl, .inl (List.mem_cons_of_mem first known)⟩
          · refine .inr ⟨base, named, rfl, .inr ⟨new, ?_⟩⟩
            rw [List.map_cons, List.mem_cons, not_or]
            exact ⟨fun same => other same.symm, absent⟩

theorem perm_place (ms : List Module) (r : Resource) :
    ((place ms r).flatMap (·.resources)).Perm (ms.flatMap (·.resources) ++ [r]) := by
  induction ms with
  | nil => exact .refl [r]
  | cons first rest ih =>
      simp only [place]
      split
      · show ((first.resources ++ [r]) ++ rest.flatMap (·.resources)).Perm _
        rw [List.flatMap_cons, List.append_assoc, List.append_assoc]
        exact List.perm_append_comm.append_left first.resources
      · rw [List.flatMap_cons, List.flatMap_cons, List.append_assoc]
        exact ih.append_left first.resources

/-- These resources are sorted into the modules, each module having those of its name. -/
structure Sorted (rs : List Resource) (ms : List Module) : Prop where
  distinct : (ms.map (·.name)).Nodup
  resources : ∀ m ∈ ms, m.resources = rs.filter (·.moduleName = m.name)
  gathers : ∀ m ∈ ms, m.Gathers
  named : ∀ r ∈ rs, r.moduleName ∈ ms.map (·.name)
  all : (ms.flatMap (·.resources)).Perm rs

theorem Sorted.place {rs : List Resource} {ms : List Module} (sorted : Sorted rs ms)
    (r : Resource) : Sorted (rs ++ [r]) (place ms r) := by
  have names := names_place ms r
  refine ⟨distinct_names_place sorted.distinct r, ?_, ?_, ?_,
    (perm_place ms r).trans (sorted.all.append_right [r])⟩
  · intro m member
    rw [List.filter_append]
    rcases mem_place_of_distinct sorted.distinct member with
      ⟨known, apart⟩ | ⟨base, named, rfl, known | ⟨rfl, absent⟩⟩
    · rw [List.filter_cons_of_neg (by simpa using apart.symm), List.filter_nil, List.append_nil]
      exact sorted.resources m known
    · have grown : (base.add r).name = base.name := rfl
      rw [grown, List.filter_cons_of_pos (by simpa using named.symm), List.filter_nil,
        ← sorted.resources base known]
      rfl
    · have none : rs.filter (·.moduleName = r.moduleName) = [] := by
        rw [List.filter_eq_nil_iff]
        intro other early same
        exact absent (of_decide_eq_true same ▸ sorted.named other early)
      show [r] = rs.filter (·.moduleName = r.moduleName) ++ _
      rw [none]
      simp [Module.add, Module.empty]
  · intro m member
    rcases mem_place_of_distinct sorted.distinct member with
      ⟨known, -⟩ | ⟨base, -, rfl, known | ⟨rfl, -⟩⟩
    · exact sorted.gathers m known
    · exact (sorted.gathers base known).add r
    · exact (Module.gathers_empty _ _).add r
  · intro other member
    rw [names]
    rcases List.mem_append.mp member with early | last
    · have known := sorted.named other early
      split
      · exact known
      · exact List.mem_append_left _ known
    · rw [List.mem_singleton.mp last]
      split
      · rename_i known
        exact known
      · exact List.mem_append_right _ (List.mem_singleton_self _)

theorem Sorted.foldl {rs : List Resource} {ms : List Module} (sorted : Sorted rs ms)
    (more : List Resource) : Sorted (rs ++ more) (more.foldl Build.place ms) := by
  induction more generalizing rs ms with
  | nil =>
      rw [List.append_nil]
      exact sorted
  | cons r rest ih =>
      rw [List.append_cons]
      exact ih (sorted.place r)

/-- New modules come in the order in which resources first ask for them. -/
theorem names_foldl_place_eq (rs : List Resource) (ms : List Module) :
    (rs.foldl place ms).map (·.name) = ms.map (·.name) ++
      ((rs.map (·.moduleName)).filter (· ∉ ms.map (·.name))).eraseDups := by
  have names : (rs.foldl place ms).map (·.name) = (rs.map (·.moduleName)).foldl
      (fun known name => if id name ∈ known.map id then known else known ++ [name])
      (ms.map (·.name)) := by
    induction rs generalizing ms with
    | nil => rfl
    | cons r rest ih =>
        rw [List.foldl_cons, ih, names_place, List.map_cons, List.foldl_cons]
        simp
  rw [names, Module.foldl_addNew]
  simp [List.eraseDups]

/-- A declaration that is placed in a module builds a resource of this module, whatever the defaults of
its type say. -/
theorem moduleName_of_placed {c : Creation} {moduleName : String}
    (placed : c.config.get? Resource.moduleKey = some (.string moduleName)) :
    c.resource.moduleName = moduleName := by
  obtain ⟨pool, after, success⟩ := c.built
  obtain ⟨merged, completed, -, assembles⟩ := Resource.build_ok success
  obtain ⟨defaults, -, mergedEq⟩ := Catalog.withDefaults_eq_ok_iff.mp completed
  have kept : merged.get? Resource.moduleKey = some (.string moduleName) := by
    rw [mergedEq, Dict.get?_merge, placed, Option.some_or]
  have named : (Resource.nameIn c.type merged pool).1.get? Resource.moduleKey =
      some (.string moduleName) := by
    by_cases missing : Resource.Nameless merged
    · rw [Resource.nameIn_of_nameless missing, Dict.get?_insert_of_ne _ _ (by decide), kept]
    · rw [Resource.nameIn_of_named missing, kept]
  have owner := assembles.module
  rw [Resource.moduleOf, named] at owner
  obtain ⟨_, -, same⟩ := Except.bind_pure_eq_ok_iff.mp owner
  exact same.symm

/-- The types of the resources declared in modules, with the modules that they are declared in. -/
def declaredOwners (p : Platform) : List (String × String) :=
  p.modules.flatMap fun m => m.2.resources.map fun e => (e.type, m.1)

theorem owners_of_builtFrom {p : Platform} {rs : List Resource}
    (built : BuiltFrom (moduleEntries p) rs) :
    rs.map (fun r => (r.type, r.moduleName)) = declaredOwners p := by
  obtain ⟨cs, rfl, declared⟩ := built
  let owner : String × Fields → String × String := fun entry =>
    (entry.1, ((entry.2.get? Resource.moduleKey).bind Value.string?).getD "")
  have each : ∀ c ∈ cs, (c.resource.type, c.resource.moduleName) = owner c.entry := by
    intro c member
    have listed : c.entry ∈ moduleEntries p := declared ▸ List.mem_map_of_mem member
    obtain ⟨m, -, e, -, same⟩ := mem_moduleEntries.mp listed
    have placed : c.config.get? Resource.moduleKey = some (.string m.1) := by
      have config : (e.placedIn m.1).config = c.config := congrArg Prod.snd same
      rw [← config]
      exact Dict.get?_insert_self _ _ _
    have found : c.entry.2.get? Resource.moduleKey = some (.string m.1) := placed
    rw [c.type_eq, moduleName_of_placed placed]
    simp only [owner, found]
    rfl
  have entries : cs.map (fun c => owner c.entry) = (moduleEntries p).map owner := by
    rw [← declared, List.map_map]
    rfl
  rw [List.map_map]
  refine (List.map_congr_left each).trans (entries.trans ?_)
  simp [owner, moduleEntries, declaredOwners, List.map_flatMap, Function.comp_def, Value.string?]

/-- The modules of a state are the declared ones and those that its resources ask for, each resource is in
the one module it belongs to, and code and declarations are those of the resources. -/
structure Partitioned (p : Platform) (done : List Phase) (b : Build) : Prop where
  names : b.modules.map (·.name) = Dict.keys p.modules ++
    ((b.resources.map (·.moduleName)).filter (· ∉ Dict.keys p.modules)).eraseDups
  inModules : BuiltFrom (builtInModules p done) b.moduleResources
  atTop : BuiltFrom (builtAtTop p done) b.topLevelResources
  /-- Resources that are declared in a module belong to it. -/
  owners : b.moduleResources.map (fun r => (r.type, r.moduleName)) =
    if .modules ∈ done then declaredOwners p else []
  resources : ∀ m ∈ b.modules, m.resources = b.resources.filter (·.moduleName = m.name)
  unique : ∀ r ∈ b.resources, ∃! m, m ∈ b.modules ∧ r ∈ m.resources
  /-- None is lost and none is there twice. -/
  all : (b.modules.flatMap (·.resources)).Perm b.resources
  mainCode : ∀ m ∈ b.modules,
    m.mainCode = String.join (m.resources.map fun r => r.code ++ "\n\n")
  vars : ∀ m ∈ b.modules,
    m.vars = (m.resources.flatMap (·.vars)).eraseDupsBy (·.name == ·.name)
  variableCode : ∀ m ∈ b.modules,
    m.variableCode = String.join (m.vars.map fun v => v.declaration ++ "\n\n")

theorem sorted_assembled {p : Platform} (distinct : Dict.Distinct p.modules)
    (rs : List Resource) : Sorted rs (assembled p rs) := by
  have start : Sorted [] (p.modules.map fun m => Module.empty m.1 m.2.fields) := by
    refine ⟨names_declared p ▸ distinct, ?_, ?_, fun _ member => (nomatch member), ?_⟩
    · intro m member
      obtain ⟨entry, -, rfl⟩ := List.mem_map.mp member
      rfl
    · intro m member
      obtain ⟨entry, -, rfl⟩ := List.mem_map.mp member
      exact Module.gathers_empty _ _
    · rw [List.flatMap_map]
      simp [Module.empty]
  obtain ⟨distinctAll, resources, gathers, named, all⟩ := start.foldl rs
  rw [List.nil_append] at resources named all
  rw [← names_map_finish] at distinctAll named
  refine ⟨distinctAll, ?_, ?_, named, ?_⟩
  · intro m member
    obtain ⟨base, placed, rfl⟩ := List.mem_map.mp member
    exact resources base placed
  · intro m member
    obtain ⟨base, placed, rfl⟩ := List.mem_map.mp member
    exact ⟨(gathers base placed).mainCode, (gathers base placed).vars⟩
  · rw [assembled, List.flatMap_map]
    exact all

theorem names_assembled_eq (p : Platform) (rs : List Resource) :
    (assembled p rs).map (·.name) = Dict.keys p.modules ++
      ((rs.map (·.moduleName)).filter (· ∉ Dict.keys p.modules)).eraseDups := by
  rw [assembled, names_map_finish, names_foldl_place_eq, names_declared]

/-- Two modules of one name are the same. -/
theorem Sorted.unique {rs : List Resource} {ms : List Module} (sorted : Sorted rs ms)
    {r : Resource} (member : r ∈ rs) : ∃! m, m ∈ ms ∧ r ∈ m.resources := by
  obtain ⟨m, known, named⟩ := List.mem_map.mp (sorted.named r member)
  have inside : r ∈ m.resources := by
    rw [sorted.resources m known, List.mem_filter]
    exact ⟨member, decide_eq_true named.symm⟩
  refine ⟨m, ⟨known, inside⟩, ?_⟩
  rintro other ⟨also, holds⟩
  rw [sorted.resources other also, List.mem_filter] at holds
  have same : other.name = m.name := (of_decide_eq_true holds.2).symm.trans named.symm
  exact List.inj_on_of_nodup_map sorted.distinct also known same

/-- After any history in which resources have been built once, the modules are a partition of the
resources. -/
theorem partitioned_progress {raw : Fields} {destination : String} {context : Context}
    {generatedAt : String} {start : Build} (keyed : raw.WellKeyed)
    (started : ofConfig raw destination context generatedAt = .ok start) (calls : List Call)
    (built : .modules ∈ (start.progress calls).done ∨ .resources ∈ (start.progress calls).done) :
    Partitioned start.platform (start.progress calls).done (start.progress calls).state := by
  have results := results_progress started calls
  obtain ⟨platform, read, rfl⟩ := ofConfig_eq_ok_iff.mp started
  have distinct : Dict.Distinct platform.modules :=
    (Platform.namesTargets_ofConfig keyed read).modules
  have modules := results.modules
  rw [builtModules, if_pos built] at modules
  have sorted := sorted_assembled distinct
    ((ofPlatform platform destination context generatedAt).progress calls).state.resources
  refine ⟨?_, results.moduleResources, results.topLevelResources, ?_, ?_, ?_, ?_, ?_, ?_, ?_⟩
  · rw [modules]
    exact names_assembled_eq platform _
  · have inModules := results.moduleResources
    rw [builtInModules] at inModules
    split
    · rename_i ran
      rw [if_pos ran] at inModules
      exact owners_of_builtFrom inModules
    · rename_i idle
      rw [if_neg idle] at inModules
      rw [inModules.eq_nil, List.map_nil]
  · rw [modules]
    exact sorted.resources
  · rw [modules]
    exact fun r member => sorted.unique member
  · rw [modules]
    exact sorted.all
  · rw [modules]
    exact fun m member => (sorted.gathers m member).mainCode
  · rw [modules]
    exact fun m member => (sorted.gathers m member).vars
  · rw [modules]
    intro m member
    obtain ⟨base, -, rfl⟩ := List.mem_map.mp member
    rfl

/-- A nameless resource that is declared in no module makes one. -/
theorem partitioned_progress_storage :
    Partitioned Sample.platform ((Sample.start 0).progress Sample.calls).done
        ((Sample.start 0).progress Sample.calls).state ∧
      ((Sample.start 0).progress Sample.calls).state.modules.map (·.name) =
        ["storage", "main"] := by
  have built : .modules ∈ ((Sample.start 0).progress Sample.calls).done ∧
      ((Sample.start 0).progress Sample.calls).state.modules.map (·.name) =
        ["storage", "main"] := by
    decide +kernel
  exact ⟨partitioned_progress Sample.wellKeyed_raw (Sample.ofConfig_raw 0) Sample.calls
    (.inl built.1), built.2⟩

end Build

end Groundwork
