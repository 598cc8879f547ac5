import Groundwork.Proofs.Flattening
import Groundwork.Proofs.History

set_option autoImplicit false

/- Generated instance names over all histories. The two phases that build resources hand out names
on their own, each from a pool in which every declared name is reserved. The later one reserves the
names that modules have used as well, so when it has come last no generated name stands twice. -/
namespace Groundwork.Build

open Resource (Creation NamesApart NamesNoInstance)

/-- Of the phases that build resources, the one for those outside of modules succeeded last. -/
def ResourcesLast (done : List Phase) : Prop :=
  (done.filter fun phase => phase = .modules ∨ phase = .resources).getLast? = some .resources

instance (done : List Phase) : Decidable (ResourcesLast done) :=
  inferInstanceAs (Decidable (_ = _))

theorem resourcesLast_append (done : List Phase) (phase : Phase) :
    ResourcesLast (done ++ [phase]) ↔
      phase = .resources ∨ phase ≠ .modules ∧ ResourcesLast done := by
  cases phase <;> simp [ResourcesLast, List.filter_append]

/-- Every declaration that a run builds a resource from. -/
def allEntries (p : Platform) : List (String × Fields) := moduleEntries p ++ topLevelEntries p

/-- An entry has no key twice, and what it names its resource is a name that the description gives. -/
structure Reserves (names : List String) (entry : String × Fields) : Prop where
  distinct : entry.2.Distinct
  given : ∀ name, Resource.givenName? entry.2 = some name → name ∈ names

theorem reserves_allEntries {p : Platform}
    (keyed : ∀ r ∈ (p.modules.flatMap fun m => m.2.resources) ++ p.resources,
      r.config.WellKeyed) : ∀ entry ∈ allEntries p, Reserves (givenNames p) entry := by
  intro entry member
  rcases List.mem_append.mp member with inside | outside
  · obtain ⟨m, inModules, e, inModule, rfl⟩ := mem_moduleEntries.mp inside
    have listed : e ∈ p.modules.flatMap fun m => m.2.resources :=
      List.mem_flatMap.mpr ⟨m, inModules, inModule⟩
    refine ⟨(keyed e (List.mem_append_left _ listed)).distinct.insert _ _, ?_⟩
    intro name given
    rw [givenName?_placedIn] at given
    exact mem_givenNames_of_module inModules inModule given
  · obtain ⟨e, listed, rfl⟩ := List.mem_map.mp outside
    refine ⟨(keyed e (List.mem_append_right _ listed)).distinct, ?_⟩
    intro name given
    exact List.mem_filterMap.mpr ⟨e, List.mem_append_right _ listed, given⟩

/-- A phase that builds resources with these names reserved keeps generated names apart from them and
from each other. -/
theorem exists_namesApart {b : Build} {seed : Nat} {names : List String} {catalog : Catalog}
    {entries : List (String × Fields)} {last : NamePool} {rs : List Resource}
    (built : Resource.buildAll catalog entries (b.poolWith seed names) = (.ok rs, last))
    (sequential : b.context.naming = .sequential)
    (reserves : ∀ entry ∈ entries, Reserves names entry)
    (nameless : ∀ entry ∈ entries, NamesNoInstance catalog entry.1) :
    ∃ cs : List Creation, cs.map (·.resource) = rs ∧ cs.map (·.entry) = entries ∧
      (∀ c ∈ cs, c.catalog = catalog) ∧ NamesApart names cs := by
  obtain ⟨cs, rfl, rfl, catalogs⟩ := Resource.exists_creations built
  have taken : ∀ name ∈ names, name ∈ (b.poolWith seed names).taken := by
    intro name member
    rw [poolWith, NamePool.mem_taken_foldl_reserve]
    exact .inl member
  have naming : (b.poolWith seed names).naming = .sequential := by
    rw [poolWith, NamePool.foldl_reserve_naming]
    exact sequential
  have apart := Resource.namesApart_of_buildAll built naming catalogs
    (fun c member => (reserves _ (List.mem_map_of_mem member)).distinct)
    (fun c member => nameless _ (List.mem_map_of_mem member))
    fun c member name given => taken name ((reserves _ (List.mem_map_of_mem member)).given name given)
  exact ⟨cs, rfl, rfl, catalogs, apart.mono taken⟩

/-- The resources of modules and the others, with what they were built from over files of these
catalogs. -/
structure Named (p : Platform) (files : Catalog → Prop) (done : List Phase) (b : Build)
    (cs ts : List Creation) : Prop where
  moduleResources : cs.map (·.resource) = b.moduleResources
  topLevelResources : ts.map (·.resource) = b.topLevelResources
  inModules : cs.map (·.entry) = builtInModules p done
  atTop : ts.map (·.entry) = builtAtTop p done
  files : ∀ c ∈ cs ++ ts, files c.catalog
  apart : NamesApart (givenNames p) cs
  together : ResourcesLast done → NamesApart (givenNames p) (cs ++ ts)

section Step

variable {start b : Build} {files : Catalog → Prop} {done : List Phase} {cs ts : List Creation}

/-- Phases that build no resources leave everything as it is. -/
theorem Named.kept {p : Platform} (named : Named p files done b cs ts) {phase : Phase}
    (other : phase ≠ .modules ∧ phase ≠ .resources) {next : Build}
    (inModules : next.moduleResources = b.moduleResources)
    (atTop : next.topLevelResources = b.topLevelResources) :
    Named p files (done ++ [phase]) next cs ts := by
  refine ⟨named.moduleResources.trans inModules.symm, named.topLevelResources.trans atTop.symm,
    ?_, ?_, named.files, named.apart, fun last => named.together ?_⟩
  · rw [builtInModules_append, if_neg other.1, named.inModules]
  · rw [builtAtTop_append, if_neg other.2, named.atTop]
  · exact (((resourcesLast_append done phase).mp last).resolve_left other.2).2

theorem Named.leads {phase : Phase} {q : Progress} (named : Named start.platform files done b cs ts)
    (continues : Continues start b) (leads : Leads b done phase q)
    (sequential : start.context.naming = .sequential)
    (reserves : ∀ entry ∈ allEntries start.platform, Reserves (givenNames start.platform) entry)
    (nameless : ∀ entry ∈ allEntries start.platform,
      NamesNoInstance b.context.catalog entry.1)
    (current : files b.context.catalog) :
    ∃ cs ts, Named start.platform files q.done q.state cs ts := by
  have naming : b.context.naming = .sequential := continues.naming.trans sequential
  cases leads with
  | modules built =>
      rw [continues.platform] at built
      obtain ⟨new, rfl, declared, catalogs, apart⟩ := exists_namesApart built naming
        (fun entry member => reserves entry (List.mem_append_left _ member))
        fun entry member => nameless entry (List.mem_append_left _ member)
      refine ⟨new, ts, rfl, named.topLevelResources, ?_, ?_, ?_, apart, ?_⟩
      · rw [builtInModules_append, if_pos rfl, declared]
      · rw [builtAtTop_append, if_neg (by decide), named.atTop]
      · intro c member
        rcases List.mem_append.mp member with inside | outside
        · exact catalogs c inside ▸ current
        · exact named.files c (List.mem_append_right _ outside)
      -- Resources outside of modules may share a name with the new ones until they are built again.
      · intro last
        simp [resourcesLast_append] at last
  | resources built =>
      rw [continues.platform] at built
      have wider : ∀ name ∈ givenNames start.platform, name ∈ givenNames start.platform ++
          b.moduleResources.map (·.instanceName) := fun name => List.mem_append_left _
      obtain ⟨new, rfl, declared, catalogs, apart⟩ := exists_namesApart built naming
        (fun entry member =>
          have own := reserves entry (List.mem_append_right _ member)
          ⟨own.distinct, fun name given => wider name (own.given name given)⟩)
        fun entry member => nameless entry (List.mem_append_right _ member)
      refine ⟨cs, new, named.moduleResources, rfl, ?_, ?_, ?_, named.apart, fun _ => ?_⟩
      · rw [builtInModules_append, if_neg (by decide), named.inModules]
      · rw [builtAtTop_append, if_pos rfl, declared]
      · intro c member
        rcases List.mem_append.mp member with inside | outside
        · exact named.files c (List.mem_append_left _ inside)
        · exact catalogs c outside ▸ current
      -- The second pool knows every name of the first list, and declared names are reserved in both.
      · refine named.apart.append apart wider ?_ ?_
        · intro c member
          refine .inl (List.mem_append_right _ ?_)
          rw [← named.moduleResources, List.map_map]
          exact List.mem_map_of_mem member
        · intro c member kept
          have listed : c.entry ∈ topLevelEntries start.platform :=
            declared ▸ List.mem_map_of_mem member
          have silent : NamesNoInstance c.catalog c.type := by
            rw [catalogs c member]
            exact nameless c.entry (List.mem_append_right _ listed)
          exact (c.declared_or_unnamed silent kept).imp_left
            ((reserves c.entry (List.mem_append_right _ listed)).given c.name)
  | environments built => exact ⟨cs, ts, named.kept (by decide) rfl rfl⟩
  | extraAssets built => exact ⟨cs, ts, named.kept (by decide) rfl rfl⟩
  | failed => exact ⟨cs, ts, { named with }⟩

end Step

/-- When the resources outside of modules were built last, every generated name is its type with a number
from 1 on; it is no name that the description gives anywhere, and no other resource has it. -/
theorem namesApart_progress {raw : Fields} {destination : String} {context : Context}
    {generatedAt : String} {start : Build} (sequential : context.naming = .sequential)
    (keyed : raw.WellKeyed) (started : ofConfig raw destination context generatedAt = .ok start)
    (calls : List Call)
    (nameless : ∀ call ∈ calls, ∀ entry ∈ allEntries start.platform,
      NamesNoInstance { context.catalog with disk := call.disk } entry.1)
    (last : ResourcesLast (start.progress calls).done) :
    ∃ cs : List Creation, cs.map (·.resource) = (start.progress calls).state.resources ∧
      cs.map (·.entry) = builtInModules start.platform (start.progress calls).done ++
        topLevelEntries start.platform ∧
      (∀ c ∈ cs, ∃ call ∈ calls, c.catalog = { context.catalog with disk := call.disk }) ∧
      NamesApart (givenNames start.platform) cs := by
  obtain ⟨platform, read, rfl⟩ := ofConfig_eq_ok_iff.mp started
  let start := ofPlatform platform destination context generatedAt
  let files : Catalog → Prop := fun catalog =>
    ∃ call ∈ calls, catalog = { context.catalog with disk := call.disk }
  let holds : Progress → Prop := fun q =>
    Continues start q.state ∧ ∃ cs ts, Named platform files q.done q.state cs ts
  have reserves := reserves_allEntries (Platform.wellKeyed_resources keyed read)
  have first : holds ⟨[], start⟩ :=
    ⟨Continues.refl start, [], [], rfl, rfl, rfl, rfl, fun _ member => (nomatch member),
      Resource.namesApart_nil _, fun _ => Resource.namesApart_nil _⟩
  obtain ⟨-, cs, ts, named⟩ : holds (start.progress calls) := by
    refine List.foldlRecOn (motive := holds) calls Progress.call first ?_
    rintro q ⟨continues, cs, ts, named⟩ call member
    have further := continues.reading call.disk
    have catalog : (q.state.reading call.disk).context.catalog =
        { context.catalog with disk := call.disk } :=
      congrArg₂ (Catalog.mk call.disk) continues.root continues.libraries
    have step := leads_call q call
    have here : Named platform files q.done (q.state.reading call.disk) cs ts := { named with }
    refine ⟨further.leads step, here.leads further step sequential reserves ?_ ?_⟩
    · rw [catalog]
      exact nameless call member
    · exact ⟨call, member, catalog⟩
  refine ⟨cs ++ ts, ?_, ?_, named.files, named.together last⟩
  · rw [List.map_append, named.moduleResources, named.topLevelResources]
    rfl
  · have ran : .resources ∈ (start.progress calls).done :=
      (List.mem_filter.mp (List.mem_of_getLast? last)).1
    rw [List.map_append, named.inModules, named.atTop, builtAtTop, if_pos ran]
    rfl

/-- The resource of the module was named first, and both names belong to one type. -/
theorem namesApart_progress_bucket :
    ((Sample.start 0).progress Sample.calls).state.resources.map (·.instanceName) =
        ["bucket_1", "bucket_2"] ∧
      ∃ cs : List Creation,
        cs.map (·.resource) = ((Sample.start 0).progress Sample.calls).state.resources ∧
        NamesApart [] cs := by
  have ran : ResourcesLast ((Sample.start 0).progress Sample.calls).done ∧
      ((Sample.start 0).progress Sample.calls).state.resources.map (·.instanceName) =
        ["bucket_1", "bucket_2"] := by
    decide +kernel
  have defaults : Sample.catalog.defaults "bucket" = .ok [] :=
    Catalog.defaults_of_missing (by decide) (by decide +kernel)
  have nameless : ∀ call ∈ Sample.calls, ∀ entry ∈ allEntries Sample.platform,
      NamesNoInstance { (Sample.context 0).catalog with disk := call.disk } entry.1 := by
    have disks : ∀ call ∈ Sample.calls, call.disk = Sample.disk := by
      simp [Sample.calls]
    have types : ∀ entry ∈ allEntries Sample.platform, entry.1 = "bucket" := by
      decide
    intro call inCalls entry declared found given
    rw [disks call inCalls, types entry declared] at given
    cases Except.ok.inj (defaults.symm.trans given)
    rfl
  obtain ⟨cs, built, -, -, apart⟩ := namesApart_progress rfl Sample.wellKeyed_raw
    (Sample.ofConfig_raw 0) Sample.calls nameless ran.1
  exact ⟨ran.2, cs, built, apart⟩

end Groundwork.Build
