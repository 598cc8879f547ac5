import Groundwork.Proofs.Acceptance
import Groundwork.Proofs.InPlace

set_option autoImplicit false

/- Resources without fields. A declaration outside all modules is rejected if it has no fields; one
inside a module is never empty by the time it is built, since the name of its module has become one
of its fields. So a full run is stopped by a resource without fields exactly if it gets as far as
one outside all modules. -/
namespace Groundwork

open Except (FailsOnly)

namespace Failure

/-- A resource of this type is rejected for having no fields. -/
def emptyResource (type : String) : Failure := .configuration (.resource type) .emptyResource

/-- Any other failure. -/
def Other (f : Failure) : Prop := ∀ type, f ≠ emptyResource type

theorem other_ofTemplate (fault : TemplateFault) : Other (ofTemplate fault) := by
  cases fault <;> exact fun _ same => nomatch same

theorem other_within (entity : Entity) (f : Failure) : Other (f.within entity) := by
  cases f <;> exact fun _ same => nomatch same

theorem other_template {α : Type} (step : Except TemplateFault α) :
    FailsOnly Other (ofTemplates step) := Except.failsOnly_mapError other_ofTemplate step

end Failure

open Failure (Other other_within other_template)

namespace Resource

theorem moduleOf_failsOnly (type : String) (config : Fields) :
    FailsOnly Other (moduleOf type config) := by
  unfold moduleOf requireDirectoryName
  split
  · exact Except.failsOnly_ok mainModule
  · exact Except.failsOnly_ok mainModule
  · refine FailsOnly.bind_pure ?_ _
    split
    · exact Except.failsOnly_ok ()
    · exact Except.failsOnly_error fun _ same => nomatch same
  · exact Except.failsOnly_error fun _ same => nomatch same

theorem jinjaOf_failsOnly (type : String) (config : Fields) :
    FailsOnly Other (jinjaOf type config) := by
  unfold jinjaOf
  split
  · exact Except.failsOnly_ok false
  · exact Except.failsOnly_ok false
  · exact Except.failsOnly_ok _
  · exact Except.failsOnly_error fun _ same => nomatch same

theorem source_failsOnly (catalog : Catalog) (type : String) (usesJinja : Bool) (config : Fields) :
    FailsOnly Other (source catalog type usesJinja config) := by
  refine (other_template _).bind fun text => ?_
  split
  · exact other_template _
  · exact Except.failsOnly_ok text

/-- Fields that have got this far are not rejected for being none. -/
theorem assemble_failsOnly (catalog : Catalog) (type : String) (config : Fields) :
    FailsOnly Other (assemble catalog type config) := by
  refine (moduleOf_failsOnly type config).bind fun moduleName => ?_
  refine (jinjaOf_failsOnly type _).bind fun usesJinja => ?_
  refine (Except.failsOnly_mapError (other_within _) _).bind fun vars => ?_
  refine FailsOnly.bind_pure ?_ _
  exact (source_failsOnly catalog type usesJinja _).bind fun text =>
    Except.failsOnly_mapError (other_within _) _

theorem build_eq_emptyResource_iff {catalog : Catalog} {type other : String} {config : Fields}
    {pool : NamePool} :
    (build catalog type config pool).1 = .error (.emptyResource other) ↔
      config = [] ∧ type = other := by
  unfold build
  constructor
  · intro failed
    split at failed
    · rename_i empty
      refine ⟨List.isEmpty_iff.mp empty, ?_⟩
      have same := Except.error.inj failed
      cases same
      rfl
    · split at failed
      · rename_i step
        exact absurd (Except.error.inj failed) (other_template _ _ step other)
      · exact absurd rfl (assemble_failsOnly _ _ _ _ failed other)
  · rintro ⟨rfl, rfl⟩
    rfl

/-- Building a list stops at a declaration without fields if it gets there. -/
theorem buildAll_eq_emptyResource_iff {catalog : Catalog} {type : String}
    {entries : List (String × Fields)} {pool : NamePool} :
    (buildAll catalog entries pool).1 = .error (.emptyResource type) ↔
      ∃ before behind rs, entries = before ++ (type, []) :: behind ∧
        (buildAll catalog before pool).1 = .ok rs := by
  constructor
  · intro failed
    induction entries generalizing pool with
    | nil => cases failed
    | cons entry rest ih =>
        obtain ⟨first, config⟩ := entry
        rw [buildAll_cons] at failed
        cases built : (build catalog first config pool).1 with
        | error e =>
            rw [built] at failed
            have same : e = .emptyResource type := Except.error.inj failed
            obtain ⟨rfl, rfl⟩ := build_eq_emptyResource_iff.mp (same ▸ built)
            exact ⟨[], rest, [], rfl, rfl⟩
        | ok r =>
            rw [built] at failed
            obtain ⟨before, behind, rs, rfl, passed⟩ := ih (Except.map_eq_error_iff.mp failed)
            refine ⟨(first, config) :: before, behind, r :: rs, rfl, ?_⟩
            rw [buildAll_cons, built]
            exact Except.map_eq_ok_iff.mpr ⟨rs, passed, rfl⟩
  · rintro ⟨before, behind, rs, rfl, passed⟩
    have here : ∀ now, (buildAll catalog ((type, []) :: behind) now).1 =
        .error (.emptyResource type) := by
      intro now
      rw [buildAll_cons, build_eq_emptyResource_iff.mpr ⟨rfl, rfl⟩]
    rw [buildAll_append, passed]
    dsimp only
    rw [here]
    rfl

end Resource

namespace Environment

theorem declareAll_failsOnly (catalog : Catalog) (name : String) (fields : Fields) :
    FailsOnly Other (declareAll catalog (.environment name) fields) := by
  induction fields with
  | nil => exact Except.failsOnly_ok []
  | cons entry rest ih =>
      unfold declareAll
      split
      · exact Except.failsOnly_error fun _ same => nomatch same
      · exact (Except.failsOnly_mapError (other_within _) _).bind fun v => ih.bind_pure _

theorem sectionVariables_failsOnly (catalog : Catalog) (name : String) (config : Fields) :
    FailsOnly Other (sectionVariables catalog (.environment name) config) := by
  unfold sectionVariables
  split
  · exact Except.failsOnly_ok []
  · exact Except.failsOnly_ok []
  · exact declareAll_failsOnly catalog name _
  · exact Except.failsOnly_error fun _ same => nomatch same

theorem build_failsOnly (catalog : Catalog) (name : String) (config : Fields) :
    FailsOnly Other (build catalog name config) := by
  refine (other_template _).bind fun merged => ?_
  refine (sectionVariables_failsOnly catalog name merged).bind fun declared => ?_
  refine (Except.failsOnly_mapError (other_within _) _).bind fun marked => ?_
  exact (other_template _).bind_pure _

theorem buildAll_failsOnly (catalog : Catalog) (providers : List Provider) (modules : List Module)
    (entries : Dict Fields) : FailsOnly Other (buildAll catalog providers modules entries) := by
  induction entries with
  | nil => exact Except.failsOnly_ok []
  | cons entry rest ih =>
      refine (build_failsOnly catalog entry.1 entry.2).bind fun e => ?_
      have extended : FailsOnly Other (e.extend catalog providers modules) :=
        (other_template _).bind_pure _
      exact extended.bind fun e => ih.bind_pure _

end Environment

theorem Catalog.checkJson_failsOnly (catalog : Catalog) (fields : Fields) :
    FailsOnly Other (catalog.checkJson fields) :=
  Except.failsOnly_mapError (fun _ _ same => nomatch same) _

theorem Manifest.renderContext_failsOnly (catalog : Catalog) (m : Manifest) (base : Fields) :
    FailsOnly Other (m.renderContext catalog base) :=
  (catalog.checkJson_failsOnly base).bind fun _ => (catalog.checkJson_failsOnly _).bind_pure _

namespace Asset

theorem build_failsOnly (catalog : Catalog) (m : Manifest) (name : String) (config : Fields) :
    FailsOnly Other (build catalog m name config) := by
  unfold build
  split
  · refine (other_template _).bind fun source => ?_
    exact (m.renderContext_failsOnly catalog config).bind fun context =>
      (other_template _).bind_pure _
  · split
    · exact (other_template _).bind_pure _
    · exact Except.failsOnly_error fun _ same => nomatch same

theorem buildAll_failsOnly (catalog : Catalog) (m : Manifest) (entries : Dict Fields) :
    FailsOnly Other (buildAll catalog m entries) := by
  induction entries with
  | nil => exact Except.failsOnly_ok []
  | cons entry rest ih =>
      exact (build_failsOnly catalog m entry.1 entry.2).bind fun a => ih.bind_pure _

end Asset

/-- What is read as a declaration without fields has none to read, or nothing at all in their place. -/
theorem DeclaredResource.ofValue_eq_empty_iff {owner : Entity} {entry : Value} {type : String} :
    ofValue owner entry = .ok ⟨type, []⟩ ↔
      entry = .map [(type, .null)] ∨ entry = .map [(type, .map [])] := by
  constructor
  · intro read
    cases Value.single_eq_ok_iff.mp read with
    | single mapping =>
        cases mapping with
        | null => exact .inl rfl
        | map => exact .inr rfl
  · rintro (rfl | rfl) <;> rfl

namespace Build

/-- The name of its module is a field of every declaration inside a module. -/
theorem nonempty_moduleEntries (p : Platform) : ∀ entry ∈ moduleEntries p, entry.2 ≠ [] := by
  intro entry member empty
  obtain ⟨m, -, inside⟩ := List.mem_flatMap.mp member
  obtain ⟨r, -, rfl⟩ := List.mem_map.mp inside
  have placed := Dict.get?_insert_self r.config Resource.moduleKey (.string m.1)
  change r.config.insert Resource.moduleKey (.string m.1) = [] at empty
  rw [empty] at placed
  cases placed

/-- Declarations outside all modules, built as a state would build them. -/
def buildTopLevel (b : Build) (declared : List DeclaredResource) :
    Except Failure (List Resource) :=
  (Resource.buildAll b.context.catalog (declared.map fun e => (e.type, e.config))
    b.topLevelPool).1

theorem answer_settle_eq_error_iff {b : Build} {step : Except Failure Build} {e : Failure} :
    (b.settle step).1 = .error e ↔ step = .error e := by
  constructor
  · exact fun failed => (settle_eq_error_iff.mp (Prod.ext failed rfl)).1
  · exact fun failed => congrArg Prod.fst (settle_eq_error_iff.mpr ⟨failed, rfl⟩)

theorem settle_failsOnly {P : Failure → Prop} {b : Build} {step : Except Failure Build}
    (fails : FailsOnly P step) : FailsOnly P (b.settle step).1 :=
  fun e failed => fails e (answer_settle_eq_error_iff.mp failed)

theorem run_modules_failsOnly (b : Build) : FailsOnly Other (b.run .modules).1 := by
  refine settle_failsOnly (FailsOnly.bind_pure ?_ _)
  rintro e failed type rfl
  obtain ⟨before, behind, rs, split, -⟩ := Resource.buildAll_eq_emptyResource_iff.mp failed
  have inside : (type, []) ∈ moduleEntries b.platform :=
    split ▸ List.mem_append_right before List.mem_cons_self
  exact nonempty_moduleEntries b.platform _ inside rfl

theorem run_environments_failsOnly (b : Build) : FailsOnly Other (b.run .environments).1 :=
  settle_failsOnly ((Environment.buildAll_failsOnly _ _ _ _).bind_pure _)

theorem run_extraAssets_failsOnly (b : Build) : FailsOnly Other (b.run .extraAssets).1 :=
  settle_failsOnly ((Asset.buildAll_failsOnly _ _ _).bind_pure _)

theorem run_resources_eq_emptyResource_iff {b : Build} {type : String} :
    (b.run .resources).1 = .error (.emptyResource type) ↔
      ∃ before behind ts, b.platform.resources = before ++ ⟨type, []⟩ :: behind ∧
        b.buildTopLevel before = .ok ts := by
  refine (answer_settle_eq_error_iff.trans Except.bind_pure_eq_error_iff).trans ?_
  rw [Resource.buildAll_eq_emptyResource_iff]
  constructor
  · rintro ⟨before, behind, ts, split, passed⟩
    obtain ⟨first, second, whole, rfl, later⟩ := List.map_eq_append_iff.mp split
    obtain ⟨here, rest, rfl, same, -⟩ := List.map_eq_cons_iff.mp later
    cases here
    cases same
    exact ⟨first, rest, ts, whole, passed⟩
  · rintro ⟨before, behind, ts, split, passed⟩
    refine ⟨_, behind.map fun e => (e.type, e.config), ts, ?_, passed⟩
    rw [topLevelEntries, split, List.map_append]
    rfl

theorem runEach_failsOnly {P : Failure → Prop} {phases : List Phase}
    (each : ∀ phase ∈ phases, ∀ b : Build, FailsOnly P (b.run phase).1) (b : Build) :
    FailsOnly P (b.runEach phases).1 := by
  induction phases generalizing b with
  | nil => exact Except.failsOnly_ok ()
  | cons phase rest ih =>
      obtain ⟨first, others⟩ := List.forall_mem_cons.mp each
      rw [runEach_cons]
      cases answer : (b.run phase).1 with
      | error e => exact Except.failsOnly_error (first b e answer)
      | ok _ => exact ih others _

theorem laterPhases_failsOnly (b : Build) :
    FailsOnly Other (b.runEach [.environments, .extraAssets]).1 := by
  refine runEach_failsOnly ?_ b
  intro phase member
  simp only [List.mem_cons, List.not_mem_nil, or_false] at member
  rcases member with rfl | rfl
  · exact run_environments_failsOnly
  · exact run_extraAssets_failsOnly

/-- A declaration without fields is read where they are empty or null, and a full run is stopped by one
exactly if the modules are built, and so are all declarations before one outside all modules. -/
theorem runAll_eq_emptyResource_iff (b : Build) (type : String) :
    (∀ owner entry, DeclaredResource.ofValue owner entry = .ok ⟨type, []⟩ ↔
      entry = .map [(type, .null)] ∨ entry = .map [(type, .map [])]) ∧
    (b.runAll.1 = .error (.emptyResource type) ↔
      (b.run .modules).1 = .ok () ∧ ∃ before behind ts,
        b.platform.resources = before ++ ⟨type, []⟩ :: behind ∧
          (b.run .modules).2.buildTopLevel before = .ok ts) := by
  refine ⟨fun owner entry => DeclaredResource.ofValue_eq_empty_iff, ?_⟩
  have atTop : ((b.run .modules).2.run .resources).1 = .error (.emptyResource type) ↔ _ :=
    run_resources_eq_emptyResource_iff
  rw [(keeps_run b .modules).platform] at atTop
  rw [← atTop, runAll, Phase.all, runEach_cons]
  cases modules : (b.run .modules).1 with
  | error e =>
      have other : e ≠ .emptyResource type := run_modules_failsOnly b e modules type
      exact ⟨fun failed => absurd (Except.error.inj failed) other, fun ⟨passed, _⟩ => nomatch passed⟩
  | ok _ =>
      dsimp only
      rw [runEach_cons]
      cases resources : ((b.run .modules).2.run .resources).1 with
      | error e => exact ⟨fun failed => ⟨rfl, failed⟩, fun ⟨_, failed⟩ => failed⟩
      | ok _ =>
          refine ⟨fun failed => ?_, fun ⟨_, failed⟩ => nomatch failed⟩
          exact absurd rfl (laterPhases_failsOnly _ _ failed type)

namespace Sample

/-- The only resource of a module has no fields. -/
def unfilled : Fields :=
  [("modules", .map [("storage", .map [("resources", .list [.map [("bucket", .null)]])])])]

end Sample

/-- Inside a module, a resource without fields is built like any other. -/
theorem empty_resource_in_module :
    ∃ start, ofConfig Sample.unfilled "out" (Sample.context 0) "now" = .ok start ∧
      (start.platform.modules.flatMap fun m => m.2.resources.map fun r =>
        (r.type, r.config.isEmpty)) = [("bucket", true)] ∧
      start.runAll.1 = .ok () ∧ start.runAll.2.resources.map (·.instanceName) = ["bucket_1"] := by
  have outcome : (ofConfig Sample.unfilled "out" (Sample.context 0) "now").map (fun start =>
      (start.platform.modules.flatMap fun m => m.2.resources.map fun r =>
        (r.type, r.config.isEmpty), start.runAll.1,
        start.runAll.2.resources.map (·.instanceName))) =
          .ok ([("bucket", true)], .ok (), ["bucket_1"]) := by
    decide +kernel
  obtain ⟨start, started, same⟩ := Except.map_eq_ok_iff.mp outcome
  exact ⟨start, started, congrArg (·.1) same, congrArg (·.2.1) same, congrArg (·.2.2) same⟩

end Build

end Groundwork
