import Groundwork.Proofs.Asset
import Groundwork.Proofs.Environment
import Groundwork.Proofs.Module
import Groundwork.Proofs.Platform
import Groundwork.Proofs.Run
import Groundwork.Proofs.Save

set_option autoImplicit false

/- The targets of a completed run. Names of modules, environments and assets come from the
description, so two targets coincide exactly if an environment is named like the directory of
modules or like a directory that is copied. -/
namespace Groundwork

namespace Environment

theorem name_build {catalog : Catalog} {name : String} {config : Fields} {e : Environment}
    (success : build catalog name config = .ok e) : e.name = name := by
  obtain ⟨merged, inSection, marked, template, -, rfl⟩ := build_ok success
  rfl

theorem name_extend {catalog : Catalog} {e extended : Environment} {providers : List Provider}
    {modules : List Module} (success : e.extend catalog providers modules = .ok extended) :
    extended.name = e.name := by
  obtain ⟨mainCode, -, rfl⟩ := extend_eq_ok_iff.mp success
  rfl

/-- Each environment is built from the entry at its place, and extended. -/
def BuiltFrom (catalog : Catalog) (providers : List Provider) (modules : List Module)
    (entry : String × Fields) (e : Environment) : Prop :=
  ∃ built, build catalog entry.1 entry.2 = .ok built ∧
    built.extend catalog providers modules = .ok e

theorem forall₂_buildAll {catalog : Catalog} {providers : List Provider} {modules : List Module}
    {entries : Dict Fields} {es : List Environment}
    (success : buildAll catalog providers modules entries = .ok es) :
    List.Forall₂ (BuiltFrom catalog providers modules) entries es := by
  induction entries generalizing es with
  | nil =>
      cases Except.ok.inj success
      exact .nil
  | cons entry rest ih =>
      obtain ⟨built, first, success⟩ := Except.bind_eq_ok_iff.mp success
      obtain ⟨e, extended, success⟩ := Except.bind_eq_ok_iff.mp success
      obtain ⟨others, more, rfl⟩ := Except.bind_pure_eq_ok_iff.mp success
      exact .cons ⟨built, first, extended⟩ (ih more)

theorem names_buildAll {catalog : Catalog} {providers : List Provider} {modules : List Module}
    {entries : Dict Fields} {es : List Environment}
    (success : buildAll catalog providers modules entries = .ok es) :
    es.map (·.name) = Dict.keys entries := by
  refine map_eq_of_forall₂ (forall₂_buildAll success) ?_
  rintro entry e ⟨built, first, extended⟩
  exact (name_extend extended).trans (name_build first)

end Environment

namespace Asset

/-- The name of an asset's target; only the follow-up document is a file. -/
def targetOf (name : String) : String :=
  if name = actionRequiredName then actionRequiredFile else name

theorem targetOf_static : ∀ name ∈ staticNames, targetOf name = name := by
  decide

theorem Made.targetName {catalog : Catalog} {m : Manifest} {entry : String × Fields} {a : Asset}
    (made : Made catalog m entry a) : a.targetName = targetOf entry.1 := by
  cases made with
  | document _ _ => rfl
  | copy known _ => exact (targetOf_static _ known).symm

theorem buildAll_ok {catalog : Catalog} {m : Manifest} {entries : Dict Fields} {as : List Asset}
    (success : buildAll catalog m entries = .ok as) :
    as.map (·.targetName) = (Dict.keys entries).map targetOf ∧
      ∀ name ∈ Dict.keys entries, name ∈ actionRequiredName :: staticNames := by
  have each := buildAll_eq_ok_iff.mp success
  constructor
  · rw [Dict.keys, List.map_map]
    exact map_eq_of_forall₂ each fun _ _ made => made.targetName
  · intro name member
    obtain ⟨entry, inside, rfl⟩ := List.mem_map.mp member
    obtain ⟨a, made⟩ := exists_forall₂_iff.mp ⟨as, each⟩ entry inside
    exact made.known

/-- Known assets have different targets, each one step down and none of them the modules. -/
theorem targetOf_injective : ∀ first ∈ actionRequiredName :: staticNames,
    ∀ second ∈ actionRequiredName :: staticNames,
      targetOf first = targetOf second → first = second := by
  decide

theorem single_targetOf : ∀ name ∈ actionRequiredName :: staticNames,
    Path.Single (targetOf name) := by
  have each : ∀ name ∈ actionRequiredName :: staticNames, targetOf name ≠ "" ∧
      '/' ∉ (targetOf name).toList ∧ targetOf name ≠ "." ∧ targetOf name ≠ ".." := by
    decide
  intro name member
  obtain ⟨nonempty, unbroken, notHere, notAbove⟩ := each name member
  exact ⟨nonempty, unbroken, notHere, notAbove⟩

theorem targetOf_ne_modules : ∀ name ∈ actionRequiredName :: staticNames,
    targetOf name ≠ Output.modulesDirectory := by
  decide

/-- A plain name is the target of a copied directory or of no asset at all. -/
theorem targetOf_eq_plain : ∀ name ∈ actionRequiredName :: staticNames,
    isPlainName (targetOf name) = true → targetOf name = name ∧ name ∈ staticNames := by
  decide

end Asset

/-- No environment is named like the directory of modules or like a directory that is copied. -/
def Platform.NamesApart (p : Platform) : Prop :=
  ∀ name ∈ Dict.keys p.environments, name ≠ Output.modulesDirectory ∧
    (name ∈ Asset.staticNames → name ∉ Dict.keys p.extraAssets)

namespace Build

theorem keys_assetEntries (p : Platform) :
    Dict.keys (assetEntries p) =
      (Dict.keys p.extraAssets).filter (· ≠ Asset.actionRequiredName) ++
        [Asset.actionRequiredName] := by
  simp only [assetEntries, Dict.keys, Dict.erase, List.map_append, List.filter_map]
  rfl

theorem distinct_assetEntries {p : Platform} (distinct : Dict.Distinct p.extraAssets) :
    Dict.Distinct (assetEntries p) := by
  unfold Dict.Distinct
  rw [keys_assetEntries, Output.nodup_append_singleton]
  refine ⟨?_, distinct.filter _⟩
  intro member
  simpa using (List.mem_filter.mp member).2

/-- A directory is copied exactly if the description asks for it. -/
theorem mem_assetEntries_of_static {p : Platform} {name : String}
    (static : name ∈ Asset.staticNames) :
    name ∈ Dict.keys (assetEntries p) ↔ name ∈ Dict.keys p.extraAssets := by
  have other : name ≠ Asset.actionRequiredName := by
    revert static
    rintro static rfl
    revert static
    decide
  rw [keys_assetEntries, List.mem_append, List.mem_filter, List.mem_singleton]
  simp [other]

section Completed

variable {b : Build} {rs ts : List Resource} {es : List Environment} {as : List Asset}

theorem Completes.plain_moduleName (completes : Completes b rs ts es as) :
    ∀ r ∈ rs ++ ts, isPlainName r.moduleName = true := by
  have each : ∀ type config pool r after,
      Resource.build b.context.catalog type config pool = (.ok r, after) →
      isPlainName r.moduleName = true := fun _ _ _ _ _ => Resource.plain_moduleName
  have inModules := Resource.buildAll_forall each (Prod.ext completes.modules rfl)
  have atTop := Resource.buildAll_forall each (Prod.ext completes.resources rfl)
  intro r member
  rcases List.mem_append.mp member with early | late
  · exact inModules r early
  · exact atTop r late

theorem Completes.names_environments (completes : Completes b rs ts es as) :
    es.map (·.name) = Dict.keys b.platform.environments :=
  Environment.names_buildAll completes.environments

theorem Completes.singleTargets (completes : Completes b rs ts es as)
    (names : b.platform.NamesTargets) : (b.rebuilt rs ts es as).SingleTargets := by
  refine ⟨?_, ?_, ?_⟩
  · intro m member
    have named : m.name ∈ (assembled b.platform (rs ++ ts)).map (·.name) :=
      List.mem_map_of_mem member
    apply Path.single_of_plain
    rcases (names_assembled names.modules (rs ++ ts)).2 _ named with declared | ⟨r, built, same⟩
    · exact names.plainModules _ declared
    · rw [← same]
      exact completes.plain_moduleName r built
  · intro e member
    have named : e.name ∈ es.map (·.name) := List.mem_map_of_mem member
    rw [completes.names_environments] at named
    exact Path.single_of_plain (names.plainEnvironments _ named)
  · intro a member
    obtain ⟨targets, known⟩ := Asset.buildAll_ok completes.assets
    have target : a.targetName ∈ as.map (·.targetName) := List.mem_map_of_mem member
    rw [targets] at target
    obtain ⟨name, listed, same⟩ := List.mem_map.mp target
    rw [← same]
    exact Asset.single_targetOf name (known name listed)

/-- Different assets of a description have different targets. -/
theorem distinct_targets {p : Platform} (distinct : Dict.Distinct p.extraAssets)
    (known : ∀ name ∈ Dict.keys (assetEntries p), name ∈ Asset.actionRequiredName ::
      Asset.staticNames) : ((Dict.keys (assetEntries p)).map Asset.targetOf).Nodup := by
  refine List.pairwise_map.mpr ((distinct_assetEntries distinct).imp_of_mem ?_)
  intro first second inFirst inSecond apart same
  exact apart (Asset.targetOf_injective first (known first inFirst) second
    (known second inSecond) same)

/-- Two targets of a completed run coincide exactly if an environment is named like the directory of
modules or like a directory that is copied. -/
theorem Completes.targetsApart_iff (completes : Completes b rs ts es as)
    (names : b.platform.NamesTargets) :
    (b.rebuilt rs ts es as).TargetsApart ↔ b.platform.NamesApart := by
  obtain ⟨targets, known⟩ := Asset.buildAll_ok completes.assets
  have targetNamesEq : (b.rebuilt rs ts es as).targetNames =
      Output.modulesDirectory :: (Dict.keys b.platform.environments ++
        (Dict.keys (assetEntries b.platform)).map Asset.targetOf) := by
    show Output.modulesDirectory :: (es.map (·.name) ++ as.map (·.targetName)) = _
    rw [completes.names_environments, targets]
  rw [TargetsApart, targetNamesEq, List.nodup_cons, List.nodup_append]
  constructor
  · rintro ⟨-, noModules, -, -, disjoint⟩ name member
    constructor
    · rintro rfl
      exact noModules (List.mem_append_left _ member)
    · intro static declared
      have listed := (mem_assetEntries_of_static static).mpr declared
      have taken : name ∈ (Dict.keys (assetEntries b.platform)).map Asset.targetOf :=
        List.mem_map.mpr ⟨name, listed, Asset.targetOf_static name static⟩
      exact disjoint name member name taken rfl
  · intro apart
    refine ⟨(names_assembled names.modules (rs ++ ts)).1, ?_, names.environments,
      distinct_targets names.extraAssets known, ?_⟩
    · intro member
      rcases List.mem_append.mp member with environment | asset
      · exact (apart _ environment).1 rfl
      · obtain ⟨name, listed, same⟩ := List.mem_map.mp asset
        exact Asset.targetOf_ne_modules name (known name listed) same
    · rintro environment member _ asset rfl
      obtain ⟨name, listed, same⟩ := List.mem_map.mp asset
      have plain := names.plainEnvironments environment member
      rw [← same] at plain
      obtain ⟨target, static⟩ := Asset.targetOf_eq_plain name (known name listed) plain
      have named : environment = name := same.symm.trans target
      rw [named] at member
      exact (apart name member).2 static ((mem_assetEntries_of_static static).mp listed)

end Completed

/-- A completed run is saved into a destination that does not exist. If the destination stays absent
while the directories above it are created, and no environment is named like the directory of modules
or like a directory that is copied, nothing conflicts; otherwise saving does not succeed. -/
theorem save_of_runAll {raw : Fields} {destination : String} {context : Context}
    {generatedAt : String} {start : Build} {d : Disk} (keyed : raw.WellKeyed)
    (started : ofConfig raw destination context generatedAt = .ok start)
    (success : start.runAll.1 = .ok ()) (wellFormed : d.WellFormed)
    (absent : d.existsAt destination = false) :
    (Output.StaysAbsent destination d ∧ start.platform.NamesApart →
      ∀ path, (start.runAll.2.save.run d).1 ≠ .error (.destinationConflict path)) ∧
    (¬ (Output.StaysAbsent destination d ∧ start.platform.NamesApart) →
      (start.runAll.2.save.run d).1 ≠ .ok ()) := by
  obtain ⟨platform, read, rfl⟩ := ofConfig_eq_ok_iff.mp started
  obtain ⟨rs, ts, es, as, completes, final⟩ := completes_of_runAll success
  have names : platform.NamesTargets := Platform.namesTargets_ofConfig keyed read
  have apart := completes.targetsApart_iff names
  have outcome := (ends_save (completes.singleTargets names) wellFormed absent).outcome
  rw [apart] at outcome
  rw [final]
  revert outcome
  rcases ((ofPlatform platform destination context generatedAt).rebuilt rs ts es as).save.run d
    with ⟨e | ⟨⟩, now⟩
  · intro conflicts
    refine ⟨fun clear path failed => ?_, fun _ failed => nomatch failed⟩
    exact conflicts path (Except.error.inj failed) clear
  · intro clear
    exact ⟨fun _ _ failed => (nomatch failed), fun unclear => absurd clear unclear⟩

namespace Sample

theorem wellFormed_disk : disk.WellFormed := by
  refine Disk.wellFormed_of_entries rfl ?_
  intro e member
  simp only [disk, List.mem_cons, List.not_mem_nil, or_false] at member
  rcases member with rfl | rfl | rfl | rfl | rfl | rfl | rfl <;> rfl

/-- A configuration with nothing but an environment of this name. -/
def deployed (name : String) : Fields := [("environments", .map [(name, .null)])]

theorem wellKeyed_deployed (name : String) : (deployed name).WellKeyed := by
  have inner : Fields.WellKeyed [(name, .null)] := Fields.wellKeyed_singleton .null
  exact Fields.wellKeyed_singleton inner.map

def deployment (name destination : String) : Build :=
  ofPlatform ⟨[], [], [], [(name, [])], [], []⟩ destination (context 0) "now"

end Sample

/-- An environment named like the directory of modules takes its place, and a destination may come to
exist while the directories above it are created. -/
theorem save_conflicts :
    (ofConfig (Sample.deployed "modules") "out" (Sample.context 0) "now" =
        .ok (Sample.deployment "modules" "out") ∧
      (Sample.deployment "modules" "out").runAll.1 = .ok () ∧
      Sample.disk.existsAt "out" = false ∧
      ((Output.createAbove "out").run Sample.disk).1 = .ok () ∧
      ((Sample.deployment "modules" "out").runAll.2.save.run Sample.disk).1 =
        .error (.destinationConflict "out/modules")) ∧
    (ofConfig (Sample.deployed "dev") "x/../x" (Sample.context 0) "now" =
        .ok (Sample.deployment "dev" "x/../x") ∧
      (Sample.deployment "dev" "x/../x").runAll.1 = .ok () ∧
      Sample.disk.existsAt "x/../x" = false ∧
      ((Output.createAbove "x/../x").run Sample.disk).1 = .ok () ∧
      ((Sample.deployment "dev" "x/../x").runAll.2.save.run Sample.disk).1 =
        .error (.destinationConflict "x/../x")) :=
  ⟨⟨Sample.ofConfig_of_ofFields rfl "out" 0, by decide +kernel, by decide +kernel,
      by decide +kernel, by decide +kernel⟩,
    Sample.ofConfig_of_ofFields rfl "x/../x" 0, by decide +kernel, by decide +kernel,
      by decide +kernel, by decide +kernel⟩

theorem save_of_runAll_dev :
    (Sample.deployment "dev" "out").runAll.1 = .ok () ∧
      ((Sample.deployment "dev" "out").runAll.2.save.run Sample.disk).1 = .ok () ∧
      ∀ path, ((Sample.deployment "dev" "out").runAll.2.save.run Sample.disk).1 ≠
        .error (.destinationConflict path) := by
  have success : (Sample.deployment "dev" "out").runAll.1 = .ok () := by decide +kernel
  have saved := save_of_runAll (Sample.wellKeyed_deployed "dev")
    (Sample.ofConfig_of_ofFields rfl "out" 0) success Sample.wellFormed_disk (by decide +kernel)
  have stays : Output.StaysAbsent "out" Sample.disk :=
    Output.staysAbsent_of_steps Sample.wellFormed_disk (by decide +kernel) (by decide +kernel)
  have apart : (Sample.deployment "dev" "out").platform.NamesApart := by
    unfold Platform.NamesApart
    decide
  exact ⟨success, by decide +kernel, saved.1 ⟨stays, apart⟩⟩

end Build

end Groundwork
