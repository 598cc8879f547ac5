import Groundwork.Proofs.Run

set_option autoImplicit false

/- Phases carried out in place. A phase makes its results one by one and writes to the run only when
all of them are there, so a failure finds nothing to undo. The extra assets alone are recorded
before the first of them is made. -/
namespace Groundwork.Build

/-- A computation over a run that may fail, and keeps what it has written when it fails. -/
abbrev Update (α : Type) := ExceptT Failure (StateM Build) α

section Making

variable {α β σ : Type}

/-- Makes a result for each entry, in order, up to the first entry that fails. What an entry leaves over
passes on to the next one. -/
def makeEach (make : Build → β → σ → Except Failure α × σ) : List β → σ → Update (List α)
  | [], _ => return []
  | entry :: rest, given => do
      let (outcome, left) := make (← get) entry given
      let made ← MonadExcept.ofExcept outcome
      return made :: (← makeEach make rest left)

/-- What the entries give, or the failure of the first one that has none to give. -/
def collect (make : β → σ → Except Failure α × σ) : List β → σ → Except Failure (List α)
  | [], _ => .ok []
  | entry :: rest, given => do
      let made ← (make entry given).1
      return made :: (← collect make rest (make entry given).2)

/-- An entry fails with this failure, and all entries before it are made. -/
inductive Stops (make : β → σ → Except Failure α × σ) : List β → σ → Failure → Prop
  | here {entry : β} {rest : List β} {given : σ} {e : Failure}
      (failed : (make entry given).1 = .error e) : Stops make (entry :: rest) given e
  | later {entry : β} {rest : List β} {given : σ} {made : α} {e : Failure}
      (passed : (make entry given).1 = .ok made)
      (stops : Stops make rest (make entry given).2 e) : Stops make (entry :: rest) given e

theorem collect_eq_error_iff {make : β → σ → Except Failure α × σ} {entries : List β} {given : σ}
    {e : Failure} : collect make entries given = .error e ↔ Stops make entries given e := by
  constructor
  · intro failed
    induction entries generalizing given with
    | nil => cases failed
    | cons entry rest ih =>
        rw [collect] at failed
        rcases outcome : (make entry given).1 with d | made
        · rw [outcome] at failed
          cases failed
          exact .here outcome
        · rw [outcome] at failed
          exact .later outcome (ih (Except.bind_pure_eq_error_iff.mp failed))
  · intro stops
    induction stops with
    | here failed => rw [collect, failed]; rfl
    | later passed _ ih => rw [collect, passed, ih]; rfl

/-- Making results writes nothing. -/
theorem makeEach_run (make : Build → β → σ → Except Failure α × σ) (entries : List β) (given : σ)
    (b : Build) : (makeEach make entries given).run b = (collect (make b) entries given, b) := by
  induction entries generalizing given with
  | nil => rfl
  | cons entry rest ih =>
      have unfolded : (makeEach make (entry :: rest) given).run b =
          ((MonadExcept.ofExcept (make b entry given).1 >>= fun made =>
              makeEach make rest (make b entry given).2 >>= fun others => pure (made :: others)) :
            Update (List α)).run b := rfl
      rw [unfolded, collect, ExceptT.run_bind_apply]
      cases (make b entry given).1 with
      | error e => rfl
      | ok made =>
          show ((makeEach make rest (make b entry given).2 >>= fun others => pure (made :: others)) :
            Update (List α)).run b = _
          rw [ExceptT.run_bind_apply, ih]
          cases collect (make b) rest (make b entry given).2 <;> rfl

end Making

def makeResource (b : Build) (entry : String × Fields) (pool : NamePool) :
    Except Failure Resource × NamePool :=
  Resource.build b.context.catalog entry.1 entry.2 pool

/-- An environment is built and then extended over the modules that there are. -/
def makeEnvironment (b : Build) (entry : String × Fields) (given : Unit) :
    Except Failure Environment × Unit :=
  (Environment.build b.context.catalog entry.1 entry.2 >>= fun e =>
    e.extend b.context.catalog b.platform.providers b.modules, given)

/-- An asset is built over the manifest as it stands. -/
def makeAsset (b : Build) (entry : String × Fields) (given : Unit) : Except Failure Asset × Unit :=
  (Asset.build b.context.catalog b.manifest entry.1 entry.2, given)

theorem collect_makeResource (b : Build) (entries : List (String × Fields)) (pool : NamePool) :
    collect b.makeResource entries pool =
      (Resource.buildAll b.context.catalog entries pool).1 := by
  induction entries generalizing pool with
  | nil => rfl
  | cons entry rest ih =>
      rw [collect, ih, Resource.buildAll_cons, makeResource]
      cases (Resource.build b.context.catalog entry.1 entry.2 pool).1 with
      | error e => rfl
      | ok r =>
          show _ = Except.map (r :: ·) (Resource.buildAll b.context.catalog rest _).1
          cases (Resource.buildAll b.context.catalog rest _).1 <;> rfl

theorem collect_makeEnvironment (b : Build) (entries : Dict Fields) :
    collect b.makeEnvironment entries () =
      Environment.buildAll b.context.catalog b.platform.providers b.modules entries := by
  induction entries with
  | nil => rfl
  | cons entry rest ih =>
      rw [collect, Environment.buildAll, ← ih, makeEnvironment, bind_assoc]

theorem collect_makeAsset (b : Build) (entries : Dict Fields) :
    collect b.makeAsset entries () =
      Asset.buildAll b.context.catalog b.manifest entries := by
  induction entries with
  | nil => rfl
  | cons entry rest ih => rw [collect, Asset.buildAll, ← ih, makeAsset]

/-- The names that resources declared inside modules start from. -/
def modulePool (b : Build) : NamePool := b.poolWith b.context.seed (givenNames b.platform)

/-- The names that the other resources start from. -/
def topLevelPool (b : Build) : NamePool :=
  b.poolWith (b.context.seed + 1) (givenNames b.platform ++ b.moduleResources.map (·.instanceName))

/-- Sorts the resources into modules again and records both. -/
def reassemble : Update Unit := do
  modify fun b => { b with modules := assembled b.platform b.resources }
  modify fun b => { b with manifest := b.manifest.withResources b.resources }
  modify fun b => { b with manifest := b.manifest.withModules b.modules }

def writeModuleResources (made : List Resource) : Update Unit := do
  modify fun b => { b with moduleResources := made }
  reassemble

def writeTopLevelResources (made : List Resource) : Update Unit := do
  modify fun b => { b with topLevelResources := made }
  reassemble

def writeEnvironments (made : List Environment) : Update Unit := do
  modify fun b => { b with environments := made }
  modify fun b => { b with manifest := b.manifest.withEnvironments b.environments }

def writeAssets (made : List Asset) : Update Unit :=
  modify fun b => { b with assets := made }

/-- A phase from its first write to its last. -/
def Phase.inPlace : Phase → Update Unit
  | .modules => do
      let b ← get
      let made ← makeEach makeResource (moduleEntries b.platform) b.modulePool
      writeModuleResources made
  | .resources => do
      let b ← get
      let made ← makeEach makeResource (topLevelEntries b.platform) b.topLevelPool
      writeTopLevelResources made
  | .environments => do
      let b ← get
      let made ← makeEach makeEnvironment b.platform.environments ()
      writeEnvironments made
  | .extraAssets => do
      modify recordAssets
      let b ← get
      let made ← makeEach makeAsset (assetEntries b.platform) ()
      writeAssets made

/-- The phase fails with the first entry of its section that fails. -/
def Fails (b : Build) (e : Failure) : Phase → Prop
  | .modules => Stops b.makeResource (moduleEntries b.platform) b.modulePool e
  | .resources => Stops b.makeResource (topLevelEntries b.platform) b.topLevelPool e
  | .environments => Stops b.makeEnvironment b.platform.environments () e
  | .extraAssets => Stops b.recordAssets.makeAsset (assetEntries b.platform) () e

/-- What a phase has written by the time it makes its first result. -/
def prepared (b : Build) : Phase → Build
  | .modules => b
  | .resources => b
  | .environments => b
  | .extraAssets => b.recordAssets

theorem settle_eq_error_iff {b c : Build} {step : Except Failure Build} {e : Failure} :
    b.settle step = (.error e, c) ↔ step = .error e ∧ c = b := by
  cases step with
  | error d =>
      constructor
      · intro failed
        cases failed
        exact ⟨rfl, rfl⟩
      · rintro ⟨⟨⟩, rfl⟩
        rfl
  | ok next => exact ⟨fun failed => (nomatch failed), fun ⟨failed, _⟩ => nomatch failed⟩

section Written

variable {α β σ : Type} {write : List α → Update Unit} {written : List α → Build} {b : Build}

/-- Results that are written without a failure settle what they were made for. -/
theorem run_makeEach_bind (writes : ∀ made, (write made).run b = (.ok (), written made))
    (make : Build → β → σ → Except Failure α × σ) (entries : List β) (given : σ) :
    (makeEach make entries given >>= write).run b =
      b.settle ((collect (make b) entries given).map written) := by
  rw [ExceptT.run_bind_apply, makeEach_run]
  cases collect (make b) entries given with
  | error e => rfl
  | ok made => exact writes made

theorem run_makeEach_bind_eq_error_iff
    (writes : ∀ made, (write made).run b = (.ok (), written made))
    (make : Build → β → σ → Except Failure α × σ) (entries : List β) (given : σ) {e : Failure}
    {c : Build} :
    (makeEach make entries given >>= write).run b = (.error e, c) ↔
      Stops (make b) entries given e ∧ c = b := by
  rw [run_makeEach_bind writes, settle_eq_error_iff, Except.map_eq_error_iff,
    collect_eq_error_iff]

end Written

theorem writeModuleResources_run (b : Build) (made : List Resource) :
    (writeModuleResources made).run b =
      (.ok (), { b with moduleResources := made }.assemble) := rfl

theorem writeTopLevelResources_run (b : Build) (made : List Resource) :
    (writeTopLevelResources made).run b =
      (.ok (), { b with topLevelResources := made }.assemble) := rfl

theorem writeEnvironments_run (b : Build) (made : List Environment) :
    (writeEnvironments made).run b =
      (.ok (), { b with environments := made, manifest := b.manifest.withEnvironments made }) := rfl

theorem writeAssets_run (b : Build) (made : List Asset) :
    (writeAssets made).run b = (.ok (), { b with assets := made }) := rfl

/-- Carried out in place, a phase ends as it does at once. -/
theorem run_inPlace (b : Build) (phase : Phase) : phase.inPlace.run b = b.run phase := by
  cases phase with
  | modules =>
      have step := run_makeEach_bind (writeModuleResources_run b) makeResource
        (moduleEntries b.platform) b.modulePool
      rw [collect_makeResource] at step
      exact step
  | resources =>
      have step := run_makeEach_bind (writeTopLevelResources_run b) makeResource
        (topLevelEntries b.platform) b.topLevelPool
      rw [collect_makeResource] at step
      exact step
  | environments =>
      have step := run_makeEach_bind (writeEnvironments_run b) makeEnvironment
        b.platform.environments ()
      rw [collect_makeEnvironment] at step
      exact step
  | extraAssets =>
      have step := run_makeEach_bind (writeAssets_run b.recordAssets) makeAsset
        (assetEntries b.platform) ()
      rw [collect_makeAsset] at step
      exact step

/-- A phase fails with the first entry that does, and leaves what it had written before any entry. -/
theorem inPlace_eq_error_iff {b c : Build} {phase : Phase} {e : Failure} :
    phase.inPlace.run b = (.error e, c) ↔ b.Fails e phase ∧ c = b.prepared phase := by
  cases phase with
  | modules => exact run_makeEach_bind_eq_error_iff (writeModuleResources_run b) makeResource _ _
  | resources => exact run_makeEach_bind_eq_error_iff (writeTopLevelResources_run b) makeResource _ _
  | environments => exact run_makeEach_bind_eq_error_iff (writeEnvironments_run b) makeEnvironment _ _
  | extraAssets =>
      exact run_makeEach_bind_eq_error_iff (writeAssets_run b.recordAssets) makeAsset _ _

/-- A phase that builds resources or environments is all or nothing. It fails with the first entry that
cannot be built, whatever is wrong with it, and leaves the whole run as it was, also where it writes one
part of the run after the other. -/
theorem unchanged_of_failed (b : Build) {phase : Phase} (other : phase ≠ .extraAssets) :
    phase.inPlace.run b = b.run phase ∧
      ∀ e c, phase.inPlace.run b = (.error e, c) ↔ b.Fails e phase ∧ c = b := by
  have prepared : b.prepared phase = b := by
    cases phase with
    | extraAssets => exact absurd rfl other
    | _ => rfl
  refine ⟨run_inPlace b phase, fun e c => ?_⟩
  rw [inPlace_eq_error_iff, prepared]

namespace Sample

/-- The second resource outside of modules asks for a module that cannot be a directory. -/
def misplaced : Platform :=
  { platform with
    resources := platform.resources ++ [⟨"bucket", [("_module", .string "a/b")]⟩] }

/-- The modules are there already. -/
def halfway : Build := (ofPlatform misplaced "out" (context 0) "now").after [.modules]

end Sample

theorem unchanged_of_failed_misplaced :
    (Sample.halfway.modules.map (·.name) = ["storage"] ∧
      (Phase.resources.inPlace.run Sample.halfway).1 =
        .error (.configuration (.resource "bucket") .badName)) ∧
    (Phase.resources.inPlace.run Sample.halfway).2 = Sample.halfway := by
  have failed : (Phase.resources.inPlace.run Sample.halfway).1 =
      .error (.configuration (.resource "bucket") .badName) := by
    decide +kernel
  have other : Phase.resources ≠ .extraAssets := by decide
  have keeps := (unchanged_of_failed Sample.halfway other).2
  exact ⟨⟨by decide +kernel, failed⟩, ((keeps _ _).mp (Prod.ext failed rfl)).2⟩

end Groundwork.Build
