import Groundwork.Command.Create
import Groundwork.Proofs.Change
import Groundwork.Proofs.Run

set_option autoImplicit false

/- How a command ends. Its steps are taken in order up to the first that fails; the cause of that
failure decides the exit code, and the formatter decides nothing. Steps that write fail only for
reasons of the file system, or if the manifest has no text, which the YAML writer of the libraries
answers for. So a mistake in the configuration or in a template is found before anything is
written. -/
namespace Groundwork

namespace Disk.Change

variable {ε δ α β : Type}

/-- However far a change gets, it fails for such a reason only. -/
def FailsOnly (P : ε → Prop) (c : Change ε α) : Prop :=
  ∀ d, Ends c d (fun _ _ => True) (fun e _ => P e)

variable {P : ε → Prop}

theorem failsOnly_bind {c : Change ε α} {next : α → Change ε β} (first : FailsOnly P c)
    (second : ∀ a, FailsOnly P (next a)) : FailsOnly P (c >>= next) :=
  fun d => ends_bind ((first d).mono (fun a now _ => second a now) fun _ _ => id)

theorem failsOnly_any (c : Change ε α) : FailsOnly (fun _ => True) c :=
  fun d => (ends_run c d).mono (fun _ _ _ => True.intro) fun _ _ _ => True.intro

theorem failsOnly_adapt {Q : δ → Prop} {c : Change δ α} {f : δ → ε} (first : FailsOnly Q c)
    (each : ∀ e, Q e → P (f e)) : FailsOnly P (c.adapt f) :=
  fun d => ends_adapt ((first d).mono (fun _ _ => id) fun e _ => each e)

theorem failsOnly_get {next : Disk → Change ε α} (each : ∀ d, FailsOnly P (next d)) :
    FailsOnly P (get >>= next) := fun d => ends_get (each d d)

theorem failsOnly_pure (a : α) : FailsOnly P (pure a : Change ε α) := fun _ => ends_pure True.intro

theorem failsOnly_throw_bind {e : ε} (reason : P e) (next : α → Change ε β) :
    FailsOnly P ((throw e : Change ε α) >>= next) := fun _ => ends_bind (ends_throw reason)

theorem failsOnly_forM {each : β → Change ε Unit} {xs : List β}
    (step : ∀ x, FailsOnly P (each x)) : FailsOnly P (xs.forM each) := by
  induction xs with
  | nil => exact failsOnly_pure ()
  | cons x rest ih => exact failsOnly_bind (step x) fun _ => ih

end Disk.Change

namespace Output

open Disk.Change

/-- Something is in the way, or the file system refused. -/
def RefusedByFiles (e : Failure) : Prop :=
  e.category = .destinationConflict ∨ e.category = .io

theorem failsOnly_performing {α : Type} (c : Disk.Change Disk.Fault α) :
    FailsOnly RefusedByFiles (performing c) := failsOnly_adapt (failsOnly_any c) fun _ _ => .inr rfl

theorem failsOnly_createNew (path : String) : FailsOnly RefusedByFiles (createNew path) := by
  refine failsOnly_adapt (failsOnly_any _) fun e _ => ?_
  split
  · exact .inl rfl
  · exact .inr rfl

theorem failsOnly_openDestination (destination : String) :
    FailsOnly RefusedByFiles (openDestination destination) := by
  have above : FailsOnly RefusedByFiles (createAbove destination) := by
    unfold createAbove
    split
    · split
      · exact failsOnly_performing _
      · exact failsOnly_pure ()
    · exact failsOnly_pure ()
  have opened := failsOnly_bind above fun _ => failsOnly_bind (failsOnly_createNew destination)
    fun _ => failsOnly_createNew (Path.join destination modulesDirectory)
  refine failsOnly_get fun d => ?_
  dsimp only
  split
  · exact failsOnly_throw_bind (.inl rfl) _
  · exact opened

theorem failsOnly_writeCode (destination relative mainCode variableCode : String) :
    FailsOnly RefusedByFiles (writeCode destination relative mainCode variableCode) := by
  refine failsOnly_bind (failsOnly_createNew _) fun _ => ?_
  refine failsOnly_bind (failsOnly_performing _) fun _ => ?_
  dsimp only
  split
  · exact failsOnly_bind (failsOnly_performing _) fun _ => failsOnly_pure _
  · exact failsOnly_pure _

theorem failsOnly_saveAsset (destination : String) (a : Asset) :
    FailsOnly RefusedByFiles (saveAsset destination a) := by
  cases a with
  | actionRequired rendered =>
      refine failsOnly_get fun d => ?_
      dsimp only
      split
      · exact failsOnly_throw_bind (.inl rfl) _
      · exact failsOnly_performing _
  | staticCopy name source =>
      refine failsOnly_get fun d => ?_
      dsimp only
      split
      · exact failsOnly_throw_bind (.inl rfl) _
      · exact failsOnly_adapt (failsOnly_any _) fun _ _ => .inr rfl

end Output

namespace Build

open Output Disk.Change

theorem failsOnly_save (b : Build) : FailsOnly RefusedByFiles b.save := by
  refine failsOnly_bind (failsOnly_openDestination b.destination) fun _ => ?_
  refine failsOnly_bind (failsOnly_forM fun m =>
    failsOnly_bind (failsOnly_writeCode _ _ _ _) fun _ => failsOnly_pure ()) fun _ => ?_
  refine failsOnly_bind (failsOnly_forM fun e =>
    failsOnly_bind (failsOnly_writeCode _ _ _ _) fun _ => failsOnly_pure ()) fun _ => ?_
  exact failsOnly_forM (failsOnly_saveAsset b.destination)

/-- A manifest that can be written in YAML at all is refused by the files only. -/
theorem failsOnly_saveManifest {b : Build} (writes : b.context.catalog.libraries.WritesFields) :
    FailsOnly RefusedByFiles b.saveManifest := by
  obtain ⟨text, written⟩ := writes b.manifest.entries
  have spelled : b.manifestText = .ok text := Except.mapError_eq_ok_iff.mpr written
  unfold saveManifest
  rw [spelled]
  exact failsOnly_bind (failsOnly_pure text) fun _ =>
    failsOnly_bind (failsOnly_performing _) fun _ => failsOnly_pure _

end Build

namespace Command

open Disk.Change

/-- The steps that a command has to take. -/
def Options.steps (o : Options) : List Step :=
  .load :: (Build.Phase.all.map .phase ++
    .save :: if o.writeManifest then [.manifest] else [])

/-- What one step makes of the run, if it is loaded already, and of the files. -/
inductive Step.Gives (libraries : Libraries) (o : Options) (occasion : Occasion) :
    Step → Option Build × Disk → Except Failure Build × Disk → Prop
  | load (d : Disk) : Gives libraries o occasion .load (none, d)
      (Build.ofFile o.config o.destination (contextOf libraries o d occasion.seed) occasion.time, d)
  | phase (p : Build.Phase) (b : Build) (d : Disk) : Gives libraries o occasion (.phase p) (some b, d)
      ((b.run p).1.map fun _ => (b.run p).2, d)
  | save (b : Build) (d : Disk) : Gives libraries o occasion .save (some b, d)
      ((b.save.run d).1.map fun _ => b, (b.save.run d).2)
  | manifest (b : Build) (d : Disk) : Gives libraries o occasion .manifest (some b, d)
      ((b.saveManifest.run d).1.map fun _ => b, (b.saveManifest.run d).2)

/-- Steps taken one after the other. The first that fails is named and ends them. -/
inductive Runs (libraries : Libraries) (o : Options) (occasion : Occasion) :
    List Step → Option Build × Disk → Except StepFailure Build × Disk → Prop
  | done (b : Build) (d : Disk) : Runs libraries o occasion [] (some b, d) (.ok b, d)
  | fails {step : Step} {rest : List Step} {state : Option Build × Disk} {e : Failure} {now : Disk}
      (failed : step.Gives libraries o occasion state (.error e, now)) :
      Runs libraries o occasion (step :: rest) state (.error ⟨step, e⟩, now)
  | passes {step : Step} {rest : List Step} {state : Option Build × Disk} {b : Build} {now : Disk}
      {result : Except StepFailure Build × Disk}
      (passed : step.Gives libraries o occasion state (.ok b, now))
      (more : Runs libraries o occasion rest (some b, now) result) :
      Runs libraries o occasion (step :: rest) state result

variable {libraries : Libraries} {o : Options} {occasion : Occasion}

theorem Step.Gives.unique {step : Step} {state : Option Build × Disk}
    {result other : Except Failure Build × Disk} (first : step.Gives libraries o occasion state result)
    (second : step.Gives libraries o occasion state other) : result = other := by
  cases first <;> cases second <;> rfl

theorem Runs.unique {steps : List Step} {state : Option Build × Disk}
    {result other : Except StepFailure Build × Disk}
    (first : Runs libraries o occasion steps state result)
    (second : Runs libraries o occasion steps state other) : result = other := by
  induction first with
  | done b d =>
      cases second
      rfl
  | fails failed =>
      cases second with
      | fails again =>
          cases failed.unique again
          rfl
      | passes passed more => cases failed.unique passed
  | passes passed more ih =>
      cases second with
      | fails failed => cases failed.unique passed
      | passes again others =>
          cases passed.unique again
          exact ih others

theorem runs_phases {phases : List Build.Phase} {rest : List Step} {b : Build} {d : Disk}
    {result : Except StepFailure Build × Disk}
    (ends : match runPhases b phases with
      | .ok c => Runs libraries o occasion rest (some c, d) result
      | .error f => result = (.error f, d)) :
    Runs libraries o occasion (phases.map .phase ++ rest) (some b, d) result := by
  induction phases generalizing b with
  | nil => exact ends
  | cons p phases ih =>
      have gives : Step.Gives libraries o occasion (.phase p) (some b, d)
        ((b.run p).1.map fun _ => (b.run p).2, d) := .phase p b d
      rw [runPhases] at ends
      rcases ran : b.run p with ⟨e | ⟨⟩, c⟩
      · rw [ran] at ends gives
        subst ends
        exact .fails gives
      · rw [ran] at ends gives
        exact .passes gives (ih ends)

theorem runs_writeResults (b : Build) (d : Disk) :
    Runs libraries o occasion (.save :: if o.writeManifest then [.manifest] else []) (some b, d)
      (((writeResults o b).run d).1.map fun _ => b, ((writeResults o b).run d).2) := by
  have saves : Step.Gives libraries o occasion .save (some b, d)
    ((b.save.run d).1.map fun _ => b, (b.save.run d).2) := .save b d
  unfold writeResults
  rw [run_bind, run_adapt]
  rcases saved : b.save.run d with ⟨e | ⟨⟩, now⟩
  · rw [saved] at saves
    exact .fails saves
  · rw [saved] at saves
    refine .passes saves ?_
    dsimp only [Except.mapError]
    split
    · have writes : Step.Gives libraries o occasion .manifest (some b, now)
        ((b.saveManifest.run now).1.map fun _ => b, (b.saveManifest.run now).2) := .manifest b now
      rw [run_bind, run_adapt]
      rcases written : b.saveManifest.run now with ⟨e | path, after⟩
      · rw [written] at writes
        exact .fails writes
      · rw [written] at writes
        exact .passes writes (.done b after)
    · exact .done b now

/-- How a command ends that comes to this result. -/
def ending (finish : Finish) (o : Options) : Except StepFailure Build × Disk → Report × Disk
  | (.error f, now) => (failureReport f, now)
  | (.ok b, now) => (successReport o b (finish b now).1, (finish b now).2)

theorem exists_runs (libraries : Libraries) (finish : Finish) (o : Options) (occasion : Occasion)
    (d : Disk) :
    ∃ result, Runs libraries o occasion o.steps (none, d) result ∧
      createWith libraries finish o occasion d = ending finish o result := by
  have loads : Step.Gives libraries o occasion .load (none, d)
    (Build.ofFile o.config o.destination (contextOf libraries o d occasion.seed) occasion.time, d) :=
      .load d
  unfold createWith prepare Options.steps
  rcases loaded : Build.ofFile o.config o.destination (contextOf libraries o d occasion.seed)
    occasion.time with e | b
  · rw [loaded] at loads
    exact ⟨_, .fails loads, rfl⟩
  · rw [loaded] at loads
    have prepared : (atStep .load (.ok b) >>= fun b => runPhases b Build.Phase.all) =
        runPhases b Build.Phase.all := rfl
    rw [prepared]
    rcases ran : runPhases b Build.Phase.all with f | c
    · refine ⟨(.error f, d), .passes loads (runs_phases ?_), rfl⟩
      rw [ran]
    · let wrote := (writeResults o c).run d
      refine ⟨(wrote.1.map fun _ => c, wrote.2), .passes loads (runs_phases ?_), ?_⟩
      · rw [ran]
        exact runs_writeResults c d
      · dsimp only [wrote]
        rcases (writeResults o c).run d with ⟨f | ⟨⟩, now⟩ <;> rfl

/-- Writing results fails for no fault of the configuration or of a template. -/
theorem failsOnly_writeResults (o : Options) {b : Build}
    (writes : b.context.catalog.libraries.WritesFields) :
    FailsOnly (fun f : StepFailure => Output.RefusedByFiles f.cause) (writeResults o b) := by
  refine failsOnly_bind (failsOnly_adapt b.failsOnly_save fun _ => id) fun _ => ?_
  split
  · exact failsOnly_bind (failsOnly_adapt (Build.failsOnly_saveManifest writes) fun _ => id)
      fun _ => failsOnly_pure ()
  · exact failsOnly_pure ()

theorem context_runPhases {b c : Build} {phases : List Build.Phase}
    (success : runPhases b phases = .ok c) : c.context = b.context := by
  induction phases generalizing b with
  | nil =>
      cases success
      rfl
  | cons p rest ih =>
      have kept := (Build.keeps_run b p).context
      rw [runPhases] at success
      rcases ran : b.run p with ⟨e | ⟨⟩, next⟩
      · rw [ran] at success
        cases success
      · rw [ran] at success kept
        exact (ih success).trans kept

/-- What is written is written with the libraries that it was built with. -/
theorem libraries_of_prepare {d : Disk} {b : Build}
    (prepared : prepare libraries o d occasion = .ok b) :
    b.context.catalog.libraries = libraries := by
  obtain ⟨start, loaded, ran⟩ := Except.bind_eq_ok_iff.mp prepared
  obtain ⟨raw, -, read⟩ := Except.bind_eq_ok_iff.mp (Except.mapError_eq_ok_iff.mp loaded)
  obtain ⟨platform, -, rfl⟩ := Except.bind_pure_eq_ok_iff.mp read
  rw [context_runPhases ran]
  rfl

theorem exitCode_of_refused {f : StepFailure} (refused : Output.RefusedByFiles f.cause) :
    f.exitCode = 5 ∨ f.exitCode = 1 := by
  unfold StepFailure.exitCode
  rcases refused with conflict | io
  · rw [conflict]
    exact .inl rfl
  · rw [io]
    exact .inr rfl

/-- A fault of the configuration or of a template is found before anything is written. -/
theorem files_of_early (writes : libraries.WritesFields) (finish : Finish) (o : Options)
    (occasion : Occasion) (d : Disk)
    (early : (createWith libraries finish o occasion d).1.exitCode = 3 ∨
      (createWith libraries finish o occasion d).1.exitCode = 4) :
    (createWith libraries finish o occasion d).2 = d := by
  revert early
  unfold createWith
  rcases prepared : prepare libraries o d occasion with f | b
  · exact fun _ => rfl
  · rw [← libraries_of_prepare prepared] at writes
    have outcome := (failsOnly_writeResults o writes d).outcome
    dsimp only
    revert outcome
    rcases (writeResults o b).run d with ⟨f | ⟨⟩, now⟩
    · intro refused (early : f.exitCode = 3 ∨ f.exitCode = 4)
      have code := exitCode_of_refused refused
      omega
    · intro _ (early : 0 = 3 ∨ 0 = 4)
      omega

/-- The exit code that each category of failure has. -/
inductive HasCode : Category → Nat → Prop
  | configuration : HasCode .configuration 3
  | template : HasCode .template 4
  | destinationConflict : HasCode .destinationConflict 5
  | io : HasCode .io 1

theorem hasCode_exitCode (f : StepFailure) : HasCode f.cause.category f.exitCode := by
  unfold StepFailure.exitCode
  cases f.cause.category with
  | configuration => exact .configuration
  | template => exact .template
  | destinationConflict => exact .destinationConflict
  | io => exact .io

theorem HasCode.ne_zero {c : Category} {code : Nat} (has : HasCode c code) : code ≠ 0 := by
  cases has <;> decide

/-- Neither the step nor the larger part that a failure is put down to has a say in the exit code. -/
theorem exitCode_within (f : StepFailure) (step : Step) (entity : Entity) :
    (StepFailure.mk step (f.cause.within entity)).exitCode = f.exitCode :=
  congrArg exitCodeOf (f.cause.category_within entity)

/-- The first step that fails is reported. The category of its failure alone decides the exit code, whatever
the failure is put down to, and the files are left as that step left them. The exit code is zero exactly if
every step succeeds, whatever the formatter does. If the YAML writer does not refuse plain fields, the files
are as they were after a fault of the configuration or of a template. -/
theorem exitCode_createWith (libraries : Libraries) (finish : Finish) (o : Options)
    (occasion : Occasion) (d : Disk) :
    ((createWith libraries finish o occasion d).1.exitCode = 0 ↔
      ∃ b now, Runs libraries o occasion o.steps (none, d) (.ok b, now)) ∧
    ((createWith libraries finish o occasion d).1.exitCode ≠ 0 →
      ∃ f now, Runs libraries o occasion o.steps (none, d) (.error f, now)) ∧
    (∀ f now, Runs libraries o occasion o.steps (none, d) (.error f, now) →
      createWith libraries finish o occasion d = (failureReport f, now) ∧
      HasCode f.cause.category (createWith libraries finish o occasion d).1.exitCode ∧
      ∀ step entity, (StepFailure.mk step (f.cause.within entity)).exitCode =
        (createWith libraries finish o occasion d).1.exitCode) ∧
    (libraries.WritesFields →
      (createWith libraries finish o occasion d).1.exitCode = 3 ∨
        (createWith libraries finish o occasion d).1.exitCode = 4 →
      (createWith libraries finish o occasion d).2 = d) := by
  obtain ⟨result, runs, ends⟩ := exists_runs libraries finish o occasion d
  refine ⟨?_, ?_, ?_, fun writes => files_of_early writes finish o occasion d⟩
  · rw [ends]
    constructor
    · intro zero
      rcases result with ⟨f | b, now⟩
      · exact absurd zero (hasCode_exitCode f).ne_zero
      · exact ⟨b, now, runs⟩
    · rintro ⟨b, now, succeeds⟩
      rw [runs.unique succeeds]
      rfl
  · rw [ends]
    intro nonzero
    rcases result with ⟨f | b, now⟩
    · exact ⟨f, now, runs⟩
    · exact absurd rfl nonzero
  · intro f now fails
    rw [ends, runs.unique fails]
    exact ⟨rfl, hasCode_exitCode f, exitCode_within f⟩

namespace Sample

/-- The template root of a small run, and a configuration file next to it. -/
def described (text : String) : Disk :=
  { Build.Sample.disk with
    entries := Build.Sample.disk.entries ++ [(["platform.yaml"], .file text.toUTF8)] }

def options : Options := ⟨"platform.yaml", "out", true, "root", .sequential, true, true⟩

/-- A formatter that fails, and spoils a file before it does. -/
def spoiling : Finish := fun _ d =>
  (.failed "exit code 1: ", d.put ["out", "dev", "main.tf"] (.file ByteArray.empty))

end Sample

/-- A type without a template is found out early; a failing formatter comes too late to count. -/
theorem exitCode_createWith_unknown :
    ((createWith .own Sample.spoiling Sample.options ⟨0, "now"⟩
        (Sample.described "resources:\n  - queue:\n      fifo: true\n")).1.exitCode = 4 ∧
      (createWith .own Sample.spoiling Sample.options ⟨0, "now"⟩
        (Sample.described "resources:\n  - queue:\n      fifo: true\n")).2 =
        Sample.described "resources:\n  - queue:\n      fifo: true\n") ∧
    ∃ b now, Runs .own Sample.options ⟨0, "now"⟩ Sample.options.steps
      (none, Sample.described "environments:\n  dev:\n") (.ok b, now) := by
  have early : (createWith .own Sample.spoiling Sample.options ⟨0, "now"⟩
      (Sample.described "resources:\n  - queue:\n      fifo: true\n")).1.exitCode = 4 := by
    decide +kernel
  have succeeded : (createWith .own Sample.spoiling Sample.options ⟨0, "now"⟩
      (Sample.described "environments:\n  dev:\n")).1.exitCode = 0 := by
    decide +kernel
  exact ⟨⟨early, (exitCode_createWith _ _ _ _ _).2.2.2 Libraries.writesFields_own (.inr early)⟩,
    (exitCode_createWith _ _ _ _ _).1.mp succeeded⟩

end Command

end Groundwork
