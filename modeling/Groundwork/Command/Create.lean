import Groundwork.Build
import Groundwork.Command.Arguments
import Groundwork.Settings

set_option autoImplicit false

/- The command that generates code from a configuration file. Its steps are loading, the four
phases, saving and, where it is wanted, writing the manifest; the first that fails ends the run and
decides the exit code. Formatting comes last and decides nothing. -/
namespace Groundwork.Command

/-- What a command leaves behind besides the files. Help has no text of its own here. -/
structure Report where
  exitCode : Nat
  output : Option String
  error : Option String
deriving DecidableEq

inductive Step where
  | load
  | phase (p : Build.Phase)
  | save
  | manifest
deriving DecidableEq

def Step.context : Step → String
  | .load => "Failed to load infrastructure config"
  | .phase .modules => "Failed to process modules"
  | .phase .resources => "Failed to process resources"
  | .phase .environments => "Failed to process environments"
  | .phase .extraAssets => "Failed to process extra assets"
  | .save => "Failed to save infrastructure code"
  | .manifest => "Failed to write manifest"

structure StepFailure where
  step : Step
  cause : Failure
deriving DecidableEq

def exitCodeOf : Category → Nat
  | .configuration => 3
  | .template => 4
  | .destinationConflict => 5
  | .io => 1

namespace StepFailure

def exitCode (f : StepFailure) : Nat := exitCodeOf f.cause.category

/-- What the file system or a serialiser said is told once more behind the message that contains
it. -/
def causeText : Failure → String
  | .assetCopy e => Failure.message (.assetCopy e) ++ ": " ++ e.message
  | .io e => Failure.message (.io e) ++ ": " ++ e.message
  | .yaml e => Failure.message (.yaml e) ++ ": " ++ e.message
  | .json e => Failure.message (.json e) ++ ": " ++ e.message
  | f => f.message

def message (f : StepFailure) : String :=
  "❌ Error: " ++ f.step.context ++ ": " ++ causeText f.cause

end StepFailure

def atStep {α : Type} (step : Step) (r : Except Failure α) : Except StepFailure α :=
  r.mapError fun e => ⟨step, e⟩

/-- The seed of random names and the time of the run. -/
structure Occasion where
  seed : Nat
  time : String

def contextOf (libraries : Libraries) (o : Options) (d : Disk) (seed : Nat) : Context where
  catalog := ⟨d, o.templatesRoot, libraries⟩
  naming := o.naming
  seed
  formatter := ⟨Settings.terraform⟩

/-- Runs phases in order, naming the one that fails. -/
def runPhases (b : Build) : List Build.Phase → Except StepFailure Build
  | [] => .ok b
  | p :: rest =>
      match b.run p with
      | (.ok (), b) => runPhases b rest
      | (.error e, _) => .error ⟨.phase p, e⟩

/-- Everything that happens before the disk is changed. -/
def prepare (libraries : Libraries) (o : Options) (d : Disk) (occasion : Occasion) :
    Except StepFailure Build := do
  let b ← atStep .load
    (Build.ofFile o.config o.destination (contextOf libraries o d occasion.seed) occasion.time)
  runPhases b Build.Phase.all

def writeResults (o : Options) (b : Build) : Disk.Change StepFailure Unit := do
  b.save.adapt fun e => ⟨.save, e⟩
  if o.writeManifest then
    let _ ← b.saveManifest.adapt fun e => (⟨.manifest, e⟩ : StepFailure)

def successText (b : Build) (f : Formatting) : String :=
  "✅ Infrastructure generated successfully!\n\nLocation: " ++ Text.quotedPath b.destination ++
    "\nModules: " ++ toString b.modules.length ++
    ", resources: " ++ toString b.resources.length ++
    ", environments: " ++ toString b.environments.length ++
    ", extra assets: " ++ toString b.assets.length ++ " (" ++ f.summary ++
    ")\n\nNext steps:\n  Read " ++
    Text.quotedPath (Path.join b.destination Asset.actionRequiredFile) ++ "\n"

def failureReport (f : StepFailure) : Report := ⟨f.exitCode, some "", some f.message⟩

def successReport (o : Options) (b : Build) (f : Formatting) : Report :=
  ⟨0, some (if o.quiet then "" else successText b f), none⟩

/-- What happens to saved code in the end: what the formatter answers, and the files as it leaves
them. -/
abbrev Finish := Build → Disk → Formatting × Disk

/-- Asks the run's own formatter, if that is wanted. The programs known here change no files. -/
def askFormatter (o : Options) : Finish := fun b d => (b.format d o.format, d)

/-- The command over any libraries and any formatter. -/
def createWith (libraries : Libraries) (finish : Finish) (o : Options) (occasion : Occasion)
    (d : Disk) : Report × Disk :=
  match prepare libraries o d occasion with
  | .error f => (failureReport f, d)
  | .ok b =>
      match (writeResults o b).run d with
      | (.error f, d) => (failureReport f, d)
      | (.ok (), d) =>
          let (formatting, d) := finish b d
          (successReport o b formatting, d)

def create (o : Options) (occasion : Occasion) (d : Disk) : Report × Disk :=
  createWith .own (askFormatter o) o occasion d

/-- Answers a request. -/
def perform (r : Request) (occasion : Occasion) (d : Disk) : Report × Disk :=
  match r with
  | .help => (⟨0, none, none⟩, d)
  | .version text => (⟨0, some text, none⟩, d)
  | .usageError => (⟨2, some "", none⟩, d)
  | .create o => create o occasion d

end Groundwork.Command
