import Groundwork.Asset

set_option autoImplicit false

/- Writing generated code. Every target is created exclusively: what is there already is a conflict,
and what was written before a failure stays. -/
namespace Groundwork.Output

abbrev Writing := Disk.Change Failure

def modulesDirectory : String := "modules"

def mainFile : String := "main.tf"

def variablesFile : String := "var.tf"

/-- A disk operation whose failure is one of input and output. -/
def performing {α : Type} (c : Disk.Change Disk.Fault α) : Writing α := c.adapt .io

def createNew (path : String) : Writing Unit :=
  (Disk.createDirectory path).adapt fun e =>
    if e = .alreadyExists then .destinationConflict path else .io e

/-- Creates the directories above the destination that are missing. -/
def createAbove (destination : String) : Writing Unit :=
  match Path.parent? destination with
  | some parent => if parent ≠ "" then performing (Disk.createAll parent) else return
  | none => return

/-- Creates the destination, with the directories above it, and its directory of modules. -/
def openDestination (destination : String) : Writing Unit := do
  if (← get).existsAt destination then throw (.destinationConflict destination)
  createAbove destination
  createNew destination
  createNew (Path.join destination modulesDirectory)

/-- Writes code, and declarations unless there are none, into a new directory. -/
def writeCode (destination relative mainCode variableCode : String) : Writing String := do
  let dir := Path.join destination relative
  createNew dir
  performing (Disk.writeFile (Path.join dir mainFile) mainCode)
  if variableCode ≠ "" then
    performing (Disk.writeFile (Path.join dir variablesFile) variableCode)
  return dir

def saveModule (destination : String) (m : Module) : Writing Unit := do
  let _ ← writeCode destination (Path.join modulesDirectory m.name) m.mainCode m.variableCode

def saveEnvironment (destination : String) (e : Environment) : Writing Unit := do
  let _ ← writeCode destination e.name e.mainCode e.variableCode

def saveAsset (destination : String) (a : Asset) : Writing Unit := do
  match a with
  | .actionRequired rendered =>
      let path := Path.join destination Asset.actionRequiredFile
      if (← get).existsAt path then throw (.destinationConflict path)
      performing (Disk.writeFile path rendered)
  | .staticCopy name source =>
      let target := Path.join destination name
      if (← get).existsAt target then throw (.destinationConflict target)
      (Disk.copyTree source target).adapt .assetCopy

end Groundwork.Output
