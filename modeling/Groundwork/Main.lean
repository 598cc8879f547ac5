import Groundwork.Command.Create
import Std.Time.DateTime
import Std.Time.Format

set_option autoImplicit false

/- The program. It takes notes of the part of the file system that a run can look at, answers the
request on those notes alone, and then carries out what the answer adds to them. -/
namespace Groundwork.Program

open Command

/-- Notes the directory or file at a location, if there is one. -/
def noteEntry (d : Disk) (l : Location) : IO Disk := do
  let place := (← IO.currentDir) / Path.ofNames true l
  if l.isEmpty then return d
  else if ← place.isDir then return d.put l .directory
  else if ← place.pathExists then return d.put l (.file (← IO.FS.readBinFile place))
  else return d

/-- Notes every step of a walk. -/
def noteWalk (d : Disk) (l : Location) : List String → IO Disk
  | [] => return d
  | "." :: rest => noteWalk d l rest
  | ".." :: rest => noteWalk d l.dropLast rest
  | name :: rest => do noteWalk (← noteEntry d (l ++ [name])) (l ++ [name]) rest

def notePath (d : Disk) (path : String) : IO Disk :=
  noteWalk d (if Path.isAbsolute path then [] else d.workingDirectory) (Path.names path)

/-- Notes what is below a directory, each directory before its content. -/
partial def noteBelow (d : Disk) (l : Location) : IO Disk := do
  let place := (← IO.currentDir) / Path.ofNames true l
  (← place.readDir).foldlM (fun d item => do
    let inner := l ++ [item.fileName]
    let d ← noteEntry d inner
    if d.entry? inner matches some .directory then noteBelow d inner else return d) d

def noteTree (d : Disk) (path : String) : IO Disk := do
  let d ← notePath d path
  match d.spot path with
  | .ok (.directory l) => noteBelow d l
  | _ => return d

/-- The paths that a run with these options reads whole. -/
def treesOf (o : Options) : List String :=
  [Catalog.templatesDirectory, Catalog.defaultsDirectory, Catalog.assetsDirectory].map
    (Path.join o.templatesRoot)

def noteFor (r : Request) : IO Disk := do
  let here := (← IO.currentDir).toString
  let blank : Disk := ⟨Path.names here, []⟩
  match r with
  | .create o =>
      let d ← [o.config, o.destination].foldlM notePath blank
      (treesOf o).foldlM noteTree d
  | _ => return blank

def occasion : IO Occasion := do
  let seed := (← IO.getRandomBytes 8).toList.foldl (fun n b => n * 256 + b.toNat) 0
  let instant ← Std.Time.Timestamp.now
  let clock := Std.Time.PlainDateTime.ofWallTime (instant.toWallTime .zero)
  return ⟨seed, clock.format "uuuu-MM-dd" ++ "T" ++ clock.format "HH:mm:ss.SSSSSSSSS" ++ "Z"⟩

/-- The entries of the second disk that the first one lacks, in the order of their making. -/
def additions (before after : Disk) : List (Location × Entry) :=
  after.entries.filter fun e => (before.entry? e.1).isNone

def add : Location × Entry → IO Unit
  | (l, .directory) => IO.FS.createDir (Path.ofNames true l)
  | (l, .file content) => IO.FS.writeBinFile (Path.ofNames true l) content

def usage : String := "\n".intercalate [
  "Usage: dataride [OPTIONS] create [OPTIONS] --config <PATH> --destination <PATH>",
  "",
  "Generates Terraform modules, environments and onboarding documents from YAML.",
  "",
  "  -c, --config <PATH>          the YAML config file",
  "  -d, --destination <PATH>     the directory to generate into, which must not exist",
  "      --fmt <true|false>       whether to format the generated code (true)",
  "      --templates-root <PATH>  where the templates are (DATARIDE_TEMPLATES, or .)",
  "      --naming <HOW>           random or sequential names (random)",
  "      --write-manifest         also write manifest.yaml",
  "  -v, --verbose | -q, --quiet  more output, or less",
  "  -h, --help | -V, --version"]

/-- What is wrong with the store of templates; it does not stop a run. -/
def warnings (r : Request) (d : Disk) : List String :=
  match r with
  | .create o => if o.quiet then [] else (Catalog.mk d o.templatesRoot .own).complaints
  | _ => []

def say (r : Request) (report : Report) : IO Unit := do
  if r = .usageError then IO.eprintln usage
  IO.print (report.output.getD (usage ++ "\n"))
  match report.error with
  | some text => IO.eprintln text
  | none => return

def answer (r : Request) : IO UInt32 := do
  let before ← noteFor r
  (warnings r before).forM fun text => IO.eprintln ("WARN " ++ text)
  let (report, after) := perform r (← occasion) before
  (additions before after).forM add
  say r report
  return report.exitCode.toUInt32

end Groundwork.Program

/-- Runs the program; a failure of the file system that the notes did not foresee is a general
error. -/
def main (args : List String) : IO UInt32 := do
  let root ← IO.getEnv "DATARIDE_TEMPLATES"
  tryCatch (Groundwork.Program.answer (.ofArguments ⟨root⟩ args)) fun e => do
    IO.eprintln ("❌ Error: " ++ toString e)
    return 1
