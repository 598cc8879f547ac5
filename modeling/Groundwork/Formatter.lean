import Groundwork.Disk
import Groundwork.Text.CodePoints

set_option autoImplicit false

/- Formatting of generated code by an external program. It is asked for only where there is
something to format, and a formatter that is missing or fails does not fail the run. -/
namespace Groundwork

/-- What a program answered. -/
structure Execution where
  output : String
  exitCode : Nat

inductive Formatting where
  /-- Not wanted, or nothing to format. -/
  | skipped
  | formatted (e : Execution)
  | failed (message : String)

structure Formatter where
  binary : String

namespace Formatter

def codeExtension : String := "tf"

def arguments (directory : String) : List String :=
  ["fmt", "-recursive", "-list=false", directory]

/-- The programs that every system has, as functions of their arguments. Any other program counts as
not installed. -/
def installed? : String → Option (List String → Execution)
  | "true" => some fun _ => ⟨"", 0⟩
  | "false" => some fun _ => ⟨"", 1⟩
  | "echo" => some fun args => ⟨" ".intercalate args ++ "\n", 0⟩
  | _ => none

def fileName? : Location × Entry → Option String
  | (l, .file _) => l.getLast?
  | (_, .directory) => none

/-- The names of the files at a path or below it. -/
def fileNames (d : Disk) (path : String) : List String :=
  match d.spot path with
  | .ok (.directory l) => (d.below l).filterMap fileName?
  | .ok (.file l _) => l.getLast?.toList
  | _ => []

def codeFiles (d : Disk) (path : String) : List String :=
  (fileNames d path).filter (Path.hasExtension codeExtension)

def run (f : Formatter) (d : Disk) (directory : String) : Formatting :=
  if (codeFiles d directory).isEmpty then .skipped
  else match installed? f.binary with
    | none => .failed (f.binary ++ ": " ++ Disk.Fault.message .notFound)
    | some program =>
        let e := program (arguments directory)
        if e.exitCode = 0 then .formatted e
        else .failed ("exit code " ++ toString e.exitCode ++ ": " ++ Text.trim e.output)

end Formatter

namespace Formatting

def isFailure : Formatting → Bool
  | .failed _ => true
  | _ => false

/-- How a report says what happened. -/
def summary : Formatting → String
  | .skipped => "not formatted"
  | .formatted _ => "formatted"
  | .failed _ => "formatting failed"

end Formatting

end Groundwork
