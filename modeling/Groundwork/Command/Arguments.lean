import Groundwork.NamePool

set_option autoImplicit false

/- The command line. Arguments are read from left to right; asking for help or for the version ends
the reading at once, and so does a mistake. -/
namespace Groundwork.Command

/-- What `create` is asked to do. -/
structure Options where
  config : String
  destination : String
  format : Bool
  templatesRoot : String
  naming : Naming
  writeManifest : Bool
  quiet : Bool
deriving DecidableEq

inductive Request where
  | help
  | version (text : String)
  | create (options : Options)
  | usageError
deriving DecidableEq

/-- The options that stand in front of a command and behind it. -/
structure Volume where
  verbose : Bool
  quiet : Bool

namespace Volume

def none : Volume := ⟨false, false⟩

/-- Each may be given once, and not both together. -/
def conflicts (v : Volume) : Bool := v.verbose && v.quiet

end Volume

/-- The options of `create` as they were given. -/
structure Given where
  volume : Volume
  config : Option String
  destination : Option String
  format : Option String
  templatesRoot : Option String
  naming : Option String
  writeManifest : Bool

def Given.nothing : Given := ⟨.none, none, none, none, none, none, false⟩

/-- An option, whichever way it is written. -/
inductive Flag where
  | verbose
  | quiet
  | help
  | version
  | writeManifest
  | config
  | destination
  | format
  | templatesRoot
  | naming
deriving DecidableEq

namespace Flag

def long? : String → Option Flag
  | "verbose" => some .verbose
  | "quiet" => some .quiet
  | "help" => some .help
  | "version" => some .version
  | "write-manifest" => some .writeManifest
  | "config" => some .config
  | "destination" => some .destination
  | "fmt" => some .format
  | "templates-root" => some .templatesRoot
  | "naming" => some .naming
  | _ => none

def short? : Char → Option Flag
  | 'v' => some .verbose
  | 'q' => some .quiet
  | 'h' => some .help
  | 'V' => some .version
  | 'c' => some .config
  | 'd' => some .destination
  | _ => none

def takesValue : Flag → Bool
  | .config | .destination | .format | .templatesRoot | .naming => true
  | _ => false

/-- Whether the option may stand in front of the command. -/
def isGlobal : Flag → Bool
  | .verbose | .quiet | .help | .version => true
  | _ => false

end Flag

/-- One option as it is written: its flag and the value in the same argument, if any. -/
structure Written where
  flag : Flag
  value : Option String

/-- The options in a group of short ones such as `-vc file`. -/
def shortGroup? : List Char → Option (List Written)
  | [] => some []
  | c :: rest => do
      let flag ← Flag.short? c
      if flag.takesValue then
        match rest with
        | [] => some [⟨flag, none⟩]
        | '=' :: value => some [⟨flag, some (String.ofList value)⟩]
        | value => some [⟨flag, some (String.ofList value)⟩]
      else
        let more ← shortGroup? rest
        some (⟨flag, none⟩ :: more)

inductive Argument where
  | options (ws : List Written)
  | word (s : String)
  /-- A double dash: no options follow. -/
  | endOfOptions
  | unknown

def Argument.ofText (s : String) : Argument :=
  match s.toList with
  | '-' :: '-' :: [] => .endOfOptions
  | '-' :: '-' :: name =>
      let (key, rest) := (name.takeWhile (· ≠ '='), name.dropWhile (· ≠ '='))
      match Flag.long? (String.ofList key), rest with
      | none, _ => .unknown
      | some flag, [] => .options [⟨flag, none⟩]
      | some flag, _ :: value =>
          if flag.takesValue then .options [⟨flag, some (String.ofList value)⟩] else .unknown
  | '-' :: c :: rest =>
      match shortGroup? (c :: rest) with
      | some ws => .options ws
      | none => .unknown
  | _ => .word s

/-- Why reading stops early. -/
inductive Stop where
  | help
  | version
  | mistake

namespace Given

def setOnce (old : Option String) (value : String) : Except Stop (Option String) :=
  if old.isSome || value = "" then .error .mistake else .ok (some value)

def checked (allowed : List String) (value : String) : Except Stop String :=
  if allowed.contains value then .ok value else .error .mistake

def withValue (g : Given) (flag : Flag) (value : String) : Except Stop Given :=
  match flag with
  | .config => return { g with config := ← setOnce g.config value }
  | .destination => return { g with destination := ← setOnce g.destination value }
  | .format => do
      let value ← checked ["true", "false"] value
      return { g with format := ← setOnce g.format value }
  | .templatesRoot => return { g with templatesRoot := ← setOnce g.templatesRoot value }
  | .naming => do
      let value ← checked ["random", "sequential"] value
      return { g with naming := ← setOnce g.naming value }
  | _ => .error .mistake

def withFlag (g : Given) (flag : Flag) : Except Stop Given :=
  match flag with
  | .help => .error .help
  | .version => .error .version
  | .verbose =>
      if g.volume.verbose then .error .mistake
      else .ok { g with volume.verbose := true }
  | .quiet =>
      if g.volume.quiet then .error .mistake else .ok { g with volume.quiet := true }
  | .writeManifest =>
      if g.writeManifest then .error .mistake else .ok { g with writeManifest := true }
  | _ => .error .mistake

/-- Takes a group of options in, and answers the one that still waits for its value. -/
def withGroup (allowed : Flag → Bool) (g : Given) :
    List Written → Except Stop (Given × Option Flag)
  | [] => .ok (g, none)
  | w :: rest =>
      if !allowed w.flag then .error .mistake
      else if w.flag.takesValue then
        match w.value with
        | some value => do withGroup allowed (← g.withValue w.flag value) rest
        | none => .ok (g, some w.flag)
      else do withGroup allowed (← g.withFlag w.flag) rest

end Given

/-- A word that may be the value of an option: it does not look like an option itself. -/
def isValue (s : String) : Bool :=
  match s.toList with
  | ['-'] => true
  | '-' :: _ => false
  | _ => true

/-- Reads the arguments behind `create`. -/
def readCreate (g : Given) : List String → Except Stop Given
  | [] => .ok g
  | arg :: rest =>
      match Argument.ofText arg with
      | .options ws => do
          match ← g.withGroup (fun _ => true) ws with
          | (g, none) => readCreate g rest
          | (g, some flag) =>
              match rest with
              | value :: rest =>
                  if isValue value then readCreate (← g.withValue flag value) rest
                  else .error .mistake
              | [] => .error .mistake
      | .endOfOptions => if rest.isEmpty then .ok g else .error .mistake
      | _ => .error .mistake

/-- What surrounds the command line. -/
structure Surroundings where
  /-- The template root that the environment names. -/
  templatesRoot : Option String

namespace Given

/-- Fills in what was not given. -/
def options? (g : Given) (s : Surroundings) (outer : Volume) : Option Options := do
  let root := (g.templatesRoot.orElse fun _ => s.templatesRoot).getD "."
  if root = "" || g.volume.conflicts then none
  let config ← g.config
  let destination ← g.destination
  return {
    config
    destination
    format := g.format ≠ some "false"
    templatesRoot := root
    naming := if g.naming = some "sequential" then .sequential else .random
    writeManifest := g.writeManifest
    quiet := g.volume.quiet || outer.quiet }

end Given

def versionNumber : String := "0.1.0"

def programName : String := "dataride"

/-- Requests for help on a command. -/
def readHelp : List String → Request
  | [] => .help
  | ["create"] => .help
  | ["help"] => .help
  | _ => .usageError

def createRequest (s : Surroundings) (outer : Volume) (args : List String) : Request :=
  match readCreate .nothing args with
  | .error .help => .help
  | .error .version => .version (programName ++ "-create " ++ versionNumber ++ "\n")
  | .error .mistake => .usageError
  | .ok g =>
      match g.options? s outer with
      | some options => if outer.conflicts then .usageError else .create options
      | none => .usageError

/-- Reads the arguments up to the command. -/
def readProgram (s : Surroundings) (g : Given) : List String → Request
  | [] => .usageError
  | arg :: rest =>
      match Argument.ofText arg with
      | .options ws =>
          match g.withGroup Flag.isGlobal ws with
          | .ok (g, _) => readProgram s g rest
          | .error .help => .help
          | .error .version => .version (programName ++ " " ++ versionNumber ++ "\n")
          | .error .mistake => .usageError
      | .word "create" => createRequest s g.volume rest
      | .word "help" => readHelp rest
      | _ => .usageError

def Request.ofArguments (s : Surroundings) (args : List String) : Request :=
  readProgram s .nothing args

end Groundwork.Command
