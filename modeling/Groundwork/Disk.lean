set_option autoImplicit false

/- A file system without links: a finite map from locations to files and directories, and the
working directory that relative paths start from. A path is a text; the names between its slashes
are what a walk through directories follows. An operation that fails leaves behind what it had done
before it failed. -/
namespace Groundwork.Path

def isAbsolute (path : String) : Bool := path.toList.head? = some '/'

/-- An absolute second path replaces the first. -/
def join (base path : String) : String :=
  if isAbsolute path || base = "" then path
  else if base.toList.getLast? = some '/' then base ++ path
  else base ++ "/" ++ path

def joinAll (base : String) (parts : List String) : String := parts.foldl join base

/-- The names between slashes, empty ones left out. -/
def names (path : String) : List String :=
  ((path.toList.splitOn '/').filter (!·.isEmpty)).map String.ofList

/-- A path of these names. -/
def ofNames (absolute : Bool) (parts : List String) : String :=
  (if absolute then "/" else "") ++ "/".intercalate parts

/-- A name `.` says nothing, except at the start of a relative path. -/
def significantNames (path : String) : List String :=
  match names path with
  | "." :: rest =>
      let rest := rest.filter (· ≠ ".")
      if isAbsolute path then rest else "." :: rest
  | parts => parts.filter (· ≠ ".")

/-- The path without its last name, if it has a name. -/
def parent? (path : String) : Option String :=
  let parts := significantNames path
  if parts.isEmpty then none else some (ofNames (isAbsolute path) parts.dropLast)

def dropTrailingSlashes (path : String) : String :=
  String.ofList (path.toList.reverse.dropWhile (· = '/')).reverse

def endsWithSlash (path : String) : Bool := path.toList.getLast? = some '/'

/-- Whether a file name has this extension: the text behind its last dot, which is not its first
character. -/
def hasExtension (extension name : String) : Bool :=
  let suffix := '.' :: extension.toList
  name.toList.length > suffix.length && suffix.isSuffixOf name.toList

end Groundwork.Path

namespace Groundwork.Disk

inductive Fault where
  | notFound
  | alreadyExists
  | notADirectory
  | isADirectory
  | nameTooLong
  | notText
  | nullCharacter
deriving DecidableEq

def Fault.message : Fault → String
  | .notFound => "No such file or directory (os error 2)"
  | .alreadyExists => "File exists (os error 17)"
  | .notADirectory => "Not a directory (os error 20)"
  | .isADirectory => "Is a directory (os error 21)"
  | .nameTooLong => "File name too long (os error 36)"
  | .notText => "stream did not contain valid UTF-8"
  | .nullCharacter => "file name contained an unexpected NUL byte"

end Groundwork.Disk

namespace Groundwork

inductive Entry where
  | directory
  | file (content : ByteArray)

/-- The names on the way from the root directory. -/
abbrev Location := List String

structure Disk where
  workingDirectory : Location
  entries : List (Location × Entry)

namespace Disk

/-- The root directory always exists. -/
def entry? (d : Disk) (l : Location) : Option Entry :=
  if l = [] then some .directory else d.entries.lookup l

def put (d : Disk) (l : Location) (e : Entry) : Disk :=
  { d with entries := (d.entries.filter (·.1 ≠ l)) ++ [(l, e)] }

/-- Removes what is at a location with everything below it. -/
def erase (d : Disk) (l : Location) : Disk :=
  { d with entries := d.entries.filter fun e => !l.isPrefixOf e.1 }

def below (d : Disk) (l : Location) : List (Location × Entry) :=
  (d.entries.filter fun e => l.isPrefixOf e.1 && e.1 ≠ l).map fun e => (e.1.drop l.length, e.2)

/-- What a path leads to. -/
inductive Spot where
  | directory (l : Location)
  | file (l : Location) (content : ByteArray)
  /-- Nothing yet, in an existing directory. -/
  | vacant (l : Location)

def nameLimit : Nat := 255

def pathLimit : Nat := 4095

def walk (d : Disk) : Location → List String → Except Fault Spot
  | l, [] => .ok (.directory l)
  | l, name :: rest =>
      if name = "." then walk d l rest
      else if name = ".." then walk d l.dropLast rest
      else if nameLimit < name.utf8ByteSize then .error .nameTooLong
      else match d.entry? (l ++ [name]) with
        | some .directory => walk d (l ++ [name]) rest
        | some (.file content) =>
            if rest.isEmpty then .ok (.file (l ++ [name]) content) else .error .notADirectory
        | none => if rest.isEmpty then .ok (.vacant (l ++ [name])) else .error .notFound

def spot (d : Disk) (path : String) : Except Fault Spot :=
  if path.toList.contains '\x00' then .error .nullCharacter
  else if path = "" then .error .notFound
  else if pathLimit < path.utf8ByteSize then .error .nameTooLong
  else
    let start := if Path.isAbsolute path then [] else d.workingDirectory
    let trailing := if Path.endsWithSlash path then ["."] else []
    d.walk start (Path.names path ++ trailing)

def isFile (d : Disk) (path : String) : Bool := d.spot path matches .ok (.file ..)

def isDirectory (d : Disk) (path : String) : Bool := d.spot path matches .ok (.directory _)

def existsAt (d : Disk) (path : String) : Bool := d.isFile path || d.isDirectory path

def readText (d : Disk) (path : String) : Except Fault String :=
  match d.spot path with
  | .error e => .error e
  | .ok (.vacant _) => .error .notFound
  | .ok (.directory _) => .error .isADirectory
  | .ok (.file _ content) =>
      match String.fromUTF8? content with
      | some text => .ok text
      | none => .error .notText

/-- A computation that may change the disk, and keeps the change when it fails. -/
abbrev Change (ε α : Type) := ExceptT ε (StateM Disk) α

def createDirectory (path : String) : Change Fault Unit := do
  let d ← get
  match d.spot (Path.dropTrailingSlashes path) with
  | .error e => throw e
  | .ok (.vacant l) => set (d.put l .directory)
  | .ok _ => throw .alreadyExists

/-- Creates a directory and those above it that are missing; the bound counts the names of the
path. -/
def createDirectories : Nat → String → Change Fault Unit
  | 0, _ => return
  | fuel + 1, path => do
      if path = "" then return
      tryCatch (createDirectory path) fun e => do
        if e ≠ .notFound then
          if (← get).isDirectory path then return else throw e
        match Path.parent? path with
        | some parent => createDirectories fuel parent
        | none => throw e
        tryCatch (createDirectory path) fun e => do
          if (← get).isDirectory path then return else throw e

def createAll (path : String) : Change Fault Unit :=
  createDirectories (Path.names path).length path

def writeFile (path text : String) : Change Fault Unit := do
  let d ← get
  match d.spot path with
  | .error e => throw e
  | .ok (.directory _) => throw .isADirectory
  | .ok (.file l _) => set (d.put l (.file text.toUTF8))
  | .ok (.vacant l) => set (d.put l (.file text.toUTF8))

/-- Copies the directory at `source` into the directory `target`, which must not exist yet. -/
def copyTree (source target : String) : Change Fault Unit := do
  let d ← get
  match d.spot source with
  | .error e => throw e
  | .ok (.directory origin) =>
      createDirectory target
      match (← get).spot target with
      | .ok (.directory place) =>
          modify fun now => (d.below origin).foldl (fun acc e => acc.put (place ++ e.1) e.2) now
      | .ok _ => throw .notADirectory
      | .error e => throw e
  | .ok _ => throw .notADirectory

/-- A directory's content by path; a directory has a slash behind its name and no text. -/
structure Listed where
  path : String
  content : Option ByteArray

def listing (d : Disk) (path : String) : List Listed :=
  match d.spot path with
  | .ok (.directory l) =>
      let entries := (d.below l).map fun e =>
        let name := "/".intercalate e.1
        match e.2 with
        | .directory => Listed.mk (name ++ "/") none
        | .file content => Listed.mk name (some content)
      entries.mergeSort fun a b => decide (a.path ≤ b.path)
  | _ => []

end Disk

end Groundwork
