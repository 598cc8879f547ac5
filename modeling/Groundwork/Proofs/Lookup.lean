import Groundwork.Proofs.Variable
import Groundwork.Proofs.Walk

set_option autoImplicit false

/- Lookups in a template root. A catalog looks up paths that lead from its root down one of its
three directories, since every name that comes from a configuration is checked before it becomes a
part of a path. So two file systems that have the same below these directories answer every lookup
alike. -/
namespace Groundwork

namespace Path

theorem Below.joinAll {base path : String} {steps names : List String}
    (below : Below base path steps) (singles : ∀ name ∈ names, Single name) :
    Below base (Path.joinAll path names) (steps ++ names) := by
  induction names generalizing path steps with
  | nil =>
      rw [List.append_nil]
      exact below
  | cons name rest ih =>
      rw [List.forall_mem_cons] at singles
      rw [List.append_cons]
      exact ih (below.join singles.1.below) singles.2

/-- Joining names one after the other leads down these steps. -/
theorem below_joinAll (base : String) {name : String} {rest : List String}
    (singles : ∀ step ∈ name :: rest, Single step) :
    Below base (Path.joinAll base (name :: rest)) (name :: rest) := by
  rw [List.forall_mem_cons] at singles
  exact (singles.1.below.base base).joinAll singles.2

end Path

/-- The directories of a template root. -/
def Catalog.directories : List String := [templatesDirectory, defaultsDirectory, assetsDirectory]

theorem Catalog.single_directory : ∀ dir ∈ directories, Path.Single dir := by
  have plain : ∀ dir ∈ directories, isPlainName dir = true := by decide
  exact fun dir known => Path.single_of_plain (plain dir known)

namespace Disk

/-- What stands at a path, if anything does. -/
def at? (d : Disk) (path : String) : Option Entry :=
  match d.spot path with
  | .ok s => s.standing?
  | .error _ => none

variable {d other : Disk} {path : String}

theorem isFile_iff : d.isFile path = true ↔ ∃ content, d.at? path = some (.file content) := by
  unfold isFile at?
  cases d.spot path with
  | error e => simp
  | ok s => cases s <;> simp [Spot.standing?]

theorem isDirectory_iff : d.isDirectory path = true ↔ d.at? path = some .directory := by
  unfold isDirectory at?
  cases d.spot path with
  | error e => simp
  | ok s => cases s <;> simp [Spot.standing?]

theorem readText_of_file {content : ByteArray} (stands : d.at? path = some (.file content)) :
    d.readText path = match String.fromUTF8? content with
      | some text => .ok text
      | none => .error .notText := by
  unfold at? at stands
  unfold readText
  cases found : d.spot path with
  | error e =>
      rw [found] at stands
      cases stands
  | ok s =>
      rw [found] at stands
      cases s with
      | directory l => cases stands
      | file l text =>
          cases stands
          rfl
      | vacant l => cases stands

/-- A text that was written in its bytes is read again. -/
theorem readText_of_text {text : String} (stands : d.at? path = some (.file text.toUTF8)) :
    d.readText path = .ok text := by
  have valid : String.fromUTF8? text.toUTF8 = some text := dif_pos text.isValidUTF8
  rw [readText_of_file stands, valid]

theorem isFile_congr (same : other.at? path = d.at? path) : other.isFile path = d.isFile path := by
  rw [Bool.eq_iff_iff, isFile_iff, isFile_iff, same]

theorem isDirectory_congr (same : other.at? path = d.at? path) :
    other.isDirectory path = d.isDirectory path := by
  rw [Bool.eq_iff_iff, isDirectory_iff, isDirectory_iff, same]

theorem readText_congr (same : other.at? path = d.at? path) (file : d.isFile path = true) :
    other.readText path = d.readText path := by
  obtain ⟨content, stands⟩ := isFile_iff.mp file
  rw [readText_of_file stands, readText_of_file (same.trans stands)]

/-- What the names of a path lead to stands at the path. -/
theorem at?_of_walk (ends : Path.endsWithSlash path = false)
    (valid : '\x00' ∉ path.toList ∧ path ≠ "" ∧ path.utf8ByteSize ≤ pathLimit) {s : Spot}
    (found : d.walk (d.origin path) (Path.names path) = .ok s) : d.at? path = s.standing? := by
  unfold at?
  rw [(spot_eq_ok_iff ends).mpr ⟨valid, found⟩]

/-- The same stands at all paths that lead from a root down one of a catalog's directories. -/
def SameBelow (root : String) (d other : Disk) : Prop :=
  ∀ dir ∈ Catalog.directories, ∀ names : List String, names ≠ [] →
    (∀ name ∈ names, Path.Single name) →
      other.at? (Path.joinAll root (dir :: names)) = d.at? (Path.joinAll root (dir :: names))

/-- Steps down look up nothing but what stands on the way. A step up would look up entries that the
steps themselves do not name. -/
theorem walk_congr {l : Location} {names : List String}
    (singles : ∀ name ∈ names, Path.Single name)
    (same : ∀ more ≠ [], more <+: names → other.entry? (l ++ more) = d.entry? (l ++ more)) :
    other.walk l names = d.walk l names := by
  induction names generalizing l with
  | nil => rfl
  | cons name rest ih =>
      have single := singles name List.mem_cons_self
      have here : other.entry? (l ++ [name]) = d.entry? (l ++ [name]) :=
        same [name] (List.cons_ne_nil name []) (List.prefix_append [name] rest)
      have further : other.walk (l ++ [name]) rest = d.walk (l ++ [name]) rest := by
        refine ih (fun next member => singles next (List.mem_cons_of_mem name member)) ?_
        intro more _ before
        rw [← List.append_cons]
        exact same (name :: more) (List.cons_ne_nil name more)
          (List.cons_prefix_cons.mpr ⟨rfl, before⟩)
      rw [walk, walk, if_neg single.notHere, if_neg single.notAbove, if_neg single.notHere,
        if_neg single.notAbove, here, further]

theorem at?_congr (ends : Path.endsWithSlash path = false)
    (same : other.walk (other.origin path) (Path.names path) =
      d.walk (d.origin path) (Path.names path)) : other.at? path = d.at? path := by
  have found : other.spot path = d.spot path := by
    unfold spot
    rw [ends]
    dsimp only
    rw [if_neg Bool.false_ne_true, List.append_nil]
    exact congrArg (fun walked => if path.toList.contains '\x00' then .error .nullCharacter
      else if path = "" then .error .notFound
      else if pathLimit < path.utf8ByteSize then .error .nameTooLong else walked) same
  unfold at?
  rw [found]

theorem origin_of_below {base : String} {steps : List String} (below : Path.Below base path steps)
    (d : Disk) : d.origin path = d.origin base := by
  unfold origin
  rw [below.isAbsolute_eq]

/-- Where the root is the same directory, it is enough to compare what is stored under it. -/
theorem sameBelow_of_entries {root : String} {base : Location}
    (leads : d.walk (d.origin root) (Path.names root) = .ok (.directory base))
    (otherwise : other.walk (other.origin root) (Path.names root) = .ok (.directory base))
    (same : ∀ dir ∈ Catalog.directories, ∀ names : List String,
      other.entry? (base ++ dir :: names) = d.entry? (base ++ dir :: names)) :
    SameBelow root d other := by
  intro dir known names _ singles
  have single : Path.Single dir := Catalog.single_directory dir known
  have steps : ∀ name ∈ dir :: names, Path.Single name := List.forall_mem_cons.mpr ⟨single, singles⟩
  have below := Path.below_joinAll root steps
  refine at?_congr below.ends ?_
  rw [origin_of_below below, origin_of_below below, below.names_eq, walk_append leads,
    walk_append otherwise]
  refine walk_congr steps fun more further before => ?_
  obtain ⟨first, rest, rfl⟩ := List.exists_cons_of_ne_nil further
  obtain ⟨rfl, -⟩ := List.cons_prefix_cons.mp before
  exact same first known rest

end Disk

/-- A name with an extension is one step down as well. -/
theorem Path.Single.append {name extension : String} (single : Single name)
    (unbroken : '/' ∉ extension.toList) (long : 2 ≤ extension.toList.length) :
    Single (name ++ extension) := by
  have length : (name ++ extension).toList.length =
      name.toList.length + extension.toList.length := by
    rw [String.toList_append, List.length_append]
  have nonempty : 0 < name.toList.length :=
    List.length_pos_iff.mpr fun empty => single.nonempty (String.toList_eq_nil_iff.mp empty)
  have apart : ∀ short : String, short.toList.length < 3 → name ++ extension ≠ short := by
    rintro _ short rfl
    omega
  refine ⟨apart "" (by decide), fun slash => ?_, apart "." (by decide), apart ".." (by decide)⟩
  rw [String.toList_append, List.mem_append] at slash
  exact slash.elim single.unbroken unbroken

namespace Catalog

/-- Every lookup is answered alike. -/
structure Alike (c other : Catalog) : Prop where
  libraries : other.libraries = c.libraries
  template : ∀ name, other.template name = c.template name
  defaults : ∀ name, other.defaults name = c.defaults name
  assetDirectory : ∀ name, other.assetDirectory name = c.assetDirectory name
  assetFile : ∀ asset file, Path.Single file → other.assetFile asset file = c.assetFile asset file

/-- Behind the check of a name, the name is plain. -/
theorem requirePlainName_bind_congr {α : Type} {name : String}
    {f g : Unit → Except TemplateFault α} (same : isPlainName name = true → f () = g ()) :
    (requirePlainName name >>= f) = (requirePlainName name >>= g) := by
  unfold requirePlainName
  split
  · rename_i plain
    exact same plain
  · rfl

variable {c : Catalog} {other : Disk} {path : String}

/-- A source directory is found under a plain name, at the path of this name. -/
theorem assetDirectory_ok {asset directory : String}
    (found : c.assetDirectory asset = .ok directory) :
    isPlainName asset = true ∧ directory = c.path [assetsDirectory, asset] := by
  unfold assetDirectory requirePlainName at found
  split at found
  · rename_i plain
    change (if c.disk.isDirectory _ then _ else _) = _ at found
    split at found
    · exact ⟨plain, (Except.ok.inj found).symm⟩
    · cases found
  · cases found

theorem read_congr (same : other.at? path = c.disk.at? path) (file : c.disk.isFile path = true) :
    read { c with disk := other } path = c.read path := by
  unfold read
  rw [Disk.readText_congr same file]

theorem read_of_text {text : String} (stands : c.disk.at? path = some (.file text.toUTF8)) :
    c.read path = .ok text := Except.mapError_eq_ok_iff.mpr (Disk.readText_of_text stands)

/-- The text of a template's file is the template. -/
theorem template_of_text {name text : String} (plain : isPlainName name = true)
    (stands : c.disk.at? (c.path [templatesDirectory, name ++ ".tf"]) = some (.file text.toUTF8)) :
    c.template name = .ok text := by
  have file := Disk.isFile_iff.mpr ⟨_, stands⟩
  unfold template requirePlainName
  rw [if_pos plain]
  simp only [file, read_of_text stands]
  rfl

theorem defaults_of_text {name text : String} (plain : isPlainName name = true)
    (stands : c.disk.at? (c.path [defaultsDirectory, name ++ ".yaml"]) =
      some (.file text.toUTF8)) :
    c.defaults name = Fields.ofText text (c.path [defaultsDirectory, name ++ ".yaml"]) := by
  have file := Disk.isFile_iff.mpr ⟨_, stands⟩
  unfold defaults requirePlainName
  rw [if_pos plain]
  simp only [file, read_of_text stands]
  rfl

/-- A file that is only read where it is one. -/
theorem whenFile_congr {α : Type} (same : other.at? path = c.disk.at? path)
    (next : Except TemplateFault String → Except TemplateFault α)
    (missing : Except TemplateFault α) :
    (if other.isFile path then next (read { c with disk := other } path) else missing) =
      if c.disk.isFile path then next (c.read path) else missing := by
  rw [Disk.isFile_congr same]
  split
  · rename_i file
    rw [read_congr same file]
  · rfl

theorem at?_file (same : Disk.SameBelow c.root c.disk other) {dir name extension : String}
    (known : dir ∈ directories)
    (plain : isPlainName name = true) (unbroken : '/' ∉ extension.toList)
    (long : 2 ≤ extension.toList.length) :
    other.at? (c.path [dir, name ++ extension]) = c.disk.at? (c.path [dir, name ++ extension]) :=
  same dir known [name ++ extension] (List.cons_ne_nil _ [])
    (List.forall_mem_singleton.mpr ((Path.single_of_plain plain).append unbroken long))

theorem at?_asset (same : Disk.SameBelow c.root c.disk other) {name : String}
    (plain : isPlainName name = true) (more : List String)
    (singles : ∀ file ∈ more, Path.Single file) :
    other.at? (c.path (assetsDirectory :: name :: more)) =
      c.disk.at? (c.path (assetsDirectory :: name :: more)) :=
  same assetsDirectory (by decide) (name :: more) (List.cons_ne_nil name more)
    (List.forall_mem_cons.mpr ⟨Path.single_of_plain plain, singles⟩)

theorem template_congr (same : Disk.SameBelow c.root c.disk other) (name : String) :
    template { c with disk := other } name = c.template name := by
  refine requirePlainName_bind_congr fun plain => ?_
  exact whenFile_congr (at?_file same (by decide) plain (by decide) (by decide)) id _

theorem defaults_congr (same : Disk.SameBelow c.root c.disk other) (name : String) :
    defaults { c with disk := other } name = c.defaults name := by
  refine requirePlainName_bind_congr fun plain => ?_
  exact whenFile_congr (at?_file same (by decide) plain (by decide) (by decide))
    (· >>= fun text => Fields.ofText text (c.path [defaultsDirectory, name ++ ".yaml"])) _

theorem assetDirectory_congr (same : Disk.SameBelow c.root c.disk other) (name : String) :
    assetDirectory { c with disk := other } name = c.assetDirectory name := by
  refine requirePlainName_bind_congr fun plain => ?_
  have stands := at?_asset same plain [] fun _ member => nomatch member
  show (if other.isDirectory (c.path [assetsDirectory, name]) then _ else _) = ite _ _ _
  rw [Disk.isDirectory_congr stands]
  rfl

theorem assetFile_congr (same : Disk.SameBelow c.root c.disk other) (asset : String)
    {file : String} (single : Path.Single file) :
    assetFile { c with disk := other } asset file = c.assetFile asset file := by
  unfold assetFile
  rw [assetDirectory_congr same asset]
  cases found : c.assetDirectory asset with
  | error e => rfl
  | ok directory =>
      obtain ⟨plain, rfl⟩ := assetDirectory_ok found
      exact whenFile_congr (at?_asset same plain [file] (List.forall_mem_singleton.mpr single)) id _

theorem alike_of_sameBelow (same : Disk.SameBelow c.root c.disk other) :
    Alike c { c with disk := other } where
  libraries := rfl
  template := template_congr same
  defaults := defaults_congr same
  assetDirectory := assetDirectory_congr same
  assetFile := fun asset _ single => assetFile_congr same asset single

end Catalog

end Groundwork
