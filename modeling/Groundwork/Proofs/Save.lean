import Groundwork.Build
import Groundwork.Proofs.Ancestor

set_option autoImplicit false

/- Writing generated code into a new directory. Every target adds one entry to the destination or to
its directory of modules, and is refused exactly if that entry is there already, so a run of targets
conflicts exactly if two of them have one name. -/
namespace Groundwork

open Disk (Under)
open Disk.Change (Ends)

namespace Output

/-- The destination leads to this directory: it did when nothing stood below, and only what stands below
has changed since. -/
def Placed (destination : String) (l : Location) (now : Disk) : Prop :=
  ∃ d : Disk, d.walk (d.origin destination) (Path.names destination) = .ok (.directory l) ∧
    (∀ name more, d.entry? (l ++ name :: more) = none) ∧
    Under l d now ∧ now.entry? l = d.entry? l

variable {destination : String} {l : Location} {d now : Disk}

theorem Placed.leads (placed : Placed destination l now) :
    now.walk (now.origin destination) (Path.names destination) = .ok (.directory l) := by
  obtain ⟨d, reached, bare, under, same⟩ := placed
  have start : now.origin destination = d.origin destination := by
    unfold Disk.origin
    rw [under.workingDirectory]
  rw [start]
  exact under.walk same bare reached

theorem Placed.under (placed : Placed destination l d) {name : String} {more : List String}
    (changed : Under (l ++ name :: more) d now) : Placed destination l now := by
  obtain ⟨first, reached, bare, under, same⟩ := placed
  refine ⟨first, reached, bare, under.trans changed.widen, ?_⟩
  rw [← same]
  apply changed.frame
  intro inside
  have long := inside.length_le
  simp only [List.length_append, List.length_cons] at long
  omega

/-- What a path below the destination leads to is what stands below its directory. -/
theorem Placed.found (placed : Placed destination l d) {path : String} {steps : List String}
    (below : Path.Below destination path steps) {s : Disk.Spot}
    (found : d.walk (d.origin path) (Path.names path) = .ok s) :
    s.location = l ++ steps ∧ d.entry? (l ++ steps) = s.standing? := by
  have start : d.origin path = d.origin destination := by
    unfold Disk.origin
    rw [below.isAbsolute_eq]
  rw [start, below.names_eq, Disk.walk_append placed.leads] at found
  exact Disk.walk_singles below.down below.singles found

theorem Placed.existsAt (placed : Placed destination l d) {path : String} {steps : List String}
    (below : Path.Below destination path steps) (present : d.existsAt path = true) :
    d.entry? (l ++ steps) ≠ none := by
  intro vacant
  have absent : d.existsAt path = false := by
    rw [Disk.existsAt_eq_false_iff]
    intro s found
    rw [← (placed.found below (Disk.walk_of_spot below.ends found)).2]
    exact vacant
  rw [absent] at present
  cases present

/-- A new entry at a place, with whatever is below it. -/
structure Adds (place : Location) (d now : Disk) : Prop where
  under : Under place d now
  vacant : d.entry? place = none
  present : now.entry? place ≠ none

theorem adds_put {place : Location} (vacant : d.entry? place = none) (e : Entry) :
    Adds place d (d.put place e) := by
  have below : place ≠ [] := by
    rintro rfl
    cases vacant
  have under := Disk.under_put d place [] e
  rw [List.append_nil] at under
  refine ⟨under, vacant, ?_⟩
  rw [Disk.entry?_put_self d e below]
  exact Option.some_ne_none e

theorem Adds.put {place : Location} (adds : Adds place d now) (name : String) (e : Entry) :
    Adds place d (now.put (place ++ [name]) e) := by
  have apart : place ≠ place ++ [name] := by simp
  refine ⟨adds.under.trans (Disk.under_put now place [name] e), adds.vacant, ?_⟩
  rw [Disk.entry?_put_of_ne now e apart]
  exact adds.present

theorem Placed.adds (placed : Placed destination l d) {steps : List String} (down : steps ≠ [])
    (adds : Adds (l ++ steps) d now) : Placed destination l now := by
  cases steps with
  | nil => exact absurd rfl down
  | cons name more => exact placed.under adds.under

/-- No conflict, unless the place is taken. -/
def ConflictsAt (place : Location) (d : Disk) (e : Failure) : Prop :=
  ∀ path, e = .destinationConflict path → d.entry? place ≠ none

theorem conflictsAt_of_ne {place : Location} {e : Failure}
    (other : ∀ path, e ≠ .destinationConflict path) : ConflictsAt place d e :=
  fun path conflict => absurd conflict (other path)

theorem ends_createNew (placed : Placed destination l d) {path : String} {steps : List String}
    (below : Path.Below destination path steps) :
    Ends (createNew path) d
      (fun _ now => d.entry? (l ++ steps) = none ∧ now = d.put (l ++ steps) .directory)
      (fun e _ => ConflictsAt (l ++ steps) d e) := by
  apply Disk.Change.ends_adapt
  apply (Disk.ends_createDirectory path d).mono
  · rintro _ _ ⟨-, place, reached, rfl⟩
    obtain ⟨here, stands⟩ := placed.found below reached
    exact ⟨stands, congrArg (d.put · .directory) here⟩
  · rintro e _ ⟨-, exists_⟩
    split
    · rename_i already
      rw [Path.dropTrailingSlashes_of_none below.ends] at exists_
      exact fun _ _ => placed.existsAt below (exists_ already)
    · exact conflictsAt_of_ne fun _ conflict => nomatch conflict

theorem ends_writeBelow (placed : Placed destination l d) {path : String} {steps : List String}
    (below : Path.Below destination path steps) (text : String) :
    Ends (performing (Disk.writeFile path text)) d
      (fun _ now => (d.existsAt path = false → d.entry? (l ++ steps) = none) ∧
        now = d.put (l ++ steps) (.file text.toUTF8))
      (fun e _ => ∀ p, e ≠ .destinationConflict p) := by
  apply Disk.Change.ends_adapt
  apply (Disk.ends_writeFile path text d).mono
  · rintro _ _ ⟨s, found, rfl⟩
    obtain ⟨here, stands⟩ := placed.found below (Disk.walk_of_spot below.ends found)
    refine ⟨fun absent => ?_, by rw [here]⟩
    rw [stands]
    exact Disk.existsAt_eq_false_iff.mp absent s found
  · rintro e _ - p conflict
    cases conflict

theorem single_modulesDirectory : Path.Single modulesDirectory :=
  ⟨by decide, by decide, by decide, by decide⟩

theorem single_mainFile : Path.Single mainFile := ⟨by decide, by decide, by decide, by decide⟩

theorem single_variablesFile : Path.Single variablesFile :=
  ⟨by decide, by decide, by decide, by decide⟩

/-- A file in a new directory belongs to what the directory adds. -/
theorem ends_writeInside {start : Disk} {path : String} {steps : List String}
    (placed : Placed destination l start) (below : Path.Below destination path steps)
    (adds : Adds (l ++ steps) start now) {file : String} (single : Path.Single file)
    (text : String) :
    Ends (performing (Disk.writeFile (Path.join path file) text)) now
      (fun _ last => Adds (l ++ steps) start last ∧
        last = now.put (l ++ (steps ++ [file])) (.file text.toUTF8))
      (fun e _ => ConflictsAt (l ++ steps) start e) := by
  apply (ends_writeBelow (placed.adds below.down adds) (below.join single.below) text).mono
  · rintro _ _ ⟨-, rfl⟩
    refine ⟨?_, rfl⟩
    rw [← List.append_assoc]
    exact adds.put file _
  · exact fun _ _ other => conflictsAt_of_ne other

/-- A directory with its code, and with its declarations unless there are none. -/
def codeTree (steps : List String) (mainCode variableCode : String) : List (Location × Entry) :=
  [(steps, .directory), (steps ++ [mainFile], .file mainCode.toUTF8)] ++
    if variableCode ≠ "" then [(steps ++ [variablesFile], .file variableCode.toUTF8)] else []

/-- Code goes into a directory of its own. -/
theorem ends_writeCode (placed : Placed destination l d) {relative : String}
    {steps : List String} (below : Path.Below "" relative steps)
    (mainCode variableCode : String) :
    Ends (writeCode destination relative mainCode variableCode) d
      (fun _ now => Adds (l ++ steps) d now ∧
        now = d.putAll l (codeTree steps mainCode variableCode))
      (fun e _ => ConflictsAt (l ++ steps) d e) := by
  have inside := below.base destination
  unfold writeCode codeTree
  apply Disk.Change.ends_bind
  apply (ends_createNew placed inside).mono ?_ fun _ _ conflict => conflict
  rintro _ _ ⟨vacant, rfl⟩
  apply Disk.Change.ends_bind
  apply (ends_writeInside placed inside (adds_put vacant .directory) single_mainFile
    mainCode).mono ?_ fun _ _ conflict => conflict
  rintro _ _ ⟨adds, rfl⟩
  dsimp only
  split
  · apply Disk.Change.ends_bind
    apply (ends_writeInside placed inside adds single_variablesFile variableCode).mono ?_
      fun _ _ conflict => conflict
    rintro _ _ ⟨more, rfl⟩
    exact Disk.Change.ends_pure ⟨more, rfl⟩
  · exact Disk.Change.ends_pure ⟨adds, rfl⟩

/-- What saving a module writes. -/
def moduleTree (m : Module) : List (Location × Entry) :=
  codeTree [modulesDirectory, m.name] m.mainCode m.variableCode

/-- What saving an environment writes. -/
def environmentTree (e : Environment) : List (Location × Entry) :=
  codeTree [e.name] e.mainCode e.variableCode

theorem ends_saveModule (placed : Placed destination l d) {m : Module}
    (single : Path.Single m.name) :
    Ends (saveModule destination m) d
      (fun _ now => Adds (l ++ [modulesDirectory, m.name]) d now ∧ now = d.putAll l (moduleTree m))
      (fun e _ => ConflictsAt (l ++ [modulesDirectory, m.name]) d e) := by
  apply Disk.Change.ends_bind
  have inside := single_modulesDirectory.below.join single.below
  apply (ends_writeCode placed inside m.mainCode m.variableCode).mono ?_
    fun _ _ conflict => conflict
  exact fun _ _ written => Disk.Change.ends_pure written

theorem ends_saveEnvironment (placed : Placed destination l d) {e : Environment}
    (single : Path.Single e.name) :
    Ends (saveEnvironment destination e) d
      (fun _ now => Adds (l ++ [e.name]) d now ∧ now = d.putAll l (environmentTree e))
      (fun failure _ => ConflictsAt (l ++ [e.name]) d failure) := by
  apply Disk.Change.ends_bind
  apply (ends_writeCode placed single.below e.mainCode e.variableCode).mono ?_
    fun _ _ conflict => conflict
  exact fun _ _ written => Disk.Change.ends_pure written

end Output

/-- What an asset is called in the destination. -/
def Asset.targetName : Asset → String
  | .actionRequired _ => actionRequiredFile
  | .staticCopy name _ => name

namespace Output

variable {destination : String} {l : Location} {d : Disk}

/-- What saving an asset writes: the document, or the source directory as it stands. -/
def assetTree (d : Disk) : Asset → List (Location × Entry)
  | .actionRequired rendered => [([Asset.actionRequiredFile], .file rendered.toUTF8)]
  | .staticCopy name source =>
      match d.spot source with
      | .ok (.directory origin) =>
          ([name], .directory) :: (d.below origin).map fun e => (name :: e.1, e.2)
      | _ => []

theorem assetTree_static {name source : String} {origin : Location}
    (located : d.spot source = .ok (.directory origin)) :
    assetTree d (.staticCopy name source) =
      ([name], .directory) :: (d.below origin).map fun e => (name :: e.1, e.2) := by
  rw [assetTree, located]

theorem ends_saveAsset (placed : Placed destination l d) {a : Asset}
    (single : Path.Single a.targetName) :
    Ends (saveAsset destination a) d
      (fun _ now => Adds (l ++ [a.targetName]) d now ∧ now = d.putAll l (assetTree d a))
      (fun failure _ => ConflictsAt (l ++ [a.targetName]) d failure) := by
  have inside := single.below.base destination
  cases a with
  | actionRequired rendered =>
      apply Disk.Change.ends_get
      dsimp only
      split
      · rename_i present
        apply Disk.Change.ends_bind
        apply Disk.Change.ends_throw
        exact fun _ _ => placed.existsAt inside present
      · rename_i absent
        apply (ends_writeBelow placed inside rendered).mono
        · rintro _ _ ⟨vacant, rfl⟩
          exact ⟨adds_put (vacant (Bool.eq_false_iff.mpr absent)) _, rfl⟩
        · exact fun _ _ other => conflictsAt_of_ne other
  | staticCopy name source =>
      apply Disk.Change.ends_get
      dsimp only
      split
      · rename_i present
        apply Disk.Change.ends_bind
        apply Disk.Change.ends_throw
        exact fun _ _ => placed.existsAt inside present
      · apply Disk.Change.ends_adapt
        apply (Disk.ends_copyTree source inside.ends d).mono
        · rintro _ _ ⟨origin, place, located, reached, rfl⟩
          obtain ⟨here, vacant⟩ := placed.found inside reached
          have same : place = l ++ [name] := here
          subst same
          have adds := adds_put vacant .directory
          have apart : ∀ e ∈ d.below origin, l ++ [name] ≠ (l ++ [name]) ++ e.1 :=
            Disk.ne_append_of_mem_below (l ++ [name])
          have copied := Disk.entry?_putAll_of_ne apart (d.put (l ++ [name]) .directory)
          refine ⟨⟨adds.under.trans (Disk.under_putAll _ _ _), vacant, ?_⟩, ?_⟩
          · rw [Asset.targetName, copied]
            exact adds.present
          · rw [assetTree_static located, Disk.putAll_cons, Disk.putAll, Disk.putAll,
              List.foldl_map]
            simp only [List.append_assoc, List.singleton_append]
        · exact fun e _ _ => conflictsAt_of_ne fun _ conflict => nomatch conflict

/-- The names directly in the destination, and those in its directory of modules. -/
structure Layout (destination : String) (l : Location) (top inner : List String) (now : Disk) :
    Prop where
  placed : Placed destination l now
  top : ∀ name, name ∈ top ↔ now.entry? (l ++ [name]) ≠ none
  inner : ∀ name, name ∈ inner ↔ now.entry? (l ++ [modulesDirectory, name]) ≠ none

variable {top inner : List String} {now : Disk}

/-- A name is added where it was not, and no other name comes or goes. -/
theorem mem_append_of_adds {place : Location} {name : String} {seen : List String}
    (known : ∀ other, other ∈ seen ↔ d.entry? (place ++ [other]) ≠ none)
    (adds : Adds (place ++ [name]) d now) :
    name ∉ seen ∧ ∀ other, other ∈ seen ++ [name] ↔ now.entry? (place ++ [other]) ≠ none := by
  refine ⟨fun member => (known name).mp member adds.vacant, ?_⟩
  intro other
  rw [List.mem_append, List.mem_singleton]
  by_cases same : other = name
  · rw [same]
    exact ⟨fun _ => adds.present, fun _ => .inr rfl⟩
  · have outside : ¬ place ++ [name] <+: place ++ [other] := by
      simpa [List.prefix_append_right_inj, List.cons_prefix_cons] using Ne.symm same
    rw [adds.under.frame _ outside, known other]
    exact or_iff_left same

theorem Layout.addTop (layout : Layout destination l top inner d)
    (modules : modulesDirectory ∈ top) {name : String} (adds : Adds (l ++ [name]) d now) :
    name ∉ top ∧ Layout destination l (top ++ [name]) inner now := by
  obtain ⟨fresh, grown⟩ := mem_append_of_adds layout.top adds
  refine ⟨fresh, layout.placed.adds (List.cons_ne_nil name []) adds, grown, ?_⟩
  intro other
  have apart : name ≠ modulesDirectory := by
    rintro rfl
    exact fresh modules
  have outside : ¬ l ++ [name] <+: l ++ [modulesDirectory, other] := by
    simpa [List.prefix_append_right_inj, List.cons_prefix_cons] using apart
  rw [layout.inner other, adds.under.frame _ outside]

theorem Layout.addInner (layout : Layout destination l top inner d) {name : String}
    (adds : Adds (l ++ [modulesDirectory, name]) d now) :
    name ∉ inner ∧ Layout destination l top (inner ++ [name]) now := by
  have append : ∀ other, l ++ [modulesDirectory, other] = (l ++ [modulesDirectory]) ++ [other] :=
    fun other => by simp
  have known : ∀ other, other ∈ inner ↔ d.entry? ((l ++ [modulesDirectory]) ++ [other]) ≠ none :=
    fun other => by rw [layout.inner other, append other]
  have added := adds
  rw [append name] at added
  obtain ⟨fresh, grown⟩ := mem_append_of_adds known added
  refine ⟨fresh, layout.placed.adds (List.cons_ne_nil _ _) adds, ?_, ?_⟩
  · intro other
    have outside : ¬ l ++ [modulesDirectory, name] <+: l ++ [other] := by
      simp [List.prefix_append_right_inj, List.cons_prefix_cons]
    rw [layout.top other, adds.under.frame _ outside]
  · intro other
    rw [append other]
    exact grown other

theorem nodup_append_singleton {seen : List String} {name : String} :
    (seen ++ [name]).Nodup ↔ name ∉ seen ∧ seen.Nodup := by
  rw [List.perm_append_comm.nodup_iff, List.singleton_append, List.nodup_cons]

/-- A sequence of targets that succeeds has given pairwise different names, none of which was there; it
conflicts only if that is impossible. -/
theorem ends_forM {α : Type} {save : α → Writing Unit} {nameOf : α → String}
    {I : List String → Disk → Prop} {xs : List α}
    (step : ∀ x ∈ xs, ∀ seen d, I seen d → Ends (save x) d
      (fun _ now => nameOf x ∉ seen ∧ I (seen ++ [nameOf x]) now)
      (fun e _ => ∀ path, e = .destinationConflict path → nameOf x ∈ seen))
    {seen : List String} (holds : I seen d) (distinct : seen.Nodup) :
    Ends (xs.forM save) d
      (fun _ now => (seen ++ xs.map nameOf).Nodup ∧ I (seen ++ xs.map nameOf) now)
      (fun e _ => ∀ path, e = .destinationConflict path → ¬ (seen ++ xs.map nameOf).Nodup) := by
  induction xs generalizing seen d with
  | nil =>
      apply Disk.Change.ends_pure
      rw [List.map_nil, List.append_nil]
      exact ⟨distinct, holds⟩
  | cons x rest ih =>
      rw [List.map_cons, List.append_cons]
      show Ends (save x >>= fun _ => rest.forM save) d _ _
      apply Disk.Change.ends_bind
      apply (step x List.mem_cons_self seen d holds).mono
      · rintro _ now ⟨fresh, grown⟩
        have wider : (seen ++ [nameOf x]).Nodup := nodup_append_singleton.mpr ⟨fresh, distinct⟩
        exact ih (fun y member => step y (List.mem_cons_of_mem x member)) grown wider
      · intro e _ conflicts path conflict distinctAll
        have first : (seen ++ [nameOf x]).Nodup := (List.nodup_append.mp distinctAll).1
        exact (nodup_append_singleton.mp first).1 (conflicts path conflict)

/-- Targets in the directory of modules. -/
theorem ends_innerTargets {ms : List Module} (single : ∀ m ∈ ms, Path.Single m.name)
    (layout : Layout destination l top [] d) :
    Ends (ms.forM (saveModule destination)) d
      (fun _ now => (ms.map (·.name)).Nodup ∧ Layout destination l top (ms.map (·.name)) now)
      (fun e _ => ∀ path, e = .destinationConflict path → ¬ (ms.map (·.name)).Nodup) := by
  refine ends_forM ?_ layout List.nodup_nil
  intro m member seen now reached
  apply (ends_saveModule reached.placed (single m member)).mono
  · exact fun _ next written => reached.addInner written.1
  · exact fun e _ conflicts path conflict => (reached.inner _).mpr (conflicts path conflict)

/-- Targets directly in the destination, which holds a directory of modules. -/
theorem ends_topTargets {α : Type} {save : α → Writing Unit} {nameOf : α → String} {xs : List α}
    (each : ∀ x ∈ xs, ∀ now, Placed destination l now → Ends (save x) now
      (fun _ next => Adds (l ++ [nameOf x]) now next)
      (fun e _ => ConflictsAt (l ++ [nameOf x]) now e))
    (layout : Layout destination l top inner d) (modules : modulesDirectory ∈ top)
    (distinct : top.Nodup) :
    Ends (xs.forM save) d
      (fun _ now => (top ++ xs.map nameOf).Nodup ∧
        Layout destination l (top ++ xs.map nameOf) inner now)
      (fun e _ => ∀ path, e = .destinationConflict path → ¬ (top ++ xs.map nameOf).Nodup) := by
  let holds : List String → Disk → Prop := fun seen now =>
    modulesDirectory ∈ seen ∧ Layout destination l seen inner now
  have step : ∀ x ∈ xs, ∀ seen now, holds seen now → Ends (save x) now
      (fun _ next => nameOf x ∉ seen ∧ holds (seen ++ [nameOf x]) next)
      (fun e _ => ∀ path, e = .destinationConflict path → nameOf x ∈ seen) := by
    rintro x member seen now ⟨present, reached⟩
    apply (each x member now reached.placed).mono
    · intro _ next adds
      obtain ⟨fresh, grown⟩ := reached.addTop present adds
      exact ⟨fresh, List.mem_append_left _ present, grown⟩
    · exact fun e _ conflicts path conflict => (reached.top _).mpr (conflicts path conflict)
  apply (ends_forM step ⟨modules, layout⟩ distinct).mono
  · exact fun _ now done => ⟨done.1, done.2.2⟩
  · exact fun _ _ conflicts => conflicts

/-- Creating a directory where nothing stands leaves it empty. -/
theorem placed_put {now : Disk} (wellFormed : now.WellFormed)
    (reached : now.walk (now.origin destination) (Path.names destination) = .ok (.vacant l)) :
    Placed destination l (now.put l .directory) ∧
      ∀ name more, Disk.entry? (now.put l .directory) (l ++ name :: more) = none := by
  obtain ⟨vacant, leads⟩ := Disk.walk_vacant reached
  have bare : ∀ name more, Disk.entry? (now.put l .directory) (l ++ name :: more) = none := by
    intro name more
    have apart : l ++ name :: more ≠ l := by simp
    rw [Disk.entry?_put_of_ne now .directory apart]
    exact wellFormed.entry?_append vacant (name :: more)
  exact ⟨⟨_, leads, bare, Under.refl l _, rfl⟩, bare⟩

/-- Opening creates the directories above the destination, then the destination, then its directory of
modules, up to where it fails. Only a destination that is there already conflicts. -/
theorem ends_opening (destination : String) (d : Disk) {base : Disk}
    (above : ((createAbove destination).run d).2 = base) (wellFormed : base.WellFormed) :
    Ends (openDestination destination) d
      (fun _ now => StaysAbsent destination d ∧ ∃ l,
        base.walk (base.origin destination) (Path.names destination) = .ok (.vacant l) ∧
        now = (base.put l .directory).put (l ++ [modulesDirectory]) .directory)
      (fun e now => (now = d ∧ d.existsAt destination = true) ∨
        (now = base ∧ ∀ path, e = .destinationConflict path → ¬ StaysAbsent destination d) ∨
        (∀ path, e ≠ .destinationConflict path) ∧ ∃ l,
          base.walk (base.origin destination) (Path.names destination) = .ok (.vacant l) ∧
          now = base.put l .directory) := by
  unfold openDestination StaysAbsent
  rw [above]
  apply Disk.Change.ends_get
  dsimp only
  split
  · rename_i present
    apply Disk.Change.ends_bind
    exact Disk.Change.ends_throw (.inl ⟨rfl, present⟩)
  · apply Disk.Change.ends_bind
    apply (ends_createAbove destination d).mono
    · intro _ now same
      obtain rfl := same.trans above
      apply Disk.Change.ends_bind
      apply Disk.Change.ends_adapt
      apply (Disk.ends_createDirectory destination now).mono
      · rintro _ _ ⟨stays, l, reached, rfl⟩
        obtain ⟨opened, bare⟩ := placed_put wellFormed reached
        have inside := single_modulesDirectory.below.base destination
        apply Disk.Change.ends_adapt
        apply (Disk.ends_createDirectory (Path.join destination modulesDirectory) _).mono
        · rintro _ _ ⟨-, place, further, rfl⟩
          have here : place = l ++ [modulesDirectory] := (opened.found inside further).1
          exact ⟨stays, l, reached, by rw [here]⟩
        · rintro e _ ⟨rfl, present⟩
          refine .inr (.inr ⟨fun path conflict => ?_, l, reached, rfl⟩)
          split at conflict
          · rename_i already
            rw [Path.dropTrailingSlashes_of_none inside.ends] at present
            exact opened.existsAt inside (present already) (bare modulesDirectory [])
          · cases conflict
      · rintro e _ ⟨rfl, present⟩
        refine .inr (.inl ⟨rfl, fun path conflict stays => ?_⟩)
        split at conflict
        · rename_i already
          rw [present already] at stays
          cases stays
        · cases conflict
    · rintro e _ ⟨rfl, other⟩
      exact .inr (.inl ⟨above, fun path conflict => absurd conflict (other path)⟩)

/-- A destination that does not exist is opened without a conflict, and holds nothing but a directory of
modules, if it stays absent while the directories above it are created. -/
theorem ends_openDestination (wellFormed : d.WellFormed)
    (absent : d.existsAt destination = false) :
    Ends (openDestination destination) d
      (fun _ now => StaysAbsent destination d ∧
        ∃ l, Layout destination l [modulesDirectory] [] now)
      (fun e _ => ∀ path, e = .destinationConflict path → ¬ StaysAbsent destination d) := by
  have treeAbove := wellFormed_createAbove destination d wellFormed
  apply (ends_opening destination d rfl treeAbove).mono
  · rintro _ _ ⟨stays, l, reached, rfl⟩
    obtain ⟨placed, bare⟩ := placed_put treeAbove reached
    have adds := adds_put (bare modulesDirectory []) .directory
    refine ⟨stays, l, placed.adds (List.cons_ne_nil _ []) adds, ?_, ?_⟩
    · have known : ∀ other, other ∈ ([] : List String) ↔ _ :=
        fun other => iff_of_false List.not_mem_nil (Classical.not_not.mpr (bare other []))
      exact (mem_append_of_adds known adds).2
    · intro name
      have apart : l ++ [modulesDirectory, name] ≠ l ++ [modulesDirectory] := by simp
      rw [Disk.entry?_put_of_ne _ _ apart]
      exact iff_of_false List.not_mem_nil (Classical.not_not.mpr (bare modulesDirectory [name]))
  · rintro e _ (⟨-, present⟩ | ⟨-, conflicts⟩ | ⟨other, -⟩) path conflict
    · rw [absent] at present
      cases present
    · exact conflicts path conflict
    · exact absurd conflict (other path)

end Output

namespace Build

open Output

/-- The names that a saved run gives to entries of its destination. -/
def targetNames (b : Build) : List String :=
  modulesDirectory :: (b.environments.map (·.name) ++ b.assets.map (·.targetName))

/-- No two targets of a run coincide. -/
def TargetsApart (b : Build) : Prop :=
  (b.modules.map (·.name)).Nodup ∧ b.targetNames.Nodup

/-- Every target is one step below the directory that it is put into. -/
structure SingleTargets (b : Build) : Prop where
  modules : ∀ m ∈ b.modules, Path.Single m.name
  environments : ∀ e ∈ b.environments, Path.Single e.name
  assets : ∀ a ∈ b.assets, Path.Single a.targetName

/-- Saving into a destination that does not exist succeeds only if the destination stays absent until it
is created and no two targets coincide, and conflicts only if this is not so. -/
theorem ends_save {b : Build} {d : Disk} (single : b.SingleTargets) (wellFormed : d.WellFormed)
    (absent : d.existsAt b.destination = false) :
    Ends b.save d (fun _ _ => StaysAbsent b.destination d ∧ b.TargetsApart)
      (fun e _ => ∀ path, e = .destinationConflict path →
        ¬ (StaysAbsent b.destination d ∧ b.TargetsApart)) := by
  unfold save
  apply Disk.Change.ends_bind
  apply (ends_openDestination wellFormed absent).mono ?_
    fun e _ conflicts path conflict clear => conflicts path conflict clear.1
  rintro _ opened ⟨stays, l, layout⟩
  apply Disk.Change.ends_bind
  apply (ends_innerTargets single.modules layout).mono
  · rintro _ filled ⟨distinctModules, layout⟩
    have first : [modulesDirectory].Nodup := List.pairwise_singleton _ _
    apply Disk.Change.ends_bind
    apply (ends_topTargets (fun e member now placed =>
      (ends_saveEnvironment placed (single.environments e member)).mono
        (fun _ _ written => written.1) fun _ _ conflict => conflict) layout
      (List.mem_singleton_self _) first).mono
    · rintro _ grown ⟨distinctEnvironments, layout⟩
      apply (ends_topTargets (fun a member now placed =>
        (ends_saveAsset placed (single.assets a member)).mono
          (fun _ _ written => written.1) fun _ _ conflict => conflict) layout
        (List.mem_append_left _ (List.mem_singleton_self _)) distinctEnvironments).mono
      · exact fun _ _ done => ⟨stays, distinctModules, done.1⟩
      · exact fun e _ conflicts path conflict clear => conflicts path conflict clear.2.2
    · intro e _ conflicts path conflict clear
      have whole : b.targetNames.Nodup := clear.2.2
      rw [targetNames, ← List.cons_append] at whole
      exact conflicts path conflict (List.nodup_append.mp whole).1
  · intro e _ conflicts path conflict clear
    exact conflicts path conflict clear.2.1

end Build

end Groundwork
