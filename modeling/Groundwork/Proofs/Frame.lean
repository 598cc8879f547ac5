import Groundwork.Proofs.History
import Mathlib.Logic.Relation

set_option autoImplicit false

/- What saving leaves alone. However a save ends, everything that stood before stands as it did, and
what is new is the destination, something below it, or a directory that leads to it and was
missing. -/
namespace Groundwork

namespace Path

/-- The path above, unless it has no text. -/
def Up (path above : String) : Prop := parent? path = some above ∧ above ≠ ""

/-- The paths above a path, one after the other. -/
def Above : String → String → Prop := Relation.TransGen Up

end Path

namespace Disk

/-- The path leads to this directory. -/
def Leads (d : Disk) (path : String) (l : Location) : Prop :=
  d.walk (d.origin path) (Path.names path) = .ok (.directory l)

theorem Leads.unique {d : Disk} {path : String} {k l : Location} (leads : d.Leads path k)
    (other : d.Leads path l) : k = l := by
  unfold Leads at leads other
  rw [leads] at other
  cases other
  rfl

/-- Everything stands as it did. -/
structure Grows (d now : Disk) : Prop where
  workingDirectory : now.workingDirectory = d.workingDirectory
  kept : ∀ l e, d.entry? l = some e → now.entry? l = some e

variable {d middle now : Disk} {l : Location}

theorem Grows.refl (d : Disk) : Grows d d := ⟨rfl, fun _ _ => id⟩

theorem Grows.trans (first : Grows d middle) (second : Grows middle now) : Grows d now :=
  ⟨second.workingDirectory.trans first.workingDirectory,
    fun l e stands => second.kept l e (first.kept l e stands)⟩

theorem Grows.leads (grows : Grows d now) {path : String} (leads : d.Leads path l) :
    now.Leads path l := by
  have keeps : d.KeepsDirectories now := fun k => grows.kept k .directory
  have start : now.origin path = d.origin path := by
    unfold Disk.origin
    rw [grows.workingDirectory]
  unfold Leads
  rw [start]
  exact keeps.walk leads

theorem grows_put (vacant : d.entry? l = none) (e : Entry) : Grows d (d.put l e) := by
  refine ⟨rfl, fun k standing stands => ?_⟩
  have apart : k ≠ l := by
    rintro rfl
    rw [vacant] at stands
    cases stands
  rw [entry?_put_of_ne d e apart]
  exact stands

/-- Whatever happens below a vacant location leaves everything as it stood. -/
theorem Under.grows (under : Under l d now) (wellFormed : d.WellFormed)
    (vacant : d.entry? l = none) : Grows d now := by
  refine ⟨under.workingDirectory, fun k e stands => ?_⟩
  have outside : ¬ l <+: k := by
    rintro ⟨more, rfl⟩
    rw [wellFormed.entry?_append vacant more] at stands
    cases stands
  rw [under.frame k outside]
  exact stands

end Disk

namespace Output

open Disk (Under Grows)
open Disk.Change (Ends Preserves)

variable {destination : String} {l : Location} {d base now : Disk}

/-- This is the new destination or below it, or a path above the destination leads here. -/
def Within (destination : String) (d now : Disk) (l : Location) : Prop :=
  (∃ place, d.entry? place = none ∧ now.Leads destination place ∧ place <+: l) ∨
    ∃ path, Path.Above destination path ∧ now.Leads path l

theorem Within.grows (within : Within destination d base l) (grows : Grows base now) :
    Within destination d now l := by
  rcases within with ⟨place, new, leads, inside⟩ | ⟨path, above, leads⟩
  · exact .inl ⟨place, new, grows.leads leads, inside⟩
  · exact .inr ⟨path, above, grows.leads leads⟩

/-- Everything stands as it did, and what is new is the destination, below it, or above it; the
destination counts only if it is new itself. -/
structure Confined (destination : String) (d now : Disk) : Prop where
  grows : Grows d now
  created : ∀ l, d.entry? l = none → now.entry? l ≠ none → Within destination d now l

theorem Confined.refl (destination : String) (d : Disk) : Confined destination d d :=
  ⟨Grows.refl d, fun _ absent present => absurd absent present⟩

theorem Confined.put (confined : Confined destination d now) (vacant : now.entry? l = none)
    (e : Entry) (within : Within destination d (now.put l e) l) :
    Confined destination d (now.put l e) := by
  have grows := Disk.grows_put vacant e
  refine ⟨confined.grows.trans grows, fun k absent present => ?_⟩
  by_cases same : k = l
  · rw [same]
    exact within
  · rw [Disk.entry?_put_of_ne now e same] at present
    exact (confined.created k absent present).grows grows

/-- What happens below a destination that was vacant is confined. -/
theorem Confined.under (confined : Confined destination d base) (wellFormed : base.WellFormed)
    (vacant : base.entry? l = none) (placed : Placed destination l now)
    (under : Under l base now) : Confined destination d now := by
  have grows := under.grows wellFormed vacant
  refine ⟨confined.grows.trans grows, fun k absent present => ?_⟩
  by_cases inside : l <+: k
  · refine .inl ⟨l, ?_, placed.leads, inside⟩
    by_contra standing
    obtain ⟨e, stands⟩ := Option.ne_none_iff_exists'.mp standing
    rw [confined.grows.kept l e stands] at vacant
    cases vacant
  · rw [under.frame k inside] at present
    exact (confined.created k absent present).grows grows

/-- The directories above the destination are above it. -/
theorem confined_createAbove (wellFormed : d.WellFormed) :
    Confined destination d ((createAbove destination).run d).2 := by
  let holds : Disk → Prop := fun now => now.WellFormed ∧ Confined destination d now
  have each : ∀ path, Path.Above destination path →
      Preserves holds (Disk.createDirectory path) := by
    rintro path above now ⟨tree, confined⟩
    have further := Disk.preserves_createDirectory path now tree
    rw [Disk.createDirectory_run] at further ⊢
    split at further
    · exact ⟨further, confined⟩
    · rename_i l found
      have reached := Disk.walk_of_spot_dropTrailingSlashes found
      obtain ⟨vacant, leads⟩ := Disk.walk_vacant reached
      exact ⟨further, confined.put vacant .directory (.inr ⟨path, above, leads⟩)⟩
    · exact ⟨further, confined⟩
  have up : ∀ path parent, Path.Above destination path → Path.parent? path = some parent →
      parent ≠ "" → Path.Above destination parent :=
    fun _ _ above next nonempty => above.tail ⟨next, nonempty⟩
  have first : ∀ parent, Path.parent? destination = some parent → parent ≠ "" →
      Path.Above destination parent :=
    fun _ next nonempty => .single ⟨next, nonempty⟩
  exact (preserves_createAbove each up first d ⟨wellFormed, Confined.refl destination d⟩).2

/-- A property that keeps the destination where it is, and that no write below it ends. -/
structure StaysOpen (destination : String) (l : Location) (P : Disk → Prop) : Prop where
  placed : ∀ {now}, P now → Placed destination l now
  put : ∀ {now}, P now → ∀ {steps}, steps ≠ [] → ∀ e, P (now.put (l ++ steps) e)

/-- The destination leads to a place, and nothing outside of it has changed. -/
theorem staysOpen_under (destination : String) (l : Location) (base : Disk) :
    StaysOpen destination l fun now => Placed destination l now ∧ Under l base now where
  placed := And.left
  put := by
    rintro now ⟨placed, under⟩ steps down e
    cases steps with
    | nil => exact absurd rfl down
    | cons name more =>
        have changed := Disk.under_put now (l ++ name :: more) [] e
        rw [List.append_nil] at changed
        exact ⟨placed.under changed, under.trans changed.widen⟩

namespace StaysOpen

variable {P : Disk → Prop} {path : String} {steps : List String}

theorem createNew (staysOpen : StaysOpen destination l P)
    (below : Path.Below destination path steps) : Preserves P (createNew path) := by
  refine Disk.Change.preserves_of_ends fun d holds => Disk.Change.ends_adapt ?_
  apply (Disk.ends_createDirectory path d).mono
  · rintro _ _ ⟨-, place, reached, rfl⟩
    have here : place = l ++ steps := ((staysOpen.placed holds).found below reached).1
    rw [here]
    exact staysOpen.put holds below.down .directory
  · rintro _ _ ⟨rfl, -⟩
    exact holds

theorem writeFile (staysOpen : StaysOpen destination l P)
    (below : Path.Below destination path steps) (text : String) :
    Preserves P (performing (Disk.writeFile path text)) := by
  refine Disk.Change.preserves_of_ends fun d holds => Disk.Change.ends_adapt ?_
  apply (Disk.ends_writeFile path text d).mono
  · rintro _ _ ⟨s, found, rfl⟩
    have reached := Disk.walk_of_spot below.ends found
    rw [((staysOpen.placed holds).found below reached).1]
    exact staysOpen.put holds below.down _
  · rintro _ _ rfl
    exact holds

theorem putAll (staysOpen : StaysOpen destination l P) (holds : P d) (down : steps ≠ [])
    (entries : List (Location × Entry)) : P (d.putAll (l ++ steps) entries) := by
  induction entries generalizing d with
  | nil => exact holds
  | cons entry rest ih =>
      rw [Disk.putAll_cons, List.append_assoc]
      exact ih (staysOpen.put holds (List.append_ne_nil_of_left_ne_nil down entry.1) entry.2)

theorem copyTree (staysOpen : StaysOpen destination l P)
    (below : Path.Below destination path steps) (source : String) :
    Preserves P (Disk.copyTree source path) := by
  refine Disk.Change.preserves_of_ends fun d holds => ?_
  unfold Disk.copyTree
  apply Disk.Change.ends_get
  split
  · exact Disk.Change.ends_throw holds
  · rename_i origin _
    apply Disk.Change.ends_bind
    apply (Disk.ends_createDirectory path d).mono
    · rintro _ _ ⟨-, k, reached, rfl⟩
      have here : k = l ++ steps := ((staysOpen.placed holds).found below reached).1
      subst here
      have opened := staysOpen.put holds below.down .directory
      apply Disk.Change.ends_get
      split
      · rename_i place found
        have again := Disk.walk_of_spot below.ends found
        have same : place = l ++ steps := ((staysOpen.placed opened).found below again).1
        subst same
        exact Disk.Change.ends_modify (staysOpen.putAll opened below.down (d.below origin))
      · exact Disk.Change.ends_throw opened
      · exact Disk.Change.ends_throw opened
    · rintro _ _ ⟨rfl, -⟩
      exact holds
  · exact Disk.Change.ends_throw holds

theorem writeCode (staysOpen : StaysOpen destination l P) {relative : String}
    (below : Path.Below "" relative steps) (mainCode variableCode : String) :
    Preserves P (writeCode destination relative mainCode variableCode) := by
  have inside := below.base destination
  unfold Output.writeCode
  refine Disk.Change.preserves_bind (staysOpen.createNew inside) fun _ => ?_
  refine Disk.Change.preserves_bind
    (staysOpen.writeFile (inside.join single_mainFile.below) mainCode) fun _ => ?_
  dsimp only
  split
  · exact Disk.Change.preserves_bind
      (staysOpen.writeFile (inside.join single_variablesFile.below) variableCode)
      fun _ => Disk.Change.preserves_pure _
  · exact Disk.Change.preserves_pure _

theorem saveModule (staysOpen : StaysOpen destination l P) {m : Module}
    (single : Path.Single m.name) : Preserves P (saveModule destination m) :=
  Disk.Change.preserves_bind
    (staysOpen.writeCode (single_modulesDirectory.below.join single.below) _ _)
    fun _ => Disk.Change.preserves_pure _

theorem saveEnvironment (staysOpen : StaysOpen destination l P) {e : Environment}
    (single : Path.Single e.name) : Preserves P (saveEnvironment destination e) :=
  Disk.Change.preserves_bind (staysOpen.writeCode single.below _ _)
    fun _ => Disk.Change.preserves_pure _

theorem saveAsset (staysOpen : StaysOpen destination l P) {a : Asset}
    (single : Path.Single a.targetName) : Preserves P (saveAsset destination a) := by
  have inside := single.below.base destination
  cases a with
  | actionRequired rendered =>
      refine Disk.Change.preserves_get fun d => ?_
      dsimp only
      split
      · exact Disk.Change.preserves_throw_bind _ _
      · exact staysOpen.writeFile inside rendered
  | staticCopy name source =>
      refine Disk.Change.preserves_get fun d => ?_
      dsimp only
      split
      · exact Disk.Change.preserves_throw_bind _ _
      · exact Disk.Change.preserves_adapt _ (staysOpen.copyTree inside source)

end StaysOpen

end Output

namespace Build

open Output
open Disk.Change (Ends Preserves)

theorem preserves_saveTargets {b : Build} (single : b.SingleTargets) {l : Location}
    {P : Disk → Prop} (staysOpen : StaysOpen b.destination l P) :
    Preserves P (do
      b.modules.forM (saveModule b.destination)
      b.environments.forM (saveEnvironment b.destination)
      b.assets.forM (saveAsset b.destination)) := by
  refine Disk.Change.preserves_bind (Disk.Change.preserves_forM fun m member =>
    staysOpen.saveModule (single.modules m member)) fun _ => ?_
  refine Disk.Change.preserves_bind (Disk.Change.preserves_forM fun e member =>
    staysOpen.saveEnvironment (single.environments e member)) fun _ => ?_
  exact Disk.Change.preserves_forM fun a member => staysOpen.saveAsset (single.assets a member)

/-- Wherever saving stops, it has kept to the destination. -/
theorem confined_save {b : Build} {d : Disk} (single : b.SingleTargets)
    (wellFormed : d.WellFormed) : Confined b.destination d (b.save.run d).2 := by
  let base := ((createAbove b.destination).run d).2
  have above : Confined b.destination d base := confined_createAbove wellFormed
  have tree : base.WellFormed := wellFormed_createAbove b.destination d wellFormed
  -- From the open destination on, every state differs from `base` only below it.
  have inside : ∀ {l now}, base.walk (base.origin b.destination) (Path.names b.destination) =
      .ok (.vacant l) → Placed b.destination l now ∧ Disk.Under l base now →
      Confined b.destination d now := fun reached stays =>
    above.under tree (Disk.walk_vacant reached).1 stays.1 stays.2
  have opened : ∀ {l}, base.walk (base.origin b.destination) (Path.names b.destination) =
      .ok (.vacant l) → Placed b.destination l (base.put l .directory) ∧
        Disk.Under l base (base.put l .directory) := by
    intro l reached
    have under := Disk.under_put base l [] .directory
    rw [List.append_nil] at under
    exact ⟨(placed_put tree reached).1, under⟩
  apply Disk.Change.Ends.state
  unfold save
  apply Disk.Change.ends_bind
  apply (ends_opening b.destination d rfl tree).mono
  · rintro _ _ ⟨-, l, reached, rfl⟩
    have staysOpen := staysOpen_under b.destination l base
    have started := staysOpen.put (opened reached) (List.cons_ne_nil modulesDirectory []) .directory
    apply (Disk.Change.ends_of_preserves (preserves_saveTargets single staysOpen) started).mono
    · exact fun _ _ => inside reached
    · exact fun _ _ => inside reached
  · rintro _ _ (⟨rfl, -⟩ | ⟨rfl, -⟩ | ⟨-, l, reached, rfl⟩)
    · exact Confined.refl _ _
    · exact above
    · exact inside reached (opened reached)

/-- A destination that exists is refused, and nothing happens. -/
theorem save_of_existsAt {b : Build} {d : Disk} (present : d.existsAt b.destination = true) :
    b.save.run d = (.error (.destinationConflict b.destination), d) := by
  have refused : (openDestination b.destination).run d =
      (.error (.destinationConflict b.destination), d) := by
    unfold openDestination
    rw [Disk.Change.run_get_bind]
    dsimp only
    rw [if_pos present]
    rfl
  unfold save
  rw [Disk.Change.run_bind, refused]

/-- Whatever the phases have built, from whatever configuration and files: saving it, wherever it stops,
leaves everything as it stood and creates nothing but the destination, what is below it and the missing
directories above it. A destination that exists is refused. -/
theorem confined_progress {raw : Fields} {destination : String} {context : Context}
    {generatedAt : String} {start : Build} {d : Disk} (keyed : raw.WellKeyed)
    (started : ofConfig raw destination context generatedAt = .ok start) (calls : List Call)
    (wellFormed : d.WellFormed) :
    Confined destination d ((start.progress calls).state.save.run d).2 ∧
      (d.existsAt destination = true → (start.progress calls).state.save.run d =
        (.error (.destinationConflict destination), d)) := by
  have single := singleTargets_progress keyed started calls
  have same : (start.progress calls).state.destination = destination := by
    obtain ⟨platform, -, rfl⟩ := ofConfig_eq_ok_iff.mp started
    exact (continues_progress _ calls).destination
  rw [← same]
  exact ⟨confined_save single wellFormed, save_of_existsAt⟩

/-- One destination is new, the other one is the template root. -/
theorem confined_progress_out :
    ((((Sample.start 0).progress Sample.calls).state.save.run Sample.disk).1 = .ok () ∧
      Confined "out" Sample.disk
        (((Sample.start 0).progress Sample.calls).state.save.run Sample.disk).2) ∧
    ((ofPlatform Sample.platform "root" (Sample.context 0) "now").progress []).state.save.run
        Sample.disk = (.error (.destinationConflict "root"), Sample.disk) := by
  have started : ofConfig Sample.raw "root" (Sample.context 0) "now" =
      .ok (ofPlatform Sample.platform "root" (Sample.context 0) "now") :=
    Sample.ofConfig_of_ofFields rfl "root" 0
  exact ⟨⟨by decide +kernel, (confined_progress Sample.wellKeyed_raw (Sample.ofConfig_raw 0)
      Sample.calls Sample.wellFormed_disk).1⟩,
    (confined_progress Sample.wellKeyed_raw started [] Sample.wellFormed_disk).2
      (by decide +kernel)⟩

end Build

end Groundwork
