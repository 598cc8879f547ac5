import Groundwork.Output
import Groundwork.Proofs.Change

set_option autoImplicit false

/- Directories above a path. Each is reached by leaving away last steps of the path, so creating
those that are missing does not touch the place that a path leads to, unless the path goes up on its
way. -/
namespace Groundwork

namespace Disk

/-- Names that lead nowhere else can be left out of a walk. -/
theorem walk_onward {d : Disk} {l : Location} {names : List String} {s : Spot}
    (found : d.walk l names = .ok s) : d.walk l (Path.onward names) = .ok s := by
  fun_induction walk d l names with
  | case1 l => exact found
  | case2 l rest ih =>
      rw [Path.onward_here]
      exact ih found
  | case3 l rest _ ih =>
      rw [Path.onward_cons (by decide), walk_above]
      exact ih found
  | case4 l name rest notHere notAbove long => cases found
  | case5 l name rest notHere notAbove short stands ih =>
      rw [Path.onward_cons notHere, walk_down notHere notAbove short stands]
      exact ih found
  | case6 l name rest notHere notAbove short content stands last =>
      cases List.isEmpty_iff.mp last
      cases found
      rw [Path.onward_cons notHere]
      exact walk_single notHere notAbove short rfl stands
  | case7 l name rest notHere notAbove short content stands more => cases found
  | case8 l name rest notHere notAbove short stands last =>
      cases List.isEmpty_iff.mp last
      cases found
      rw [Path.onward_cons notHere]
      exact walk_single notHere notAbove short rfl stands
  | case9 l name rest notHere notAbove short stands more => cases found

/-- A path that never goes up leads along its steps, and finds what stands there. -/
theorem walk_steps {d : Disk} {path : String} (noAbove : ".." ∉ Path.steps path) {l : Location}
    (directory : d.entry? l = some .directory) {s : Spot}
    (found : d.walk l (Path.names path) = .ok s) :
    s.location = l ++ Path.steps path ∧ d.entry? (l ++ Path.steps path) = s.standing? := by
  have along : d.walk l (Path.steps path) = .ok s := walk_onward found
  by_cases none : Path.steps path = []
  · rw [none] at along ⊢
    cases along
    rw [List.append_nil]
    exact ⟨rfl, directory⟩
  · refine walk_singles none ?_ along
    intro name member
    obtain ⟨nonempty, unbroken⟩ := Path.of_mem_names (List.mem_filter.mp member).1
    exact ⟨nonempty, unbroken, ne_of_mem_of_not_mem member (Path.here_notMem_onward _),
      ne_of_mem_of_not_mem member noAbove⟩

/-- Everything above a location where something stands is a directory. -/
theorem WellFormed.above {d : Disk} (wellFormed : d.WellFormed) {l : Location} {more : List String}
    (present : d.entry? (l ++ more) ≠ none) (proper : more ≠ []) :
    d.entry? l = some .directory := by
  cases more with
  | nil => exact absurd rfl proper
  | cons name rest =>
      apply wellFormed.parents l name
      intro vacant
      rw [List.append_cons] at present
      exact present (wellFormed.entry?_append vacant rest)

/-- What a walk that never goes up finds, the same walk finds wherever that stands too. -/
theorem WellFormed.walk_of_standing {d now : Disk} (wellFormed : d.WellFormed) {l : Location}
    {names : List String} (noAbove : ".." ∉ names) {s : Spot} (found : now.walk l names = .ok s)
    (place : s.location = l ++ Path.onward names) (present : s.standing? ≠ none)
    (same : d.entry? s.location = s.standing?) : d.walk l names = .ok s := by
  fun_induction walk now l names with
  | case1 l => exact found
  | case2 l rest ih =>
      rw [walk_here]
      rw [Path.onward_here] at place
      exact ih (fun member => noAbove (List.mem_cons_of_mem "." member)) found place
  | case3 l rest _ ih => exact absurd List.mem_cons_self noAbove
  | case4 l name rest notHere notAbove long => cases found
  | case5 l name rest notHere notAbove short stands ih =>
      rw [Path.onward_cons notHere, List.append_cons] at place
      have directory : d.entry? (l ++ [name]) = some .directory := by
        by_cases last : Path.onward rest = []
        · have along := walk_onward found
          rw [last] at along
          cases along
          exact same
        · apply wellFormed.above ?_ last
          rw [← place, same]
          exact present
      rw [walk_down notHere notAbove short directory]
      exact ih (fun member => noAbove (List.mem_cons_of_mem name member)) found place
  | case6 l name rest notHere notAbove short content stands last =>
      cases List.isEmpty_iff.mp last
      cases found
      exact walk_single notHere notAbove short rfl same
  | case7 l name rest notHere notAbove short content stands more => cases found
  | case8 l name rest notHere notAbove short stands last =>
      cases found
      exact absurd rfl present
  | case9 l name rest notHere notAbove short stands more => cases found

/-- The same stands at a place, and paths start from the same directories. -/
structure Untouched (place : Location) (d now : Disk) : Prop where
  wellFormed : now.WellFormed
  workingDirectory : now.workingDirectory = d.workingDirectory
  entry : now.entry? place = d.entry? place

theorem Untouched.origin {place : Location} {d now : Disk} (untouched : Untouched place d now)
    (path : String) : now.origin path = d.origin path := by
  unfold Disk.origin
  rw [untouched.workingDirectory]

/-- Creating a directory leaves every other place as it is. -/
theorem preserves_untouched {place : Location} {d : Disk} {path : String}
    (noAbove : ".." ∉ Path.steps path) (apart : d.origin path ++ Path.steps path ≠ place) :
    Change.Preserves (Untouched place d) (createDirectory path) := by
  intro now untouched
  have tree := preserves_createDirectory path now untouched.wellFormed
  rw [createDirectory_run] at tree ⊢
  split at tree
  · exact untouched
  · rename_i l found
    have reached := walk_of_spot_dropTrailingSlashes found
    have directory := untouched.wellFormed.origin path
    obtain ⟨here, -⟩ := walk_steps noAbove directory reached
    rw [untouched.origin] at here
    have other : place ≠ l := fun same => apart (here.symm.trans same.symm)
    exact ⟨tree, untouched.workingDirectory,
      (entry?_put_of_ne now .directory other).trans untouched.entry⟩
  · exact untouched

/-- A path that never goes up and leads to nothing still does where its own place is untouched. -/
theorem Untouched.existsAt {d now : Disk} {path : String} (wellFormed : d.WellFormed)
    (noAbove : ".." ∉ Path.steps path)
    (untouched : Untouched (d.origin path ++ Path.steps path) d now)
    (absent : d.existsAt (Path.dropTrailingSlashes path) = false) :
    now.existsAt (Path.dropTrailingSlashes path) = false := by
  rw [existsAt_eq_false_iff] at absent ⊢
  intro s found
  by_cases standing : s.standing? = none
  · exact standing
  · have ends := Path.endsWithSlash_dropTrailingSlashes path
    obtain ⟨readable, -⟩ := (spot_eq_ok_iff ends).mp found
    have reached := walk_of_spot_dropTrailingSlashes found
    have directory := untouched.wellFormed.origin path
    obtain ⟨place, stands⟩ := walk_steps noAbove directory reached
    rw [untouched.origin] at reached place stands
    have same : d.entry? s.location = s.standing? := by
      rw [place, ← untouched.entry]
      exact stands
    have onNames : ".." ∉ Path.names path := fun member =>
      noAbove (List.mem_filter.mpr ⟨member, by decide⟩)
    have before := wellFormed.walk_of_standing onNames reached place standing same
    rw [← origin_dropTrailingSlashes d readable.2.1, ← Path.names_dropTrailingSlashes] at before
    exact absent s ((spot_eq_ok_iff ends).mpr ⟨readable, before⟩)

end Disk

namespace Output

open Disk.Change (Ends)

variable {P : Disk → Prop} {among : String → Prop} {destination : String} {d : Disk}

theorem preserves_createAbove
    (each : ∀ path, among path → Disk.Change.Preserves P (Disk.createDirectory path))
    (up : ∀ path parent, among path → Path.parent? path = some parent → parent ≠ "" → among parent)
    (first : ∀ parent, Path.parent? destination = some parent → parent ≠ "" → among parent) :
    Disk.Change.Preserves P (createAbove destination) := by
  unfold createAbove
  split
  · rename_i parent above
    split
    · rename_i nonempty
      exact Disk.Change.preserves_adapt _
        (Disk.preserves_createDirectories each up _ fun _ => first parent above nonempty)
    · exact Disk.Change.preserves_pure ()
  · exact Disk.Change.preserves_pure ()

theorem wellFormed_createAbove (destination : String) :
    Disk.Change.Preserves Disk.WellFormed (createAbove destination) :=
  preserves_createAbove (fun path (_ : True) => Disk.preserves_createDirectory path)
    (fun _ _ _ _ _ => True.intro) fun _ _ _ => True.intro

/-- Creating the directories above fails only by what the file system answers. -/
theorem ends_createAbove (destination : String) (d : Disk) :
    Ends (createAbove destination) d
      (fun _ now => now = ((createAbove destination).run d).2)
      (fun e now => now = ((createAbove destination).run d).2 ∧
        ∀ path, e ≠ .destinationConflict path) := by
  have faults : Ends (createAbove destination) d (fun _ _ => True)
      (fun e _ => ∀ path, e ≠ .destinationConflict path) := by
    unfold createAbove
    split
    · split
      · apply Disk.Change.ends_adapt
        apply (Disk.Change.ends_run _ d).mono (fun _ _ _ => True.intro)
        rintro e _ - path conflict
        cases conflict
      · exact Disk.Change.ends_pure True.intro
    · exact Disk.Change.ends_pure True.intro
  refine ⟨?_⟩
  have outcome := faults.outcome
  revert outcome
  rcases (createAbove destination).run d with ⟨e | a, now⟩
  · exact fun other => ⟨rfl, other⟩
  · exact fun _ => rfl

/-- Creating the directories above a destination that never goes up leaves its own place as it is. -/
theorem untouched_createAbove (wellFormed : d.WellFormed) (noAbove : ".." ∉ Path.steps destination) :
    Disk.Untouched (d.origin destination ++ Path.steps destination) d
      ((createAbove destination).run d).2 := by
  let among : String → Prop := fun path => ".." ∉ Path.steps path ∧
    d.origin path = d.origin destination ∧
    (Path.steps path).length < (Path.steps destination).length
  have shorter : ∀ path parent, ".." ∉ Path.steps path →
      d.origin path = d.origin destination → Path.parent? path = some parent → parent ≠ "" →
      (Path.steps path).length ≤ (Path.steps destination).length → among parent := by
    intro path parent plain start above nonempty short
    obtain ⟨further, along, absolute⟩ := Path.steps_parent above nonempty
    refine ⟨?_, ?_, ?_⟩
    · rw [along]
      exact fun member => plain (List.dropLast_subset _ member)
    · rw [← start, Disk.origin, absolute, Disk.origin]
    · have positive := List.length_pos_iff.mpr further
      rw [along, List.length_dropLast]
      omega
  have each : ∀ path, among path → Disk.Change.Preserves
      (Disk.Untouched (d.origin destination ++ Path.steps destination) d)
      (Disk.createDirectory path) := by
    rintro path ⟨plain, start, short⟩
    refine Disk.preserves_untouched plain fun same => ?_
    rw [start] at same
    rw [List.append_cancel_left same] at short
    exact Nat.lt_irrefl _ short
  refine preserves_createAbove each ?_ ?_ d ⟨wellFormed, rfl, rfl⟩
  · rintro path parent ⟨plain, start, short⟩ above nonempty
    exact shorter path parent plain start above nonempty (Nat.le_of_lt short)
  · intro parent above nonempty
    exact shorter destination parent noAbove rfl above nonempty (Nat.le_refl _)

/-- Creating the directories above the destination does not make it exist, as it would if the way to it
went up again. -/
def StaysAbsent (destination : String) (d : Disk) : Prop :=
  ((createAbove destination).run d).2.existsAt (Path.dropTrailingSlashes destination) = false

/-- A destination that never goes up and does not exist stays absent. -/
theorem staysAbsent_of_steps (wellFormed : d.WellFormed) (noAbove : ".." ∉ Path.steps destination)
    (absent : d.existsAt (Path.dropTrailingSlashes destination) = false) :
    StaysAbsent destination d :=
  (untouched_createAbove wellFormed noAbove).existsAt wellFormed noAbove absent

end Output

end Groundwork
