import Groundwork.Proofs.Outcome
import Groundwork.Proofs.Walk

set_option autoImplicit false

/- Changes of a file system, step by step. A sequence ends where its first failing step ends, with
what was done until then; each operation is described by the one entry that it writes. -/
namespace Groundwork.Disk

namespace Change

variable {ε δ α β : Type}

/-- Where a change that starts from `d` ends, whether it succeeds or fails. -/
structure Ends (c : Change ε α) (d : Disk) (done : α → Disk → Prop) (failed : ε → Disk → Prop) :
    Prop where
  outcome : match c.run d with
    | (.ok a, now) => done a now
    | (.error e, now) => failed e now

theorem run_get_bind (next : Disk → Change ε β) (d : Disk) :
    (get >>= next : Change ε β).run d = (next d).run d := rfl

theorem run_bind (c : Change ε α) (next : α → Change ε β) (d : Disk) :
    (c >>= next).run d =
      match c.run d with
      | (.ok a, now) => (next a).run now
      | (.error e, now) => (.error e, now) := by
  rw [ExceptT.run_bind_apply]
  rcases c.run d with ⟨_ | a, now⟩ <;> rfl

theorem run_adapt (c : Change ε α) (f : ε → δ) (d : Disk) :
    ExceptT.run (c.adapt f) d = ((c.run d).1.mapError f, (c.run d).2) := rfl

/-- A change ends where its run ends. -/
theorem ends_run (c : Change ε α) (d : Disk) :
    Ends c d (fun a now => c.run d = (.ok a, now)) (fun e now => c.run d = (.error e, now)) := by
  refine ⟨?_⟩
  rcases c.run d with ⟨_ | a, now⟩
  · rfl
  · rfl

theorem ends_bind {c : Change ε α} {next : α → Change ε β} {d : Disk}
    {done : β → Disk → Prop} {failed : ε → Disk → Prop}
    (first : Ends c d (fun a now => Ends (next a) now done failed) failed) :
    Ends (c >>= next) d done failed := by
  obtain ⟨first⟩ := first
  refine ⟨?_⟩
  rw [run_bind]
  revert first
  rcases c.run d with ⟨_ | a, now⟩
  · exact id
  · exact Ends.outcome

theorem Ends.mono {c : Change ε α} {d : Disk} {done more : α → Disk → Prop}
    {failed other : ε → Disk → Prop} (ends : Ends c d done failed)
    (success : ∀ a now, done a now → more a now) (failure : ∀ e now, failed e now → other e now) :
    Ends c d more other := by
  obtain ⟨outcome⟩ := ends
  refine ⟨?_⟩
  revert outcome
  rcases c.run d with ⟨e | a, now⟩
  · exact failure e now
  · exact success a now

/-- What holds wherever a change ends holds of the file system it leaves. -/
theorem Ends.state {c : Change ε α} {d : Disk} {Q : Disk → Prop}
    (ends : Ends c d (fun _ now => Q now) (fun _ now => Q now)) : Q (c.run d).2 := by
  obtain ⟨outcome⟩ := ends
  revert outcome
  rcases c.run d with ⟨_ | a, now⟩
  · exact id
  · exact id

/-- Renaming failures leaves everything else as it is. -/
theorem ends_adapt {c : Change ε α} {f : ε → δ} {d : Disk} {done : α → Disk → Prop}
    {failed : δ → Disk → Prop} (ends : Ends c d done fun e now => failed (f e) now) :
    Ends (c.adapt f) d done failed := by
  obtain ⟨outcome⟩ := ends
  refine ⟨?_⟩
  rw [run_adapt]
  revert outcome
  rcases c.run d with ⟨_ | a, now⟩
  · exact id
  · exact id

theorem ends_get {d : Disk} {next : Disk → Change ε β} {done : β → Disk → Prop}
    {failed : ε → Disk → Prop} (ends : Ends (next d) d done failed) :
    Ends (get >>= next : Change ε β) d done failed := ⟨ends.outcome⟩

theorem ends_pure {d : Disk} {a : α} {done : α → Disk → Prop} {failed : ε → Disk → Prop}
    (holds : done a d) : Ends (pure a : Change ε α) d done failed := ⟨holds⟩

theorem ends_throw {d : Disk} {e : ε} {done : α → Disk → Prop} {failed : ε → Disk → Prop}
    (holds : failed e d) : Ends (throw e : Change ε α) d done failed := ⟨holds⟩

theorem ends_set {d now : Disk} {done : PUnit → Disk → Prop} {failed : ε → Disk → Prop}
    (holds : done ⟨⟩ now) : Ends (set now : Change ε PUnit) d done failed := ⟨holds⟩

theorem ends_modify {d : Disk} {f : Disk → Disk} {done : Unit → Disk → Prop}
    {failed : ε → Disk → Prop} (holds : done () (f d)) :
    Ends (modify f : Change ε Unit) d done failed := ⟨holds⟩

end Change

theorem createDirectory_run (path : String) (d : Disk) :
    (createDirectory path).run d =
      match d.spot (Path.dropTrailingSlashes path) with
      | .error e => (.error e, d)
      | .ok (.vacant l) => (.ok (), d.put l .directory)
      | .ok _ => (.error .alreadyExists, d) := by
  unfold createDirectory
  rw [Change.run_get_bind]
  rcases d.spot (Path.dropTrailingSlashes path) with e | s
  · rfl
  · cases s <;> rfl

theorem ends_createDirectory (path : String) (d : Disk) :
    Change.Ends (createDirectory path) d
      (fun _ now => d.existsAt (Path.dropTrailingSlashes path) = false ∧
        ∃ l, d.walk (d.origin path) (Path.names path) = .ok (.vacant l) ∧
          now = d.put l .directory)
      (fun e now => now = d ∧
        (e = .alreadyExists → d.existsAt (Path.dropTrailingSlashes path) = true)) := by
  unfold createDirectory
  apply Change.ends_get
  split
  · rename_i e found
    apply Change.ends_throw
    refine ⟨rfl, ?_⟩
    rintro rfl
    exact absurd found (spot_ne_alreadyExists d _)
  · rename_i l found
    apply Change.ends_set
    refine ⟨?_, l, walk_of_spot_dropTrailingSlashes found, rfl⟩
    simp [existsAt, isFile, isDirectory, found]
  · rename_i s present found
    apply Change.ends_throw
    refine ⟨rfl, fun _ => ?_⟩
    cases s with
    | directory l => simp [existsAt, isDirectory, found]
    | file l content => simp [existsAt, isFile, found]
    | vacant l => exact absurd rfl (present l)

theorem ends_writeFile (path text : String) (d : Disk) :
    Change.Ends (writeFile path text) d
      (fun _ now => ∃ s, d.spot path = .ok s ∧ now = d.put s.location (.file text.toUTF8))
      (fun _ now => now = d) := by
  unfold writeFile
  apply Change.ends_get
  split
  · exact Change.ends_throw rfl
  · exact Change.ends_throw rfl
  · rename_i found
    exact Change.ends_set ⟨_, found, rfl⟩
  · rename_i found
    exact Change.ends_set ⟨_, found, rfl⟩

/-- Everything listed below a location stands below it. -/
theorem ne_nil_of_mem_below {d : Disk} {l : Location} {entry : Location × Entry}
    (member : entry ∈ d.below l) : entry.1 ≠ [] := by
  obtain ⟨original, listed, rfl⟩ := List.mem_map.mp member
  have condition := (List.mem_filter.mp listed).2
  simp only [Bool.and_eq_true, List.isPrefixOf_iff_prefix, decide_eq_true_eq] at condition
  obtain ⟨⟨more, whole⟩, other⟩ := condition
  intro empty
  have last : more = [] := by
    rw [← whole] at empty
    simpa using empty
  rw [last, List.append_nil] at whole
  exact other whole.symm

/-- Writes these entries below a location, in order. -/
def putAll (d : Disk) (l : Location) (entries : List (Location × Entry)) : Disk :=
  entries.foldl (fun now e => now.put (l ++ e.1) e.2) d

theorem putAll_cons (d : Disk) (l : Location) (entry : Location × Entry)
    (rest : List (Location × Entry)) :
    d.putAll l (entry :: rest) = (d.put (l ++ entry.1) entry.2).putAll l rest := rfl

theorem under_putAll (d : Disk) (place : Location) (entries : List (Location × Entry)) :
    Under place d (d.putAll place entries) := by
  induction entries generalizing d with
  | nil => exact Under.refl place d
  | cons entry rest ih => exact (under_put d place entry.1 entry.2).trans (ih _)

theorem entry?_putAll_of_ne {l k : Location} {entries : List (Location × Entry)}
    (apart : ∀ e ∈ entries, k ≠ l ++ e.1) (d : Disk) :
    entry? (d.putAll l entries) k = d.entry? k := by
  induction entries generalizing d with
  | nil => rfl
  | cons entry rest ih =>
      rw [putAll_cons, ih fun e member => apart e (List.mem_cons_of_mem entry member)]
      exact entry?_put_of_ne d entry.2 (apart entry List.mem_cons_self)

/-- Nothing that is listed below a location is written to the place itself. -/
theorem ne_append_of_mem_below {d : Disk} {l : Location} (place : Location) :
    ∀ e ∈ d.below l, place ≠ place ++ e.1 := by
  intro e member
  simpa using ne_nil_of_mem_below member

/-- A copied tree is a new directory with everything that is listed below the source. -/
theorem ends_copyTree (source : String) {target : String}
    (ends : Path.endsWithSlash target = false) (d : Disk) :
    Change.Ends (copyTree source target) d
      (fun _ now => ∃ origin place, d.spot source = .ok (.directory origin) ∧
        d.walk (d.origin target) (Path.names target) = .ok (.vacant place) ∧
        now = (d.put place .directory).putAll place (d.below origin))
      (fun _ _ => True) := by
  unfold copyTree
  apply Change.ends_get
  split
  · exact Change.ends_throw True.intro
  · rename_i origin located
    apply Change.ends_bind
    apply (ends_createDirectory target d).mono ?_ (fun _ _ _ => True.intro)
    rintro _ _ ⟨-, l, reached, rfl⟩
    apply Change.ends_get
    split
    · rename_i place found
      have again := walk_of_spot ends found
      have leads : (d.put l .directory).walk ((d.put l .directory).origin target)
        (Path.names target) = .ok (.directory l) := (walk_vacant reached).2
      rw [leads] at again
      cases again
      exact Change.ends_modify ⟨origin, l, located, reached, rfl⟩
    · exact Change.ends_throw True.intro
    · exact Change.ends_throw True.intro
  · exact Change.ends_throw True.intro

namespace Change

variable {ε α β : Type}

/-- However a change ends, what holds before it holds behind it. -/
def Preserves (P : Disk → Prop) (c : Change ε α) : Prop := ∀ d, P d → P (c.run d).2

variable {P : Disk → Prop}

theorem preserves_bind {c : Change ε α} {next : α → Change ε β} (first : Preserves P c)
    (second : ∀ a, Preserves P (next a)) : Preserves P (c >>= next) := by
  intro d holds
  have middle := first d holds
  rw [run_bind]
  revert middle
  rcases c.run d with ⟨_ | a, now⟩
  · exact id
  · exact second a now

theorem preserves_tryCatch {c : Change ε α} {handler : ε → Change ε α} (first : Preserves P c)
    (second : ∀ e, Preserves P (handler e)) : Preserves P (tryCatch c handler) := by
  intro d holds
  have middle := first d holds
  have run : (tryCatch c handler).run d =
      match c.run d with
      | (.ok a, now) => (.ok a, now)
      | (.error e, now) => (handler e).run now := by
    have unfolded : (tryCatch c handler).run d =
        (match (c.run d).1 with
          | .ok a => (pure (.ok a) : StateM Disk (Except ε α))
          | .error e => handler e) (c.run d).2 := rfl
    rw [unfolded]
    rcases c.run d with ⟨_ | a, now⟩ <;> rfl
  rw [run]
  revert middle
  rcases c.run d with ⟨e | a, now⟩
  · exact second e now
  · exact id

theorem preserves_adapt {c : Change ε α} (f : ε → β) (holds : Preserves P c) :
    Preserves P (c.adapt f : Change β α) := holds

theorem preserves_get {next : Disk → Change ε α} (each : ∀ d, Preserves P (next d)) :
    Preserves P (get >>= next) := fun d => each d d

theorem preserves_pure (a : α) : Preserves P (pure a : Change ε α) := fun _ => id

theorem preserves_throw (e : ε) : Preserves P (throw e : Change ε α) := fun _ => id

theorem ends_of_preserves {c : Change ε α} {d : Disk} (preserves : Preserves P c) (holds : P d) :
    Ends c d (fun _ now => P now) (fun _ now => P now) := by
  refine ⟨?_⟩
  have kept := preserves d holds
  revert kept
  rcases c.run d with ⟨_ | a, now⟩
  · exact id
  · exact id

theorem preserves_of_ends {c : Change ε α}
    (ends : ∀ d, P d → Ends c d (fun _ now => P now) (fun _ now => P now)) : Preserves P c :=
  fun d holds => (ends d holds).state

theorem preserves_forM {β : Type} {each : β → Change ε Unit} {xs : List β}
    (step : ∀ x ∈ xs, Preserves P (each x)) : Preserves P (xs.forM each) := by
  induction xs with
  | nil => exact preserves_pure ()
  | cons x rest ih =>
      exact preserves_bind (step x List.mem_cons_self) fun _ =>
        ih fun y member => step y (List.mem_cons_of_mem x member)

theorem preserves_throw_bind (e : ε) (next : α → Change ε β) :
    Preserves P ((throw e : Change ε α) >>= next) := fun _ => id

end Change

theorem preserves_createDirectory (path : String) :
    Change.Preserves WellFormed (createDirectory path) := by
  intro d wellFormed
  rw [createDirectory_run]
  split
  · exact wellFormed
  · rename_i l found
    have reached := walk_of_spot_dropTrailingSlashes found
    obtain ⟨parent, name, rfl, directory⟩ :=
      wellFormed.walk_vacant (wellFormed.origin path) reached
    exact wellFormed.put directory (walk_vacant reached).1 .directory
  · exact wellFormed

/-- What creating any one of these directories keeps, creating those that are missing keeps, if the
directories above one of them are among them. -/
theorem preserves_createDirectories {P : Disk → Prop} {among : String → Prop}
    (each : ∀ path, among path → Change.Preserves P (createDirectory path))
    (up : ∀ path parent, among path → Path.parent? path = some parent → parent ≠ "" → among parent)
    (fuel : Nat) {path : String} (member : path ≠ "" → among path) :
    Change.Preserves P (createDirectories fuel path) := by
  induction fuel generalizing path with
  | zero => exact Change.preserves_pure ()
  | succ fuel ih =>
      rw [createDirectories]
      dsimp only
      split
      · exact Change.preserves_pure ()
      · rename_i nonempty
        have here := each path (member nonempty)
        have retry : Change.Preserves P
            (tryCatch (createDirectory path) fun e => do
              if (← get).isDirectory path then return else throw e) := by
          refine Change.preserves_tryCatch here fun e => ?_
          refine Change.preserves_get fun d => ?_
          split
          · exact Change.preserves_pure ()
          · exact Change.preserves_throw e
        refine Change.preserves_tryCatch here fun e => ?_
        split
        · refine Change.preserves_get fun d => ?_
          split
          · exact Change.preserves_pure ()
          · exact Change.preserves_throw_bind e _
        · split
          · rename_i parent above
            exact Change.preserves_bind (ih (up path parent (member nonempty) above)) fun _ => retry
          · exact Change.preserves_throw_bind e _

end Groundwork.Disk
