import Groundwork.Disk
import Groundwork.Proofs.Path

set_option autoImplicit false

/- Walking through a file system. Entries are looked up after a write, a walk that reaches a
directory can be continued from there, and what a path leads to is what stands at the location
reached. -/
namespace Groundwork.Disk

/-- Where the walk along a path starts. -/
def origin (d : Disk) (path : String) : Location :=
  if Path.isAbsolute path then [] else d.workingDirectory

namespace Spot

def location : Spot → Location
  | .directory l => l
  | .file l _ => l
  | .vacant l => l

def standing? : Spot → Option Entry
  | .directory _ => some .directory
  | .file _ content => some (.file content)
  | .vacant _ => none

end Spot

theorem lookup_filter_ne (entries : List (Location × Entry)) {l k : Location} (apart : k ≠ l) :
    (entries.filter (·.1 ≠ l)).lookup k = entries.lookup k := by
  induction entries with
  | nil => rfl
  | cons entry rest ih =>
      rw [List.filter_cons]
      split
      · rw [List.lookup_cons, List.lookup_cons, ih]
      · rename_i dropped
        have here : entry.1 = l := by simpa using dropped
        have other : (k == entry.1) = false := by simpa [here] using apart
        rw [ih, List.lookup_cons, other]

theorem lookup_filter_self (entries : List (Location × Entry)) (l : Location) :
    (entries.filter (·.1 ≠ l)).lookup l = none := by
  rw [List.lookup_eq_none_iff]
  intro entry kept
  have other : entry.1 ≠ l := of_decide_eq_true (List.mem_filter.mp kept).2
  simpa using other.symm

theorem mem_of_lookup {entries : List (Location × Entry)} {k : Location} {e : Entry}
    (found : entries.lookup k = some e) : (k, e) ∈ entries := by
  obtain ⟨before, behind, split, -⟩ := List.lookup_eq_some_iff.mp found
  rw [split]
  exact List.mem_append_right before List.mem_cons_self

theorem entry?_put_of_ne (d : Disk) {l k : Location} (e : Entry) (apart : k ≠ l) :
    entry? (d.put l e) k = d.entry? k := by
  have last : [(l, e)].lookup k = none := by simpa using apart
  unfold entry? put
  rw [List.lookup_append, lookup_filter_ne d.entries apart, last, Option.or_none]

theorem entry?_put_self (d : Disk) {l : Location} (e : Entry) (below : l ≠ []) :
    entry? (d.put l e) l = some e := by
  unfold entry? put
  rw [if_neg below, List.lookup_append, lookup_filter_self d.entries l, List.lookup_cons_self,
    Option.none_or]

theorem walk_here (d : Disk) (l : Location) (rest : List String) :
    d.walk l ("." :: rest) = d.walk l rest := by
  rw [walk, if_pos rfl]

theorem walk_above (d : Disk) (l : Location) (rest : List String) :
    d.walk l (".." :: rest) = d.walk l.dropLast rest := by
  rw [walk, if_neg (by decide), if_pos rfl]

theorem walk_down {d : Disk} {l : Location} {name : String} {rest : List String}
    (notHere : name ≠ ".") (notAbove : name ≠ "..") (short : ¬ nameLimit < name.utf8ByteSize)
    (stands : d.entry? (l ++ [name]) = some .directory) :
    d.walk l (name :: rest) = d.walk (l ++ [name]) rest := by
  rw [walk, if_neg notHere, if_neg notAbove, if_neg short, stands]

/-- One step down from an existing directory leads to what stands there. -/
theorem walk_single {d : Disk} {l : Location} {name : String} (notHere : name ≠ ".")
    (notAbove : name ≠ "..") (short : ¬ nameLimit < name.utf8ByteSize) {s : Spot}
    (place : s.location = l ++ [name]) (stands : d.entry? (l ++ [name]) = s.standing?) :
    d.walk l [name] = .ok s := by
  rw [walk, if_neg notHere, if_neg notAbove, if_neg short, stands]
  cases s with
  | directory k =>
      cases place
      rfl
  | file k content =>
      cases place
      rfl
  | vacant k =>
      cases place
      rfl

theorem walk_append {d : Disk} {start l : Location} {first : List String}
    (reached : d.walk start first = .ok (.directory l)) (second : List String) :
    d.walk start (first ++ second) = d.walk l second := by
  fun_induction walk d start first with
  | case1 start =>
      cases reached
      rfl
  | case2 start rest ih =>
      rw [List.cons_append, walk_here]
      exact ih reached
  | case3 start rest _ ih =>
      rw [List.cons_append, walk_above]
      exact ih reached
  | case4 start name rest notHere notAbove long => cases reached
  | case5 start name rest notHere notAbove short found ih =>
      rw [List.cons_append, walk_down notHere notAbove short found]
      exact ih reached
  | case6 start name rest notHere notAbove short content found last => cases reached
  | case7 start name rest notHere notAbove short content found more => cases reached
  | case8 start name rest notHere notAbove short found last => cases reached
  | case9 start name rest notHere notAbove short found more => cases reached

/-- A step down ends at what stands below, or goes on from a directory there. -/
theorem walk_step {d : Disk} {l : Location} {name : String} {rest : List String}
    (single : Path.Single name) {s : Spot} (found : d.walk l (name :: rest) = .ok s) :
    (rest = [] ∧ s.location = l ++ [name] ∧ d.entry? (l ++ [name]) = s.standing?) ∨
      (d.walk (l ++ [name]) rest = .ok s ∧ d.entry? (l ++ [name]) = some .directory) := by
  rw [walk, if_neg single.notHere, if_neg single.notAbove] at found
  split at found
  · cases found
  · split at found
    · rename_i stands
      exact .inr ⟨found, stands⟩
    · rename_i content stands
      split at found
      · rename_i last
        cases found
        exact .inl ⟨List.isEmpty_iff.mp last, rfl, stands⟩
      · cases found
    · rename_i stands
      split at found
      · rename_i last
        cases found
        exact .inl ⟨List.isEmpty_iff.mp last, rfl, stands⟩
      · cases found

/-- Steps down that lead anywhere lead to the location below, and find what stands there. -/
theorem walk_singles {d : Disk} {l : Location} {names : List String} (down : names ≠ [])
    (singles : ∀ name ∈ names, Path.Single name) {s : Spot} (found : d.walk l names = .ok s) :
    s.location = l ++ names ∧ d.entry? (l ++ names) = s.standing? := by
  induction names generalizing l with
  | nil => exact absurd rfl down
  | cons name rest ih =>
      rcases walk_step (singles name List.mem_cons_self) found with
        ⟨rfl, here, stands⟩ | ⟨further, stands⟩
      · exact ⟨here, stands⟩
      · cases rest with
        | nil =>
            cases further
            exact ⟨rfl, stands⟩
        | cons next more =>
            rw [List.append_cons]
            exact ih (List.cons_ne_nil next more)
              (fun other member => singles other (List.mem_cons_of_mem name member)) further

/-- A vacant location has nothing, and creating a directory there lets the walk lead to it. -/
theorem walk_vacant {d : Disk} {start l : Location} {names : List String}
    (reached : d.walk start names = .ok (.vacant l)) :
    d.entry? l = none ∧ (d.put l .directory).walk start names = .ok (.directory l) := by
  fun_induction walk d start names with
  | case1 start => cases reached
  | case2 start rest ih =>
      rw [walk_here]
      exact ih reached
  | case3 start rest _ ih =>
      rw [walk_above]
      exact ih reached
  | case4 start name rest notHere notAbove long => cases reached
  | case5 start name rest notHere notAbove short found ih =>
      obtain ⟨empty, reaches⟩ := ih reached
      have apart : start ++ [name] ≠ l := by
        rintro rfl
        rw [empty] at found
        cases found
      have kept : entry? (d.put l .directory) (start ++ [name]) = some .directory := by
        rw [entry?_put_of_ne d .directory apart]
        exact found
      rw [walk_down notHere notAbove short kept]
      exact ⟨empty, reaches⟩
  | case6 start name rest notHere notAbove short content found last => cases reached
  | case7 start name rest notHere notAbove short content found more => cases reached
  | case8 start name rest notHere notAbove short found last =>
      cases reached
      have below : start ++ [name] ≠ [] := by simp
      cases List.isEmpty_iff.mp last
      rw [walk_down notHere notAbove short (entry?_put_self d .directory below)]
      exact ⟨found, rfl⟩
  | case9 start name rest notHere notAbove short found more => cases reached

/-- What a text leads to, if it is a path at all, is where the walk along its names ends. -/
theorem spot_eq_ok_iff {d : Disk} {path : String} (ends : Path.endsWithSlash path = false)
    {s : Spot} :
    d.spot path = .ok s ↔
      ('\x00' ∉ path.toList ∧ path ≠ "" ∧ path.utf8ByteSize ≤ pathLimit) ∧
        d.walk (d.origin path) (Path.names path) = .ok s := by
  unfold spot origin
  rw [ends]
  split
  · rename_i null
    simp [List.contains_iff_mem.mp null]
  · rename_i plain
    rw [List.contains_iff_mem] at plain
    split
    · rename_i empty
      simp [empty]
    · rename_i nonempty
      split
      · rename_i long
        simp [Nat.not_le.mpr long]
      · rename_i short
        simp [plain, nonempty, Nat.not_lt.mp short]

theorem walk_of_spot {d : Disk} {path : String} (ends : Path.endsWithSlash path = false) {s : Spot}
    (found : d.spot path = .ok s) : d.walk (d.origin path) (Path.names path) = .ok s :=
  ((spot_eq_ok_iff ends).mp found).2

theorem walk_ne_alreadyExists (d : Disk) (l : Location) (names : List String) :
    d.walk l names ≠ .error .alreadyExists := by
  fun_induction walk d l names <;> simp_all

/-- Following a path never fails because something exists. -/
theorem spot_ne_alreadyExists (d : Disk) (path : String) :
    d.spot path ≠ .error .alreadyExists := by
  unfold spot
  split
  · intro failed
    cases failed
  · split
    · intro failed
      cases failed
    · split
      · intro failed
        cases failed
      · exact walk_ne_alreadyExists d _ _

theorem existsAt_eq_false_iff {d : Disk} {path : String} :
    d.existsAt path = false ↔ ∀ s, d.spot path = .ok s → s.standing? = none := by
  unfold existsAt isFile isDirectory
  cases d.spot path with
  | error e => simp
  | ok s => cases s <;> simp [Spot.standing?]

theorem spot_empty (d : Disk) : d.spot "" = .error .notFound := rfl

theorem origin_dropTrailingSlashes (d : Disk) {path : String}
    (kept : Path.dropTrailingSlashes path ≠ "") :
    d.origin (Path.dropTrailingSlashes path) = d.origin path := by
  unfold origin
  rw [Path.isAbsolute_dropTrailingSlashes path kept]

/-- Leaving away trailing slashes changes nothing but the demand for a directory. -/
theorem walk_of_spot_dropTrailingSlashes {d : Disk} {path : String} {s : Spot}
    (found : d.spot (Path.dropTrailingSlashes path) = .ok s) :
    d.walk (d.origin path) (Path.names path) = .ok s := by
  have kept : Path.dropTrailingSlashes path ≠ "" := by
    intro empty
    rw [empty, spot_empty] at found
    cases found
  have reached := walk_of_spot (Path.endsWithSlash_dropTrailingSlashes path) found
  rwa [origin_dropTrailingSlashes d kept, Path.names_dropTrailingSlashes] at reached

/-- Everything stands in a directory, and the working directory is one. -/
structure WellFormed (d : Disk) : Prop where
  home : d.entry? d.workingDirectory = some .directory
  parents : ∀ l name, d.entry? (l ++ [name]) ≠ none → d.entry? l = some .directory

theorem wellFormed_of_entries {d : Disk} (home : d.entry? d.workingDirectory = some .directory)
    (each : ∀ e ∈ d.entries, d.entry? e.1.dropLast = some .directory) : d.WellFormed := by
  refine ⟨home, ?_⟩
  intro l name present
  have below : l ++ [name] ≠ [] := by simp
  unfold entry? at present
  rw [if_neg below] at present
  obtain ⟨e, found⟩ := Option.ne_none_iff_exists'.mp present
  have directory := each _ (mem_of_lookup found)
  rwa [List.dropLast_concat] at directory

theorem WellFormed.dropLast {d : Disk} (wellFormed : d.WellFormed) {l : Location}
    (directory : d.entry? l = some .directory) : d.entry? l.dropLast = some .directory := by
  rcases List.eq_nil_or_concat l with rfl | ⟨front, name, rfl⟩
  · exact directory
  · rw [List.concat_eq_append] at directory ⊢
    rw [List.dropLast_concat]
    apply wellFormed.parents front name
    rw [directory]
    exact Option.some_ne_none _

/-- Nothing stands below a vacant location. -/
theorem WellFormed.entry?_append {d : Disk} (wellFormed : d.WellFormed) {l : Location}
    (vacant : d.entry? l = none) (more : List String) : d.entry? (l ++ more) = none := by
  induction more generalizing l with
  | nil => rwa [List.append_nil]
  | cons name rest ih =>
      have next : d.entry? (l ++ [name]) = none := by
        cases present : d.entry? (l ++ [name]) with
        | none => rfl
        | some e =>
            have directory := wellFormed.parents l name (present ▸ Option.some_ne_none e)
            rw [vacant] at directory
            cases directory
      rw [List.append_cons]
      exact ih next

theorem WellFormed.origin {d : Disk} (wellFormed : d.WellFormed) (path : String) :
    d.entry? (d.origin path) = some .directory := by
  unfold Disk.origin
  split
  · rfl
  · exact wellFormed.home

/-- A vacant location that a walk leads to is in a directory. -/
theorem WellFormed.walk_vacant {d : Disk} (wellFormed : d.WellFormed) {start l : Location}
    {names : List String} (directory : d.entry? start = some .directory)
    (reached : d.walk start names = .ok (.vacant l)) :
    ∃ parent name, l = parent ++ [name] ∧ d.entry? parent = some .directory := by
  fun_induction walk d start names with
  | case1 start => cases reached
  | case2 start rest ih => exact ih directory reached
  | case3 start rest _ ih => exact ih (wellFormed.dropLast directory) reached
  | case4 start name rest notHere notAbove long => cases reached
  | case5 start name rest notHere notAbove short found ih => exact ih found reached
  | case6 start name rest notHere notAbove short content found last => cases reached
  | case7 start name rest notHere notAbove short content found more => cases reached
  | case8 start name rest notHere notAbove short found last =>
      cases reached
      exact ⟨start, name, rfl, directory⟩
  | case9 start name rest notHere notAbove short found more => cases reached

/-- Another file system has these directories too. -/
def KeepsDirectories (d now : Disk) : Prop :=
  ∀ l, d.entry? l = some .directory → now.entry? l = some .directory

/-- A walk to a directory leads there wherever all directories are kept. -/
theorem KeepsDirectories.walk {d now : Disk} (keeps : d.KeepsDirectories now) {start : Location}
    {names : List String} {reached : Location}
    (found : d.walk start names = .ok (.directory reached)) :
    now.walk start names = .ok (.directory reached) := by
  fun_induction Disk.walk d start names with
  | case1 start =>
      cases found
      rfl
  | case2 start rest ih =>
      rw [walk_here]
      exact ih found
  | case3 start rest _ ih =>
      rw [walk_above]
      exact ih found
  | case4 start name rest notHere notAbove long => cases found
  | case5 start name rest notHere notAbove short stands ih =>
      rw [walk_down notHere notAbove short (keeps _ stands)]
      exact ih found
  | case6 start name rest notHere notAbove short content stands last => cases found
  | case7 start name rest notHere notAbove short content stands more => cases found
  | case8 start name rest notHere notAbove short stands last => cases found
  | case9 start name rest notHere notAbove short stands more => cases found

/-- Writing to a vacant location keeps all directories. -/
theorem keepsDirectories_put {d : Disk} {l : Location} (vacant : d.entry? l = none) (e : Entry) :
    d.KeepsDirectories (d.put l e) := by
  intro k directory
  have apart : k ≠ l := by
    rintro rfl
    rw [vacant] at directory
    cases directory
  rw [entry?_put_of_ne d e apart]
  exact directory

theorem WellFormed.put {d : Disk} (wellFormed : d.WellFormed) {parent : Location} {name : String}
    (directory : d.entry? parent = some .directory) (vacant : d.entry? (parent ++ [name]) = none)
    (e : Entry) : (d.put (parent ++ [name]) e).WellFormed := by
  have keeps := keepsDirectories_put vacant e
  refine ⟨keeps _ wellFormed.home, ?_⟩
  intro l other present
  apply keeps
  by_cases same : l ++ [other] = parent ++ [name]
  · rw [(List.append_inj' same rfl).1]
    exact directory
  · rw [entry?_put_of_ne d e same] at present
    exact wellFormed.parents l other present

/-- Nothing differs but entries at a place or below it. -/
structure Under (place : Location) (d now : Disk) : Prop where
  workingDirectory : now.workingDirectory = d.workingDirectory
  frame : ∀ k, ¬ place <+: k → now.entry? k = d.entry? k

theorem Under.refl (place : Location) (d : Disk) : Under place d d := ⟨rfl, fun _ _ => rfl⟩

theorem Under.trans {place : Location} {d middle now : Disk} (first : Under place d middle)
    (second : Under place middle now) : Under place d now :=
  ⟨second.workingDirectory.trans first.workingDirectory,
    fun k outside => (second.frame k outside).trans (first.frame k outside)⟩

theorem Under.widen {place : Location} {more : List String} {d now : Disk}
    (under : Under (place ++ more) d now) : Under place d now :=
  ⟨under.workingDirectory,
    fun k outside => under.frame k fun inside =>
      outside ((List.prefix_append place more).trans inside)⟩

theorem under_put (d : Disk) (place : Location) (more : List String) (e : Entry) :
    Under place d (d.put (place ++ more) e) := by
  refine ⟨rfl, fun k outside => entry?_put_of_ne d e ?_⟩
  rintro rfl
  exact outside (List.prefix_append place more)

/-- A walk that needs nothing below a place does not notice changes there. -/
theorem Under.walk {l start : Location} {d now : Disk} (under : Under l d now)
    (same : now.entry? l = d.entry? l) (bare : ∀ name more, d.entry? (l ++ name :: more) = none)
    {names : List String} {reached : Location}
    (found : d.walk start names = .ok (.directory reached)) :
    now.walk start names = .ok (.directory reached) := by
  have keeps : d.KeepsDirectories now := by
    intro k directory
    by_cases inside : l <+: k
    · obtain ⟨more, rfl⟩ := inside
      cases more with
      | nil =>
          rw [List.append_nil] at directory ⊢
          rw [same]
          exact directory
      | cons name rest =>
          rw [bare name rest] at directory
          cases directory
    · rw [under.frame k inside]
      exact directory
  exact keeps.walk found

end Groundwork.Disk
