import Groundwork.Proofs.Frame
import Mathlib.Data.List.Nodup

set_option autoImplicit false

/- Trees of a file system. A file system that lists no location twice has exactly what is listed,
and a tree that is written to a vacant location stands there as it was listed. -/
namespace Groundwork.Disk

/-- No location is listed twice. -/
def Distinct (d : Disk) : Prop := (d.entries.map (·.1)).Nodup

variable {d now : Disk} {l : Location}

theorem lookup_of_mem {entries : List (Location × Entry)} (distinct : (entries.map (·.1)).Nodup)
    {entry : Location × Entry} (member : entry ∈ entries) :
    entries.lookup entry.1 = some entry.2 := by
  induction entries with
  | nil => cases member
  | cons first rest ih =>
      obtain ⟨fresh, others⟩ := List.nodup_cons.mp distinct
      rw [List.lookup_cons]
      rcases List.mem_cons.mp member with rfl | later
      · rw [beq_self_eq_true]
      · have apart : entry.1 ≠ first.1 := by
          intro same
          apply fresh
          show first.1 ∈ _
          rw [← same]
          exact List.mem_map_of_mem later
        rw [beq_eq_false_iff_ne.mpr apart]
        exact ih others later

/-- What is listed below a location is what stands there. -/
theorem Distinct.mem_below_iff (distinct : d.Distinct) {rel : Location} {e : Entry} :
    (rel, e) ∈ d.below l ↔ rel ≠ [] ∧ d.entry? (l ++ rel) = some e := by
  constructor
  · intro member
    have proper : rel ≠ [] := ne_nil_of_mem_below member
    refine ⟨proper, ?_⟩
    obtain ⟨⟨k, other⟩, listed, same⟩ := List.mem_map.mp member
    obtain ⟨inside, condition⟩ := List.mem_filter.mp listed
    simp only [Bool.and_eq_true, List.isPrefixOf_iff_prefix] at condition
    obtain ⟨more, rfl⟩ := condition.1
    rw [Prod.mk.injEq, List.drop_left] at same
    obtain ⟨rfl, rfl⟩ := same
    unfold entry?
    rw [if_neg (List.append_ne_nil_of_right_ne_nil l proper)]
    exact lookup_of_mem distinct inside
  · rintro ⟨proper, stands⟩
    unfold entry? at stands
    rw [if_neg (List.append_ne_nil_of_right_ne_nil l proper)] at stands
    refine List.mem_map.mpr ⟨(l ++ rel, e), List.mem_filter.mpr ⟨mem_of_lookup stands, ?_⟩, ?_⟩
    · simp [proper]
    · rw [List.drop_left]

theorem Distinct.below (distinct : d.Distinct) (l : Location) :
    ((d.below l).map (·.1)).Nodup := by
  have kept : ((d.entries.filter fun e => l.isPrefixOf e.1 && e.1 ≠ l).map (·.1)).Nodup :=
    distinct.sublist (List.filter_sublist.map _)
  have listed : (d.below l).map (·.1) =
      ((d.entries.filter fun e => l.isPrefixOf e.1 && e.1 ≠ l).map (·.1)).map
        (List.drop l.length) := by
    simp only [Disk.below, List.map_map, Function.comp_def]
  rw [listed]
  refine List.Nodup.map_on ?_ kept
  intro x first y second same
  have starts : ∀ k ∈ (d.entries.filter fun e => l.isPrefixOf e.1 && e.1 ≠ l).map (·.1),
      l <+: k := by
    intro k member
    obtain ⟨e, inside, rfl⟩ := List.mem_map.mp member
    have condition := (List.mem_filter.mp inside).2
    simp only [Bool.and_eq_true, List.isPrefixOf_iff_prefix] at condition
    exact condition.1
  obtain ⟨u, rfl⟩ := starts x first
  obtain ⟨v, rfl⟩ := starts y second
  rw [List.drop_left, List.drop_left] at same
  rw [same]

theorem Distinct.put (distinct : d.Distinct) (l : Location) (e : Entry) :
    (d.put l e).Distinct := by
  unfold Distinct Disk.put
  rw [List.map_append]
  refine List.nodup_append.mpr
    ⟨distinct.sublist (List.filter_sublist.map _), List.pairwise_singleton _ _, ?_⟩
  intro k member other last
  obtain ⟨entry, kept, rfl⟩ := List.mem_map.mp member
  rw [List.mem_singleton.mp last]
  exact of_decide_eq_true (List.mem_filter.mp kept).2

theorem Distinct.putAll (distinct : d.Distinct) (l : Location)
    (entries : List (Location × Entry)) : (d.putAll l entries).Distinct := by
  induction entries generalizing d with
  | nil => exact distinct
  | cons entry rest ih => exact ih (distinct.put (l ++ entry.1) entry.2)

theorem preserves_distinct (path : String) :
    Change.Preserves Distinct (createDirectory path) := by
  intro d distinct
  rw [createDirectory_run]
  split
  · exact distinct
  · exact distinct.put _ _
  · exact distinct

/-- A tree that hangs from the last of these steps: nothing in it is listed twice, and all but its root
stands in a directory of the tree. -/
structure Hangs (steps : List String) (tree : List (Location × Entry)) : Prop where
  distinct : (tree.map (·.1)).Nodup
  below : ∀ entry ∈ tree, steps <+: entry.1
  parents : ∀ rel name e, (rel ++ [name], e) ∈ tree →
    rel ++ [name] = steps ∨ (rel, .directory) ∈ tree

theorem entry?_putAll_of_mem {tree : List (Location × Entry)} (distinct : (tree.map (·.1)).Nodup)
    {entry : Location × Entry} (member : entry ∈ tree) (below : l ++ entry.1 ≠ []) (d : Disk) :
    entry? (d.putAll l tree) (l ++ entry.1) = some entry.2 := by
  induction tree generalizing d with
  | nil => cases member
  | cons first rest ih =>
      obtain ⟨fresh, others⟩ := List.nodup_cons.mp distinct
      rw [putAll_cons]
      rcases List.mem_cons.mp member with rfl | later
      · rw [entry?_putAll_of_ne, entry?_put_self d entry.2 below]
        intro e inside same
        apply fresh
        show entry.1 ∈ _
        rw [List.append_cancel_left same]
        exact List.mem_map_of_mem inside
      · exact ih others later _

/-- Nothing of a tree that hangs from a vacant place stands yet. -/
theorem Hangs.vacant {steps : List String} {tree : List (Location × Entry)}
    (hangs : Hangs steps tree) (wellFormed : d.WellFormed) (vacant : d.entry? (l ++ steps) = none) :
    ∀ entry ∈ tree, d.entry? (l ++ entry.1) = none := by
  intro entry member
  obtain ⟨more, same⟩ := hangs.below entry member
  rw [← same, ← List.append_assoc]
  exact wellFormed.entry?_append vacant more

/-- Writing where nothing stands keeps everything. -/
theorem grows_putAll {tree : List (Location × Entry)}
    (fresh : ∀ entry ∈ tree, d.entry? (l ++ entry.1) = none) : Grows d (d.putAll l tree) := by
  refine ⟨(under_putAll d l tree).workingDirectory, fun k e stands => ?_⟩
  rw [entry?_putAll_of_ne, stands]
  rintro entry member rfl
  rw [fresh entry member] at stands
  cases stands

/-- A tree written to a vacant place in a directory leaves everything in a directory. -/
theorem WellFormed.putAll (wellFormed : d.WellFormed) {steps : List String}
    {tree : List (Location × Entry)} (hangs : Hangs steps tree) (down : steps ≠ [])
    (vacant : d.entry? (l ++ steps) = none)
    (directory : d.entry? (l ++ steps.dropLast) = some .directory) :
    (d.putAll l tree).WellFormed := by
  -- An entry may be listed before the directory that it stands in, so the tree is looked at as a whole.
  have proper : ∀ entry ∈ tree, entry.1 ≠ [] := by
    intro entry member empty
    have inside := hangs.below entry member
    rw [empty, List.prefix_nil] at inside
    exact down inside
  have grows := grows_putAll (hangs.vacant wellFormed vacant)
  refine ⟨?_, ?_⟩
  · rw [grows.workingDirectory]
    exact grows.kept _ _ wellFormed.home
  · intro k name present
    by_cases written : ∃ entry ∈ tree, k ++ [name] = l ++ entry.1
    · obtain ⟨⟨path, e⟩, member, same⟩ := written
      obtain ⟨rel, last, rfl⟩ : ∃ rel last, path = rel ++ [last] :=
        (List.eq_nil_or_concat' path).resolve_left (proper _ member)
      rw [← List.append_assoc] at same
      obtain ⟨rfl, -⟩ := List.append_inj' same rfl
      rcases hangs.parents rel last e member with root | inside
      · have above : rel = steps.dropLast := by rw [← root, List.dropLast_concat]
        rw [above]
        exact grows.kept _ _ directory
      · exact entry?_putAll_of_mem hangs.distinct inside
          (List.append_ne_nil_of_right_ne_nil l (proper _ inside)) d
    · rw [entry?_putAll_of_ne fun entry member same => written ⟨entry, member, same⟩] at present
      exact grows.kept _ _ (wellFormed.parents k name present)

/-- A copy of what stands below a location, under a new name. -/
theorem hangs_copy (wellFormed : d.WellFormed) (distinct : d.Distinct) (origin : Location)
    (name : String) :
    Hangs [name] (([name], .directory) :: (d.below origin).map fun e => (name :: e.1, e.2)) := by
  have keys : ((d.below origin).map fun e => (name :: e.1, e.2)).map (·.1) =
      ((d.below origin).map (·.1)).map (name :: ·) := by
    simp only [List.map_map, Function.comp_def]
  refine ⟨?_, ?_, ?_⟩
  · rw [List.map_cons, keys, List.nodup_cons]
    refine ⟨?_, (distinct.below origin).map (List.cons_injective)⟩
    intro member
    obtain ⟨k, listed, same⟩ := List.mem_map.mp member
    obtain ⟨e, inside, rfl⟩ := List.mem_map.mp listed
    exact ne_nil_of_mem_below inside (List.cons.inj same).2
  · intro entry member
    rcases List.mem_cons.mp member with rfl | copied
    · exact List.prefix_refl [name]
    · obtain ⟨e, -, rfl⟩ := List.mem_map.mp copied
      exact ⟨e.1, rfl⟩
  · intro rel last e member
    rcases List.mem_cons.mp member with root | copied
    · exact .inl (congrArg Prod.fst root)
    · obtain ⟨⟨k, other⟩, listed, same⟩ := List.mem_map.mp copied
      obtain ⟨proper, stands⟩ := distinct.mem_below_iff.mp listed
      obtain ⟨front, final, rfl⟩ : ∃ front final, k = front ++ [final] :=
        (List.eq_nil_or_concat' k).resolve_left proper
      have path : name :: front ++ [final] = rel ++ [last] := congrArg Prod.fst same
      obtain ⟨rfl, -⟩ := List.append_inj' path rfl
      right
      by_cases top : front = []
      · rw [top]
        exact List.mem_cons_self
      · refine List.mem_cons_of_mem _ (List.mem_map.mpr ⟨(front, .directory), ?_, rfl⟩)
        rw [← List.append_assoc] at stands
        have parent := wellFormed.parents (origin ++ front) final (stands ▸ Option.some_ne_none _)
        exact distinct.mem_below_iff.mpr ⟨top, parent⟩

/-- A walk to a directory has come through the directories on its way. -/
theorem walk_concat {start : Location} {names : List String} {name : String}
    (found : d.walk start (names ++ [name]) = .ok (.directory l)) :
    ∃ middle, d.walk start names = .ok (.directory middle) ∧
      d.walk middle [name] = .ok (.directory l) := by
  fun_induction Disk.walk d start names with
  | case1 start => exact ⟨start, rfl, found⟩
  | case2 start rest ih =>
      rw [List.cons_append, walk_here] at found
      exact ih found
  | case3 start rest _ ih =>
      rw [List.cons_append, walk_above] at found
      exact ih found
  | case4 start first rest notHere notAbove long =>
      rw [List.cons_append, walk, if_neg notHere, if_neg notAbove, if_pos long] at found
      cases found
  | case5 start first rest notHere notAbove short stands ih =>
      rw [List.cons_append, walk_down notHere notAbove short stands] at found
      exact ih found
  | case6 start first rest notHere notAbove short content stands last =>
      simp [walk, notHere, notAbove, short, stands] at found
  | case7 start first rest notHere notAbove short content stands more =>
      simp [walk, notHere, notAbove, short, stands] at found
  | case8 start first rest notHere notAbove short stands last =>
      simp [walk, notHere, notAbove, short, stands] at found
  | case9 start first rest notHere notAbove short stands more =>
      simp [walk, notHere, notAbove, short, stands] at found

/-- A path with one more name leads one step further down. -/
theorem Leads.of_join {base name : String} (single : Path.Single name)
    (leads : d.Leads (Path.join base name) l) :
    ∃ middle, d.Leads base middle ∧ l = middle ++ [name] ∧ d.entry? l = some .directory := by
  have below := single.below.base base
  have start : d.origin (Path.join base name) = d.origin base := by
    unfold origin
    rw [below.isAbsolute_eq]
  unfold Leads at leads
  rw [start, below.names_eq] at leads
  obtain ⟨middle, reached, last⟩ := walk_concat leads
  obtain ⟨here, stands⟩ := walk_singles (List.cons_ne_nil name []) below.singles last
  have place : l = middle ++ [name] := here
  exact ⟨middle, reached, place, by rw [place]; exact stands⟩

/-- What a path to a directory leads to stays where everything is kept. -/
theorem Grows.spot (grows : Grows d now) {path : String}
    (found : d.spot path = .ok (.directory l)) : now.spot path = .ok (.directory l) := by
  have keeps : d.KeepsDirectories now := fun k => grows.kept k .directory
  unfold Disk.spot at found ⊢
  rw [grows.workingDirectory]
  split
  · rename_i null
    rw [if_pos null] at found
    cases found
  · rename_i plain
    rw [if_neg plain] at found
    split
    · rename_i empty
      rw [if_pos empty] at found
      cases found
    · rename_i nonempty
      rw [if_neg nonempty] at found
      split
      · rename_i long
        rw [if_pos long] at found
        cases found
      · rename_i short
        rw [if_neg short] at found
        exact keeps.walk found

end Groundwork.Disk
