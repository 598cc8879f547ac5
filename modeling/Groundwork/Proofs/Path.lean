import Groundwork.Catalog

set_option autoImplicit false

/- Laws of path texts. Joining a relative path puts its names behind those of the base, trailing
slashes add no names, and the path above has all steps but the last. A single name is one step down
and nothing else. -/
namespace Groundwork.Path

/-- One step down: no slash, and neither the directory itself nor the one above. -/
structure Single (name : String) : Prop where
  nonempty : name ≠ ""
  unbroken : '/' ∉ name.toList
  notHere : name ≠ "."
  notAbove : name ≠ ".."

theorem names_empty : names "" = [] := by
  simp [names]

theorem names_append_slash (first second : String) :
    names (first ++ "/" ++ second) = names first ++ names second := by
  have text : (first ++ "/" ++ second).toList = first.toList ++ '/' :: second.toList := by
    simp
  unfold names
  rw [text, List.splitOn_append_cons_self, List.filter_append, List.map_append]

theorem names_trailing_slash (path : String) : names (path ++ "/") = names path := by
  have whole := names_append_slash path ""
  rwa [String.append_empty, names_empty, List.append_nil] at whole

theorem names_of_unbroken {name : String} (nonempty : name ≠ "") (unbroken : '/' ∉ name.toList) :
    names name = [name] := by
  have kept : name.toList.isEmpty = false := by
    simpa using nonempty
  simp [names, List.splitOn_eq_singleton unbroken, kept]

/-- A text that ends with a slash is some shorter text before that slash. -/
theorem exists_append_slash {text : String} (ends : text.toList.getLast? = some '/') :
    ∃ front, text = front ++ "/" ∧ front.length < text.length := by
  obtain ⟨front, split⟩ := List.getLast?_eq_some_iff.mp ends
  have whole : text = String.ofList front ++ "/" := String.toList_injective (by simp [split])
  refine ⟨String.ofList front, whole, ?_⟩
  rw [whole, String.length_append]
  exact Nat.lt_add_of_pos_right (by decide)

theorem names_join {path : String} (relative : isAbsolute path = false) (base : String) :
    names (join base path) = names base ++ names path := by
  unfold join
  split
  · rename_i replaced
    have empty : base = "" := by simpa [relative] using replaced
    rw [empty, names_empty, List.nil_append]
  · split
    · rename_i ends
      obtain ⟨front, rfl, -⟩ := exists_append_slash ends
      rw [names_append_slash, names_trailing_slash]
    · exact names_append_slash base path

theorem isAbsolute_append {base : String} (nonempty : base ≠ "") (rest : String) :
    isAbsolute (base ++ rest) = isAbsolute base := by
  simp [isAbsolute, nonempty]

theorem isAbsolute_join {path : String} (relative : isAbsolute path = false) (base : String) :
    isAbsolute (join base path) = isAbsolute base := by
  unfold join
  split
  · rename_i replaced
    have empty : base = "" := by simpa [relative] using replaced
    rw [relative, empty]
    rfl
  · rename_i kept
    have nonempty : base ≠ "" := by
      intro empty
      simp [empty] at kept
    split
    · exact isAbsolute_append nonempty path
    · rw [String.append_assoc]
      exact isAbsolute_append nonempty _

theorem isAbsolute_of_unbroken {name : String} (unbroken : '/' ∉ name.toList) :
    isAbsolute name = false := by
  cases text : name.toList with
  | nil => simp [isAbsolute, text]
  | cons c rest =>
      have other : c ≠ '/' := by
        rintro rfl
        exact unbroken (text ▸ List.mem_cons_self)
      simp [isAbsolute, text, other]

theorem Single.endsWithoutSlash {name : String} (single : Single name) :
    endsWithSlash name = false := by
  unfold endsWithSlash
  rw [decide_eq_false_iff_not]
  intro ends
  exact single.unbroken (List.mem_of_getLast? ends)

theorem endsWithSlash_append (base : String) {rest : String} (nonempty : rest ≠ "") :
    endsWithSlash (base ++ rest) = endsWithSlash rest := by
  simp [endsWithSlash, nonempty]

theorem endsWithSlash_join (base : String) {path : String} (nonempty : path ≠ "") :
    endsWithSlash (join base path) = endsWithSlash path := by
  unfold join
  split
  · rfl
  · split
    · exact endsWithSlash_append base nonempty
    · exact endsWithSlash_append (base ++ "/") nonempty

theorem dropTrailingSlashes_slash (path : String) :
    dropTrailingSlashes (path ++ "/") = dropTrailingSlashes path := by
  simp [dropTrailingSlashes]

theorem dropTrailingSlashes_of_none {path : String} (ends : endsWithSlash path = false) :
    dropTrailingSlashes path = path := by
  have last : path.toList.reverse.head? ≠ some '/' := by
    rw [List.head?_reverse]
    exact of_decide_eq_false ends
  have kept : path.toList.reverse.dropWhile (· = '/') = path.toList.reverse := by
    cases text : path.toList.reverse with
    | nil => rfl
    | cons c rest =>
        rw [text] at last
        have other : c ≠ '/' := by simpa using last
        simp [other]
  rw [dropTrailingSlashes, kept, List.reverse_reverse, String.ofList_toList]

theorem names_dropTrailingSlashes (path : String) :
    names (dropTrailingSlashes path) = names path := by
  by_cases ends : endsWithSlash path = true
  · obtain ⟨front, split, shorter⟩ := exists_append_slash (of_decide_eq_true ends)
    rw [split, dropTrailingSlashes_slash, names_trailing_slash]
    exact names_dropTrailingSlashes front
  · rw [dropTrailingSlashes_of_none (Bool.eq_false_iff.mpr ends)]
termination_by path.length
decreasing_by exact shorter

theorem endsWithSlash_dropTrailingSlashes (path : String) :
    endsWithSlash (dropTrailingSlashes path) = false := by
  by_cases ends : endsWithSlash path = true
  · obtain ⟨front, split, shorter⟩ := exists_append_slash (of_decide_eq_true ends)
    rw [split, dropTrailingSlashes_slash]
    exact endsWithSlash_dropTrailingSlashes front
  · rw [dropTrailingSlashes_of_none (Bool.eq_false_iff.mpr ends)]
    exact Bool.eq_false_iff.mpr ends
termination_by path.length
decreasing_by exact shorter

theorem isAbsolute_dropTrailingSlashes (path : String) (kept : dropTrailingSlashes path ≠ "") :
    isAbsolute (dropTrailingSlashes path) = isAbsolute path := by
  by_cases ends : endsWithSlash path = true
  · obtain ⟨front, split, shorter⟩ := exists_append_slash (of_decide_eq_true ends)
    rw [split, dropTrailingSlashes_slash] at kept ⊢
    have nonempty : front ≠ "" := by
      rintro rfl
      exact kept rfl
    rw [isAbsolute_append nonempty]
    exact isAbsolute_dropTrailingSlashes front kept
  · rw [dropTrailingSlashes_of_none (Bool.eq_false_iff.mpr ends)]
termination_by path.length
decreasing_by exact shorter

/-- What stands between two slashes has no slash. -/
theorem unbroken_of_mem_splitOn {chars part : List Char} (member : part ∈ chars.splitOn '/') :
    '/' ∉ part := by
  induction chars generalizing part with
  | nil =>
      have empty : part = [] := by simpa using member
      rw [empty]
      exact List.not_mem_nil
  | cons c rest ih =>
      rw [List.splitOn_cons_eq_if_modifyHead] at member
      split at member
      · rcases List.mem_cons.mp member with rfl | later
        · exact List.not_mem_nil
        · exact ih later
      · rename_i other
        obtain ⟨first, others, split⟩ := List.exists_cons_of_ne_nil (List.splitOn_ne_nil '/' rest)
        rw [split] at ih member
        rcases List.mem_cons.mp member with rfl | later
        · intro slash
          rcases List.mem_cons.mp slash with rfl | inside
          · exact other (beq_self_eq_true _)
          · exact ih List.mem_cons_self inside
        · exact ih (List.mem_cons_of_mem first later)

theorem of_mem_names {path name : String} (member : name ∈ names path) :
    name ≠ "" ∧ '/' ∉ name.toList := by
  obtain ⟨part, kept, rfl⟩ := List.mem_map.mp member
  obtain ⟨split, nonempty⟩ := List.mem_filter.mp kept
  rw [String.toList_ofList]
  refine ⟨?_, unbroken_of_mem_splitOn split⟩
  intro empty
  have nil : part = [] := by simpa using congrArg String.toList empty
  rw [nil] at nonempty
  cases nonempty

theorem names_intercalate {parts : List String}
    (each : ∀ name ∈ parts, name ≠ "" ∧ '/' ∉ name.toList) :
    names ("/".intercalate parts) = parts := by
  induction parts with
  | nil => rw [String.intercalate_nil, names_empty]
  | cons name rest ih =>
      obtain ⟨nonempty, unbroken⟩ := each name List.mem_cons_self
      have first : names name = [name] := names_of_unbroken nonempty unbroken
      cases rest with
      | nil => rw [String.intercalate_singleton, first]
      | cons next more =>
          have others := ih fun other member => each other (List.mem_cons_of_mem name member)
          rw [String.intercalate_cons_cons, names_append_slash, first, others]
          rfl

/-- A path of names has these names, and starts where it is told to. -/
theorem names_ofNames {parts : List String}
    (each : ∀ name ∈ parts, name ≠ "" ∧ '/' ∉ name.toList) (absolute : Bool) :
    names (ofNames absolute parts) = parts := by
  unfold ofNames
  cases absolute with
  | false => simpa using names_intercalate each
  | true =>
      have whole := names_append_slash "" ("/".intercalate parts)
      rw [names_empty, names_intercalate each] at whole
      simpa using whole

theorem isAbsolute_ofNames {parts : List String}
    (each : ∀ name ∈ parts, name ≠ "" ∧ '/' ∉ name.toList) (absolute : Bool) :
    isAbsolute (ofNames absolute parts) = absolute := by
  unfold ofNames
  cases absolute with
  | true => simp [isAbsolute]
  | false =>
      cases parts with
      | nil => rfl
      | cons name rest =>
          obtain ⟨nonempty, unbroken⟩ := each name List.mem_cons_self
          have first : isAbsolute name = false := isAbsolute_of_unbroken unbroken
          cases rest with
          | nil => simpa using first
          | cons next more =>
              simp [isAbsolute_append nonempty, String.append_assoc, first]

/-- The names that lead somewhere else. -/
def onward (parts : List String) : List String := parts.filter (· ≠ ".")

theorem onward_here (rest : List String) : onward ("." :: rest) = onward rest :=
  List.filter_cons_of_neg (by decide)

theorem onward_cons {name : String} (notHere : name ≠ ".") (rest : List String) :
    onward (name :: rest) = name :: onward rest :=
  List.filter_cons_of_pos (decide_eq_true notHere)

theorem here_notMem_onward (parts : List String) : "." ∉ onward parts := by
  simp [onward]

theorem onward_of_notMem {parts : List String} (onwards : "." ∉ parts) : onward parts = parts := by
  rw [onward, List.filter_eq_self]
  intro name member
  exact decide_eq_true (ne_of_mem_of_not_mem member onwards)

def steps (path : String) : List String := onward (names path)

theorem significantNames_eq (path : String) :
    significantNames path = steps path ∨
      significantNames path = "." :: steps path ∧ isAbsolute path = false := by
  unfold significantNames steps
  split
  · rename_i rest listed
    rw [listed, onward_here]
    dsimp only
    split
    · exact .inl rfl
    · rename_i relative
      exact .inr ⟨rfl, Bool.eq_false_iff.mpr relative⟩
  · exact .inl rfl

theorem mem_significantNames {path name : String} (member : name ∈ significantNames path) :
    name ≠ "" ∧ '/' ∉ name.toList := by
  have ofSteps : ∀ name ∈ steps path, name ≠ "" ∧ '/' ∉ name.toList :=
    fun name member => of_mem_names (List.mem_filter.mp member).1
  rcases significantNames_eq path with same | ⟨same, -⟩
  · exact ofSteps name (same ▸ member)
  · rw [same] at member
    rcases List.mem_cons.mp member with rfl | later
    · decide
    · exact ofSteps name later

/-- The path above, if it has a text, leads along all steps but the last. -/
theorem steps_parent {path parent : String} (above : parent? path = some parent)
    (nonempty : parent ≠ "") :
    steps path ≠ [] ∧ steps parent = (steps path).dropLast ∧
      isAbsolute parent = isAbsolute path := by
  simp only [parent?, Option.ite_none_left_eq_some, Option.some.injEq, List.isEmpty_iff] at above
  obtain ⟨present, rfl⟩ := above
  have each : ∀ name ∈ (significantNames path).dropLast, name ≠ "" ∧ '/' ∉ name.toList :=
    fun name member => mem_significantNames (List.dropLast_subset _ member)
  have further : steps path ≠ [] := by
    intro none
    rcases significantNames_eq path with same | ⟨same, relative⟩
    · exact present (same.trans none)
    · rw [same, none, relative] at nonempty
      exact nonempty rfl
  have kept : onward (steps path).dropLast = (steps path).dropLast :=
    onward_of_notMem fun member => here_notMem_onward _ (List.dropLast_subset _ member)
  refine ⟨further, ?_, isAbsolute_ofNames each _⟩
  rw [steps, names_ofNames each]
  rcases significantNames_eq path with same | ⟨same, -⟩
  · rw [same, kept]
  · rw [same, List.dropLast_cons_of_ne_nil further, onward_here, kept]

/-- The path leads from the base down these steps. -/
structure Below (base path : String) (steps : List String) : Prop where
  names_eq : names path = names base ++ steps
  isAbsolute_eq : isAbsolute path = isAbsolute base
  ends : endsWithSlash path = false
  nonempty : path ≠ ""
  down : steps ≠ []
  singles : ∀ name ∈ steps, Single name

theorem Single.below {name : String} (single : Single name) : Below "" name [name] where
  names_eq := by
    rw [names_empty, List.nil_append, names_of_unbroken single.nonempty single.unbroken]
  isAbsolute_eq := isAbsolute_of_unbroken single.unbroken
  ends := single.endsWithoutSlash
  nonempty := single.nonempty
  down := List.cons_ne_nil name []
  singles := fun _ member => List.mem_singleton.mp member ▸ single

theorem join_ne_empty (base : String) {path : String} (nonempty : path ≠ "") :
    join base path ≠ "" := by
  unfold join
  split
  · exact nonempty
  · split <;> simp [nonempty]

/-- Joining steps down to a base leads down these steps. -/
theorem Below.base {path : String} {steps : List String} (below : Below "" path steps)
    (base : String) : Below base (join base path) steps where
  names_eq := by
    rw [names_join below.isAbsolute_eq, below.names_eq, names_empty, List.nil_append]
  isAbsolute_eq := isAbsolute_join below.isAbsolute_eq base
  ends := (endsWithSlash_join base below.nonempty).trans below.ends
  nonempty := join_ne_empty base below.nonempty
  down := below.down
  singles := below.singles

theorem Below.join {base first second : String} {steps more : List String}
    (below : Below base first steps) (further : Below "" second more) :
    Below base (join first second) (steps ++ more) where
  names_eq := by
    rw [names_join further.isAbsolute_eq, further.names_eq, names_empty, List.nil_append,
      below.names_eq, List.append_assoc]
  isAbsolute_eq := (isAbsolute_join further.isAbsolute_eq first).trans below.isAbsolute_eq
  ends := (endsWithSlash_join first further.nonempty).trans further.ends
  nonempty := join_ne_empty first further.nonempty
  down := by simp [below.down]
  singles := by
    intro name member
    rcases List.mem_append.mp member with above | under
    · exact below.singles name above
    · exact further.singles name under

theorem single_of_plain {name : String} (plain : isPlainName name = true) : Single name := by
  simp only [isPlainName, Bool.and_eq_true, decide_eq_true_eq] at plain
  obtain ⟨nonempty, allowed⟩ := plain
  have excluded : ∀ c ∈ name.toList, c ≠ '/' ∧ c ≠ '.' := by
    intro c member
    have known := List.all_eq_true.mp allowed c member
    constructor
    · rintro rfl
      revert known
      decide
    · rintro rfl
      revert known
      decide
  refine ⟨nonempty, fun slash => (excluded _ slash).1 rfl, ?_, ?_⟩
  · rintro rfl
    exact (excluded '.' (by decide)).2 rfl
  · rintro rfl
    exact (excluded '.' (by decide)).2 rfl

end Groundwork.Path
