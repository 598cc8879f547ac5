import Groundwork.NamePool

set_option autoImplicit false

/- Sequential naming. The number of a new name is the least one from 1 on whose name is free,
whatever the taken names are; so two pools that take the same generated names hand out the same
names for ever. -/
namespace Groundwork.NamePool

theorem nameOf_injective {type : String} {j k : Nat} (same : nameOf type j = nameOf type k) :
    j = k := by
  have digits : Nat.repr j = Nat.repr k := (String.append_right_inj (type ++ "_")).mp same
  have lists : Nat.toDigits 10 j = Nat.toDigits 10 k := by
    simpa only [Nat.toList_repr] using congrArg String.toList digits
  have values := congrArg (fun cs => Nat.ofDigitChars 10 cs 0) lists
  simpa only [Nat.ofDigitChars_ten_toDigits] using values

theorem nameOf_ne_empty (type : String) (k : Nat) : nameOf type k ≠ "" := by
  intro empty
  have parts := congrArg String.toList empty
  simp [nameOf] at parts

theorem le_firstFree (taken : List String) (type : String) (fuel k : Nat) :
    k ≤ firstFree taken type fuel k := by
  induction fuel generalizing k with
  | zero => exact Nat.le_refl k
  | succ fuel ih =>
      simp only [firstFree]
      split
      · exact Nat.le_of_succ_le (ih (k + 1))
      · exact Nat.le_refl k

theorem taken_below_firstFree (taken : List String) (type : String) (fuel k j : Nat)
    (lower : k ≤ j) (upper : j < firstFree taken type fuel k) : nameOf type j ∈ taken := by
  induction fuel generalizing k with
  | zero => exact absurd upper (Nat.not_lt.mpr lower)
  | succ fuel ih =>
      simp only [firstFree] at upper
      split at upper
      · rename_i found
        rcases Nat.eq_or_lt_of_le lower with same | above
        · rw [← same]
          exact List.contains_iff_mem.mp found
        · exact ih (k + 1) above upper
      · exact absurd upper (Nat.not_lt.mpr lower)

/-- A search that ends on a taken name has used up its tries. -/
theorem firstFree_of_taken (taken : List String) (type : String) (fuel k : Nat)
    (stuck : nameOf type (firstFree taken type fuel k) ∈ taken) :
    firstFree taken type fuel k = k + fuel := by
  induction fuel generalizing k with
  | zero => rfl
  | succ fuel ih =>
      simp only [firstFree] at stuck ⊢
      split at stuck
      · rename_i found
        rw [if_pos found, ih (k + 1) stuck]
        omega
      · rename_i free
        exact absurd (List.contains_iff_mem.mpr stuck) free

/-- Different numbers give different names, so as many names are taken as numbers in a row were tried. -/
theorem tries_le_length {taken : List String} {type : String} {k tries : Nat}
    (tried : ∀ j, k ≤ j → j < k + tries → nameOf type j ∈ taken) : tries ≤ taken.length := by
  have distinct : ((List.range' k tries).map (nameOf type)).Nodup := by
    refine List.Pairwise.map (nameOf type) ?_ List.nodup_range'
    intro i j apart same
    exact apart (nameOf_injective same)
  have subset : (List.range' k tries).map (nameOf type) ⊆ taken := by
    intro name member
    rcases List.mem_map.mp member with ⟨j, inside, rfl⟩
    rcases List.mem_range'_1.mp inside with ⟨lower, upper⟩
    exact tried j lower upper
  have bound := distinct.length_le_of_subset subset
  simpa only [List.length_map, List.length_range'] using bound

/-- The list of taken names bounds the tries, so the search does not end for lack of them. -/
theorem firstFree_free (taken : List String) (type : String) (k : Nat) :
    nameOf type (firstFree taken type taken.length k) ∉ taken := by
  intro stuck
  have last := firstFree_of_taken taken type taken.length k stuck
  have tried : ∀ j, k ≤ j → j < k + (taken.length + 1) → nameOf type j ∈ taken := by
    intro j lower upper
    rcases Nat.lt_or_ge j (firstFree taken type taken.length k) with below | above
    · exact taken_below_firstFree taken type taken.length k j lower below
    · have same : j = firstFree taken type taken.length k := by omega
      rw [same]
      exact stuck
  exact absurd (tries_le_length tried) (Nat.not_succ_le_self taken.length)

/-- The number of the next name: the least from 1 on whose name is not taken. -/
structure IsLeastFree (taken : List String) (type : String) (k : Nat) : Prop where
  positive : 1 ≤ k
  free : nameOf type k ∉ taken
  least : ∀ j, 1 ≤ j → j < k → nameOf type j ∈ taken

theorem IsLeastFree.unique {taken other : List String} {type : String} {j k : Nat}
    (left : IsLeastFree taken type j) (right : IsLeastFree other type k)
    (same : ∀ i, nameOf type i ∈ taken ↔ nameOf type i ∈ other) : j = k := by
  rcases Nat.lt_trichotomy j k with below | equal | above
  · exact absurd ((same j).mpr (right.least j left.positive below)) left.free
  · exact equal
  · exact absurd ((same k).mp (left.least k right.positive above)) right.free

theorem number_sequential (p : NamePool) (type : String) (sequential : p.naming = .sequential) :
    IsLeastFree p.taken type (p.number type) := by
  have number : p.number type = firstFree p.taken type p.taken.length 1 := by
    simp only [NamePool.number, sequential]
  rw [number]
  exact ⟨le_firstFree _ _ _ _, firstFree_free _ _ _, taken_below_firstFree _ _ _ _⟩

theorem mem_taken_reserve (p : NamePool) (name other : String) :
    other ∈ (p.reserve name).taken ↔ other = name ∨ other ∈ p.taken := by
  unfold reserve
  split
  · rename_i found
    constructor
    · exact Or.inr
    · rintro (rfl | member)
      · exact List.contains_iff_mem.mp found
      · exact member
  · exact List.mem_cons

@[simp] theorem reserve_naming (p : NamePool) (name : String) :
    (p.reserve name).naming = p.naming := by
  unfold reserve
  split <;> rfl

theorem foldl_reserve_naming (p : NamePool) (names : List String) :
    (names.foldl reserve p).naming = p.naming := by
  induction names generalizing p with
  | nil => rfl
  | cons name rest ih => rw [List.foldl_cons, ih, reserve_naming]

theorem mem_taken_foldl_reserve (p : NamePool) (names : List String) (other : String) :
    other ∈ (names.foldl reserve p).taken ↔ other ∈ names ∨ other ∈ p.taken := by
  induction names generalizing p with
  | nil => simp only [List.foldl_nil, List.not_mem_nil, false_or]
  | cons name rest ih =>
      rw [List.foldl_cons, ih, mem_taken_reserve, List.mem_cons, ← or_assoc]
      exact or_congr_left or_comm

theorem fresh_name (p : NamePool) (type : String) :
    (p.fresh type).1 = nameOf type (p.number type) := rfl

/-- A pool given by its parts, so that the arithmetic of the random sequence is never opened. -/
theorem fresh_pool (p : NamePool) (type : String) :
    (p.fresh type).2 =
      ⟨(p.reserve (nameOf type (p.number type))).naming,
        (p.reserve (nameOf type (p.number type))).taken, nextSeed p.seed⟩ := rfl

theorem naming_mk (naming : Naming) (taken : List String) (seed : Nat) :
    (NamePool.mk naming taken seed).naming = naming := rfl

theorem taken_mk (naming : Naming) (taken : List String) (seed : Nat) :
    (NamePool.mk naming taken seed).taken = taken := rfl

@[simp] theorem fresh_naming (p : NamePool) (type : String) :
    (p.fresh type).2.naming = p.naming := by
  rw [fresh_pool, naming_mk, reserve_naming]

theorem mem_taken_fresh (p : NamePool) (type other : String) :
    other ∈ (p.fresh type).2.taken ↔ other = (p.fresh type).1 ∨ other ∈ p.taken := by
  rw [fresh_pool, taken_mk, mem_taken_reserve, fresh_name]

/-- Two sequential pools that take the same generated names; the names of other shapes and the state
of the random sequence play no part in sequential naming. -/
structure Agree (p q : NamePool) : Prop where
  sequential : p.naming = .sequential
  naming : q.naming = p.naming
  taken : ∀ type k, nameOf type k ∈ p.taken ↔ nameOf type k ∈ q.taken

theorem Agree.fresh_name {p q : NamePool} (agree : Agree p q) (type : String) :
    (p.fresh type).1 = (q.fresh type).1 := by
  have number : p.number type = q.number type :=
    (number_sequential p type agree.sequential).unique
      (number_sequential q type (agree.naming.trans agree.sequential)) (agree.taken type)
  rw [NamePool.fresh_name, NamePool.fresh_name, number]

theorem Agree.fresh_pool {p q : NamePool} (agree : Agree p q) (type : String) :
    Agree (p.fresh type).2 (q.fresh type).2 := by
  refine ⟨?_, ?_, ?_⟩
  · rw [fresh_naming, agree.sequential]
  · rw [fresh_naming, fresh_naming, agree.naming]
  · intro other k
    rw [mem_taken_fresh, mem_taken_fresh, agree.fresh_name, agree.taken]

end Groundwork.NamePool
