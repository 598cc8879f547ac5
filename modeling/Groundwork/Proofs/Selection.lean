import Mathlib.Data.List.Basic
import Mathlib.Data.List.Induction

set_option autoImplicit false

/- Items of a list that are told apart by where they stand. Whether one is selected may depend on
what stands in front of it, so a selection grows with the list, and only at its end. -/
namespace Groundwork

variable {α β : Type}

/-- The items that pass a test of what stands in front of them and themselves. -/
def select (test : List α → α → Bool) (items : List α) : List α :=
  (items.zipIdx.filter fun v => test (items.take v.2) v.1).map (·.1)

theorem select_concat (test : List α → α → Bool) (items : List α) (v : α) :
    select test (items ++ [v]) = select test items ++ if test items v then [v] else [] := by
  -- What stands in front of an earlier item does not change by a further one at the end.
  have earlier : items.zipIdx.filter (fun w => test ((items ++ [v]).take w.2) w.1) =
      items.zipIdx.filter (fun w => test (items.take w.2) w.1) := by
    apply List.filter_congr
    intro w member
    have bound : w.2 < items.length := (List.mem_zipIdx' member).1
    rw [List.take_append_of_le_length (by omega)]
  have whole : (items ++ [v]).take (0 + items.length) = items := by
    rw [Nat.zero_add, List.take_left]
  unfold select
  rw [List.zipIdx_append, List.filter_append, earlier, List.map_append, List.zipIdx_singleton]
  congr 1
  by_cases passes : test items v = true
  · rw [if_pos passes, List.filter_cons_of_pos (by rwa [whole])]
    rfl
  · rw [if_neg passes, List.filter_cons_of_neg (by rwa [whole])]
    rfl

theorem select_sublist (test : List α → α → Bool) (items : List α) :
    (select test items).Sublist items := by
  have kept := (List.filter_sublist (l := items.zipIdx)
    (p := fun v => test (items.take v.2) v.1)).map (·.1)
  rwa [List.zipIdx_map_fst] at kept

/-- If every item on the left has a partner of its own on the right, and there are no more on the right,
then every item there is a partner. -/
theorem exists_partner {r : α → β → Prop} {xs : List α} {ys : List β}
    (size : xs.length = ys.length) (partner : ∀ x ∈ xs, ∃ y ∈ ys, r x y)
    (own : xs.Pairwise fun a b => ∀ y, r a y → ¬ r b y) : ∀ y ∈ ys, ∃ x ∈ xs, r x y := by
  induction xs generalizing ys with
  | nil =>
      rw [List.eq_nil_of_length_eq_zero size.symm]
      exact fun _ member => nomatch member
  | cons x rest ih =>
      obtain ⟨first, later⟩ := List.pairwise_cons.mp own
      obtain ⟨y, inside, related⟩ := partner x List.mem_cons_self
      obtain ⟨front, back, rfl⟩ := List.append_of_mem inside
      -- The partner of the first item is taken, so the others have theirs among what is left.
      have others : ∀ z ∈ rest, ∃ w ∈ front ++ back, r z w := by
        intro z member
        obtain ⟨w, found, same⟩ := partner z (List.mem_cons_of_mem x member)
        have apart : w ≠ y := fun equal => first z member y related (equal ▸ same)
        exact ⟨w, by simpa [apart] using found, same⟩
      have shorter : rest.length = (front ++ back).length := by
        simp only [List.length_cons, List.length_append] at size ⊢
        omega
      intro w member
      by_cases equal : w = y
      · exact ⟨x, List.mem_cons_self, equal ▸ related⟩
      · obtain ⟨z, found, same⟩ := ih shorter others later w (by simpa [equal] using member)
        exact ⟨z, List.mem_cons_of_mem x found, same⟩

end Groundwork
