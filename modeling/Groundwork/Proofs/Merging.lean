import Groundwork.Proofs.Dict
import Groundwork.Value

set_option autoImplicit false

/- Layers of defaults. Merging appends what is missing, so merging once more changes nothing, and it
makes no difference whether two layers are merged into a map one after the other or into each other
first. -/
namespace Groundwork.Dict

variable {α : Type}

theorem merge_append (d first second : Dict α) :
    merge d (first ++ second) = merge (merge d first) second := List.foldl_append

/-- Defaults of defaults: the first layer that has a key decides. -/
theorem merge_merge (d first second : Dict α) :
    merge (merge d first) second = merge d (merge first second) := by
  induction second generalizing first with
  | nil => rfl
  | cons entry rest ih =>
      have single : merge (merge d first) [entry] = merge d (merge first [entry]) := by
        by_cases present : entry.1 ∈ keys first
        · have covered : ∀ k ∈ keys [entry], k ∈ keys first := by
            intro k member
            rwa [List.mem_singleton.mp member]
          rw [merge_of_covered covered]
          exact merge_of_covered fun k member => mem_keys_merge.mpr (.inr (covered k member))
        · have appended : merge first [entry] = first ++ [entry] := by
            rw [merge_cons, if_neg ((contains_iff_mem_keys first entry.1).not.mpr present), merge_nil]
          rw [appended, merge_append]
      calc merge (merge d first) (entry :: rest)
          = merge (merge (merge d first) [entry]) rest := merge_append _ [entry] rest
        _ = merge (merge d (merge first [entry])) rest := by rw [single]
        _ = merge d (merge (merge first [entry]) rest) := ih _
        _ = merge d (merge first (entry :: rest)) := by rw [← merge_append, List.singleton_append]

theorem merge_self (d : Dict α) : merge d d = d := merge_of_covered fun _ member => member

theorem merge_merge_self (d defaults : Dict α) :
    merge (merge d defaults) defaults = merge d defaults := by
  rw [merge_merge, merge_self]

/-- Merging keeps a map as it is, whatever its values are, and appends the defaults under other keys in
their order. A second time it adds nothing, and layers of defaults may be merged in either grouping. -/
theorem merge_layers (d : Dict α) {first : Dict α} (distinct : Distinct first) (second : Dict α) :
    merge d first = d ++ first.filter (fun entry => entry.1 ∉ keys d) ∧
    (∀ k ∈ keys d, get? (merge d first) k = get? d k) ∧
    merge (merge d first) first = merge d first ∧
    merge (merge d first) second = merge d (merge first second) := by
  refine ⟨merge_eq_append d distinct, ?_, merge_merge_self d first, merge_merge d first second⟩
  intro k present
  have known : (get? d k).isSome := by
    rw [Option.isSome_iff_ne_none, Ne, get?_eq_none_iff]
    exact not_not_intro present
  rw [get?_merge, Option.or_of_isSome known]

/-- A null stands against the defaults of both layers. -/
theorem merge_layers_null :
    let d : Fields := [("schedule", .null), ("b", .bool true)]
    let first : Fields := [("a", .string "west"), ("schedule", .string "daily")]
    let second : Fields := [("c", .null), ("a", .string "east"), ("b", .null)]
    Distinct first ∧ merge d first = d ++ [("a", .string "west")] ∧
      get? (merge d first) "schedule" = some .null ∧
      merge (merge d first) first = merge d first ∧
      merge (merge d first) second = merge d (merge first second) := by
  have distinct : Distinct ([("a", .string "west"), ("schedule", .string "daily")] : Fields) := by
    unfold Distinct
    decide
  obtain ⟨appended, kept, again, layers⟩ :=
    merge_layers ([("schedule", .null), ("b", .bool true)] : Fields) distinct
      [("c", .null), ("a", .string "east"), ("b", .null)]
  exact ⟨distinct, appended, kept "schedule" (by decide), again, layers⟩

end Groundwork.Dict
