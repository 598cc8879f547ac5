import Groundwork.Jinja.Builtin
import Groundwork.Proofs.Equality
import Mathlib.Data.List.Induction

set_option autoImplicit false

/- Common items of two lists. They are collected one by one and compared with what was collected so
far, yet they are the first occurrences in the left list of what stands in both, provided that
equality is an equivalence among the items. -/
namespace Groundwork.Jinja

/-- Whether an item equal to the value stands in the list. -/
def Occurs (v : Value) (items : List Value) : Prop := ∃ w ∈ items, w.eqv v = true

theorem any_eqv_iff {v : Value} {items : List Value} :
    items.any (·.eqv v) = true ↔ Occurs v items := List.any_eq_true

instance (v : Value) (items : List Value) : Decidable (Occurs v items) :=
  decidable_of_iff _ any_eqv_iff

theorem Occurs.of_subset {v : Value} {items more : List Value} (occurs : Occurs v items)
    (subset : items ⊆ more) : Occurs v more := by
  obtain ⟨w, member, equal⟩ := occurs
  exact ⟨w, subset member, equal⟩

theorem intersection_concat (left right : List Value) (v : Value) :
    intersection (left ++ [v]) right =
      if Occurs v right ∧ ¬ Occurs v (intersection left right) then intersection left right ++ [v]
      else intersection left right := by
  have step : intersection (left ++ [v]) right =
      if right.any (·.eqv v) && !(intersection left right).any (·.eqv v) then
        intersection left right ++ [v]
      else intersection left right := by
    unfold intersection
    rw [List.foldl_append]
    rfl
  rw [step]
  simp only [Bool.and_eq_true, Bool.not_eq_true', ← Bool.not_eq_true, any_eqv_iff]

theorem intersection_concat_of_new {left right : List Value} {v : Value} (common : Occurs v right)
    (new : ¬ Occurs v (intersection left right)) :
    intersection (left ++ [v]) right = intersection left right ++ [v] := by
  rw [intersection_concat, if_pos ⟨common, new⟩]

theorem intersection_concat_of_old {left right : List Value} {v : Value}
    (old : Occurs v right → Occurs v (intersection left right)) :
    intersection (left ++ [v]) right = intersection left right := by
  rw [intersection_concat, if_neg fun both => both.2 (old both.1)]

/-- A step keeps what was collected, or appends an item of both lists that is equal to none so far. -/
theorem intersection_rec {right : List Value} {motive : List Value → List Value → Prop}
    (nil : motive [] [])
    (new : ∀ left v, motive left (intersection left right) → Occurs v right →
      ¬ Occurs v (intersection left right) → motive (left ++ [v]) (intersection left right ++ [v]))
    (old : ∀ left v, motive left (intersection left right) →
      (Occurs v right → Occurs v (intersection left right)) →
      motive (left ++ [v]) (intersection left right)) (left : List Value) :
    motive left (intersection left right) := by
  induction left using List.reverseRecOn with
  | nil => exact nil
  | append_singleton left v ih =>
      by_cases known : Occurs v right → Occurs v (intersection left right)
      · rw [intersection_concat_of_old known]
        exact old left v ih known
      · obtain ⟨common, absent⟩ := Classical.not_imp.mp known
        rw [intersection_concat_of_new common absent]
        exact new left v ih common absent

theorem intersection_sublist (left right : List Value) :
    (intersection left right).Sublist left := by
  refine intersection_rec (motive := fun left common => common.Sublist left) ?_ ?_ ?_ left
  · exact List.Sublist.refl []
  · exact fun left v ih _ _ => ih.append (List.Sublist.refl [v])
  · exact fun left v ih _ => ih.trans (List.sublist_append_left left [v])

theorem occurs_right {left right : List Value} :
    ∀ v ∈ intersection left right, Occurs v right := by
  refine intersection_rec (motive := fun _ common => ∀ v ∈ common, Occurs v right) ?_ ?_ ?_ left
  · exact fun v member => nomatch member
  · intro left v ih common _ w member
    rcases List.mem_append.mp member with inside | last
    · exact ih w inside
    · rwa [List.mem_singleton.mp last]
  · exact fun left v ih _ => ih

theorem pairwise_intersection (left right : List Value) :
    (intersection left right).Pairwise fun v w => v.eqv w = false := by
  refine intersection_rec (motive := fun _ common => common.Pairwise fun v w => v.eqv w = false)
    .nil ?_ ?_ left
  · intro left v ih _ new
    refine List.pairwise_append.mpr ⟨ih, List.pairwise_singleton _ v, fun w member x last => ?_⟩
    rw [List.mem_singleton.mp last]
    exact Bool.eq_false_iff.mpr fun equal => new ⟨w, member, equal⟩
  · exact fun left v ih _ => ih

/-- What is collected stays as it is if it is compared with the same list again. -/
theorem intersection_self_of_pairwise {common right : List Value}
    (apart : common.Pairwise fun v w => v.eqv w = false) (each : ∀ v ∈ common, Occurs v right) :
    intersection common right = common := by
  induction common using List.reverseRecOn with
  | nil => rfl
  | append_singleton common v ih =>
      obtain ⟨before, -, last⟩ := List.pairwise_append.mp apart
      obtain ⟨others, here⟩ := List.forall_mem_append.mp each
      have kept := ih before others
      have new : ¬ Occurs v (intersection common right) := by
        rw [kept]
        rintro ⟨w, member, equal⟩
        rw [last w member v List.mem_cons_self] at equal
        cases equal
      rw [intersection_concat_of_new (here v List.mem_cons_self) new, kept]

/-- The items of the left list that occur in the right one but not in front of themselves. -/
def firstCommon (left right : List Value) : List Value :=
  select (fun front v => Occurs v right ∧ ¬ Occurs v front) left

theorem firstCommon_concat (left right : List Value) (v : Value) :
    firstCommon (left ++ [v]) right =
      firstCommon left right ++ if Occurs v right ∧ ¬ Occurs v left then [v] else [] := by
  rw [firstCommon, select_concat, ← firstCommon]
  simp only [decide_eq_true_eq]

section Equivalence

variable {s : Value → Prop} {left right : List Value}

theorem Value.EquivalenceOn.eqv_symm (equality : Value.EquivalenceOn s) {v w : Value} (first : s v)
    (second : s w) (equal : v.eqv w = true) : w.eqv v = true :=
  equality.symm (x := ⟨v, first⟩) (y := ⟨w, second⟩) equal

theorem Occurs.trans (equality : Value.EquivalenceOn s) {items : List Value}
    (each : ∀ v ∈ items, s v) {v w : Value} (first : s v) (second : s w) (occurs : Occurs v items)
    (equal : v.eqv w = true) : Occurs w items := by
  obtain ⟨u, member, same⟩ := occurs
  exact ⟨u, member, equality.trans (x := ⟨u, each u member⟩) (y := ⟨v, first⟩) (z := ⟨w, second⟩)
    same equal⟩

/-- Every item of both lists has an equal one among those collected. -/
theorem occurs_intersection_of_mem (equality : Value.EquivalenceOn s) (inLeft : ∀ v ∈ left, s v) :
    ∀ v ∈ left, Occurs v right → Occurs v (intersection left right) := by
  revert inLeft
  refine intersection_rec (motive := fun left common => (∀ v ∈ left, s v) →
    ∀ v ∈ left, Occurs v right → Occurs v common) ?_ ?_ ?_ left
  · exact fun _ v member => nomatch member
  · intro left v ih _ _ inLeft w member common
    obtain ⟨before, here⟩ := List.forall_mem_append.mp inLeft
    rcases List.mem_append.mp member with inside | last
    · exact (ih before w inside common).of_subset (List.subset_append_left _ _)
    · rw [List.mem_singleton.mp last]
      exact ⟨v, List.mem_append_right _ List.mem_cons_self,
        equality.refl ⟨v, here v List.mem_cons_self⟩⟩
  · intro left v ih old inLeft w member common
    rcases List.mem_append.mp member with inside | last
    · exact ih (List.forall_mem_append.mp inLeft).1 w inside common
    · rw [List.mem_singleton.mp last] at common ⊢
      exact old common

theorem occurs_intersection_iff (equality : Value.EquivalenceOn s) (inLeft : ∀ v ∈ left, s v)
    (inRight : ∀ v ∈ right, s v) {v : Value} (sound : s v) :
    Occurs v (intersection left right) ↔ Occurs v left ∧ Occurs v right := by
  constructor
  · intro occurs
    have here := occurs.of_subset (intersection_sublist left right).subset
    obtain ⟨w, member, equal⟩ := occurs
    have inside := inLeft w ((intersection_sublist left right).subset member)
    exact ⟨here, (occurs_right w member).trans equality inRight inside sound equal⟩
  · rintro ⟨⟨w, member, equal⟩, common⟩
    have inside := inLeft w member
    have back := equality.eqv_symm inside sound equal
    have found := occurs_intersection_of_mem equality inLeft w member
      (common.trans equality inRight sound inside back)
    exact found.trans equality
      (fun u inner => inLeft u ((intersection_sublist left right).subset inner)) inside sound equal

theorem intersection_eq_firstCommon (equality : Value.EquivalenceOn s) (inLeft : ∀ v ∈ left, s v)
    (inRight : ∀ v ∈ right, s v) : intersection left right = firstCommon left right := by
  induction left using List.reverseRecOn with
  | nil => rfl
  | append_singleton left v ih =>
      obtain ⟨before, here⟩ := List.forall_mem_append.mp inLeft
      have collected := occurs_intersection_iff equality before inRight (here v List.mem_cons_self)
      rw [firstCommon_concat, ← ih before]
      by_cases first : Occurs v right ∧ ¬ Occurs v left
      · rw [if_pos first, intersection_concat_of_new first.1 fun old => first.2 (collected.mp old).1]
      · rw [if_neg first, List.append_nil, intersection_concat_of_old]
        intro common
        exact collected.mpr ⟨by_contra fun absent => first ⟨common, absent⟩, common⟩

end Equivalence

/-- What the common items of two lists are, where values that satisfy `s` are compared. -/
structure Intersects (s : Value → Prop) (left right common : List Value) : Prop where
  apart : common.Pairwise fun v w => v.eqv w = false ∧ w.eqv v = false
  occurs : ∀ v, s v → (Occurs v common ↔ Occurs v left ∧ Occurs v right)
  firsts : common = firstCommon left right
  sublist : common.Sublist left
  settled : intersection common right = common

/-- Among values for which equality is an equivalence, the common items are the first occurrences of what
stands in both lists, no two of them equal, and to collect them again changes nothing. -/
theorem intersects_intersection {s : Value → Prop} (equality : Value.EquivalenceOn s)
    {left right : List Value} (inLeft : ∀ v ∈ left, s v) (inRight : ∀ v ∈ right, s v) :
    Intersects s left right (intersection left right) := by
  have sublist := intersection_sublist left right
  have apart := pairwise_intersection left right
  refine ⟨?_, fun v sound => occurs_intersection_iff equality inLeft inRight sound,
    intersection_eq_firstCommon equality inLeft inRight, sublist,
    intersection_self_of_pairwise apart occurs_right⟩
  refine apart.imp_of_mem fun {v w} first second differ => ⟨differ, Bool.eq_false_iff.mpr ?_⟩
  intro equal
  rw [equality.eqv_symm (inLeft w (sublist.subset second)) (inLeft v (sublist.subset first)) equal]
    at differ
  cases differ

namespace Sample

/-- The number 1 in three kinds, and a map whose entries stand in another order on the other side. -/
def wanted : List Groundwork.Value :=
  [.number (.whole ⟨1, by decide, by decide⟩), .string "glue", .bool true,
    .map [("a", .null), ("b", .string "x")], .string "glue", .string "s3"]

def offered : List Groundwork.Value :=
  [.map [("b", .string "x"), ("a", .null)], .number (.float ⟨0x3FF0000000000000⟩ (by decide)),
    .string "glue"]

theorem wellKeyed_items : ∀ v ∈ wanted ++ offered, v.WellKeyed := by
  have first : (Groundwork.Value.map [("a", .null), ("b", .string "x")]).WellKeyed :=
    ((Fields.wellKeyed_singleton (.string "x")).cons (by decide) .null).map
  have second : (Groundwork.Value.map [("b", .string "x"), ("a", .null)]).WellKeyed :=
    ((Fields.wellKeyed_singleton .null).cons (by decide) (.string "x")).map
  unfold wanted offered
  simp only [List.cons_append, List.nil_append, List.forall_mem_cons]
  exact ⟨.number _, .string _, .bool _, first, .string _, .string _, second, .number _, .string _,
    List.forall_mem_nil _⟩

end Sample

/-- Three of the wanted items stay: the number, the text and the map. -/
theorem intersects_intersection_mixed :
    let left := Sample.wanted.map Value.ofConfig
    let right := Sample.offered.map Value.ofConfig
    (intersection left right).map Value.kind = [.number, .string, .map] ∧
      Value.EquivalenceOn Value.Sound ∧ (∀ v ∈ left, v.Sound) ∧ (∀ v ∈ right, v.Sound) ∧
      Intersects Value.Sound left right (intersection left right) := by
  have sound : ∀ items ⊆ Sample.wanted ++ Sample.offered, ∀ v ∈ items.map Value.ofConfig, v.Sound := by
    intro items subset v member
    obtain ⟨w, inside, rfl⟩ := List.mem_map.mp member
    exact Value.sound_ofConfig (Sample.wellKeyed_items w (subset inside))
  have inLeft := sound Sample.wanted (List.subset_append_left _ _)
  have inRight := sound Sample.offered (List.subset_append_right _ _)
  exact ⟨by decide +kernel, Value.equivalenceOn_sound, inLeft, inRight,
    intersects_intersection Value.equivalenceOn_sound inLeft inRight⟩

end Groundwork.Jinja
