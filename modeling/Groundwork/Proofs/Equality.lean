import Groundwork.Proofs.Rendering
import Groundwork.Proofs.Selection
import Groundwork.Proofs.Value
import Mathlib.Data.List.Forall2

set_option autoImplicit false

/- Equality of template values. It looks through the kinds of numbers and past the order of a map's
entries, and it is an equivalence all the same wherever every number has a value and no map has two
equal keys. All values of a configuration are like that. -/
namespace Groundwork.Decimal.Binary64

theorem isNaN_of_isFinite {x : Binary64} (finite : x.isFinite = true) : x.isNaN = false := by
  simp_all [isFinite, isNaN]

/-- Numbers are equal if they are the same one or of one finite value. -/
theorem eqv_iff {x y : Binary64} : x.eqv y = true ↔ x.isNaN = false ∧
    (x = y ∨ x.isFinite = true ∧ y.isFinite = true ∧ x.units = y.units) := by
  unfold eqv
  constructor
  · intro equal
    simp only [Bool.and_eq_true, Bool.not_eq_true'] at equal
    obtain ⟨⟨value, -⟩, same⟩ := equal
    refine ⟨value, ?_⟩
    split at same
    · rename_i finite
      exact .inr ⟨finite.1, finite.2, of_decide_eq_true same⟩
    · exact .inl (congrArg Binary64.mk (of_decide_eq_true same))
  · rintro ⟨value, rfl | ⟨left, right, units⟩⟩
    · simp [value]
    · simp [left, right, units, isNaN_of_isFinite]

theorem eqv_self {x : Binary64} (value : x.isNaN = false) : x.eqv x = true :=
  eqv_iff.mpr ⟨value, .inl rfl⟩

theorem eqv_symm {x y : Binary64} (equal : x.eqv y = true) : y.eqv x = true := by
  obtain ⟨value, rfl | ⟨left, right, units⟩⟩ := eqv_iff.mp equal
  · exact equal
  · exact eqv_iff.mpr ⟨isNaN_of_isFinite right, .inr ⟨right, left, units.symm⟩⟩

theorem eqv_trans {x y z : Binary64} (first : x.eqv y = true) (second : y.eqv z = true) :
    x.eqv z = true := by
  obtain ⟨value, rfl | ⟨left, -, units⟩⟩ := eqv_iff.mp first
  · exact second
  · obtain ⟨-, rfl | ⟨-, right, further⟩⟩ := eqv_iff.mp second
    · exact first
    · exact eqv_iff.mpr ⟨value, .inr ⟨left, right, units.trans further⟩⟩

theorem units_eq_of_eqv {x y : Binary64} (equal : x.eqv y = true) : x.units = y.units := by
  obtain ⟨-, rfl | ⟨-, -, units⟩⟩ := eqv_iff.mp equal
  · rfl
  · exact units

theorem unit_pos : 0 < unit := by decide +kernel

end Groundwork.Decimal.Binary64

namespace Groundwork.Jinja

open Decimal (Binary64)

/-- What a value counts as where numbers are compared: a boolean is 0 or 1. -/
inductive Quantity where
  | whole (n : Int)
  | float (x : Binary64)

namespace Quantity

/-- Whether the float nearest to a whole number is that very number. -/
def Exact (n : Int) : Prop := (Binary64.ofInt n).units = n * Binary64.unit

def Equal : Quantity → Quantity → Prop
  | .whole m, .whole n => m = n
  | .whole m, .float y => Exact m ∧ (Binary64.ofInt m).eqv y = true
  | .float x, .whole n => Exact n ∧ x.eqv (Binary64.ofInt n) = true
  | .float x, .float y => x.eqv y = true

theorem Equal.symm {m n : Quantity} (equal : m.Equal n) : n.Equal m := by
  cases m with
  | whole m => cases n with
    | whole n => exact Eq.symm equal
    | float y => exact ⟨equal.1, Binary64.eqv_symm equal.2⟩
  | float x => cases n with
    | whole n => exact ⟨equal.1, Binary64.eqv_symm equal.2⟩
    | float y => exact Binary64.eqv_symm equal

/-- Whole numbers that equal one float are the same. -/
theorem Exact.eq_of_eqv {m n : Int} (first : Exact m) (second : Exact n)
    (equal : (Binary64.ofInt m).eqv (Binary64.ofInt n) = true) : m = n := by
  have units := Binary64.units_eq_of_eqv equal
  rw [first, second] at units
  have positive := Binary64.unit_pos
  exact Int.eq_of_mul_eq_mul_right (by omega) units

theorem Equal.trans {l m n : Quantity} (first : l.Equal m) (second : m.Equal n) : l.Equal n := by
  cases m with
  | whole m =>
      -- A whole number beside a whole number is that number, so only two floats leave something to show.
      cases l with
      | whole l => cases first; exact second
      | float x => cases n with
        | whole n => cases second; exact first
        | float z => exact Binary64.eqv_trans first.2 second.2
  | float y =>
      cases l with
      | whole l => cases n with
        | whole n => exact first.1.eq_of_eqv second.1 (Binary64.eqv_trans first.2 second.2)
        | float z => exact ⟨first.1, Binary64.eqv_trans first.2 second⟩
      | float x => cases n with
        | whole n => exact ⟨second.1, Binary64.eqv_trans first second.2⟩
        | float z => exact Binary64.eqv_trans first second

end Quantity

namespace Value

def quantity? : Value → Option Quantity
  | .bool b => some (.whole (if b then 1 else 0))
  | .int n => some (.whole n)
  | .float x => some (.float x)
  | _ => .none

theorem exact_bit (b : Bool) : Quantity.Exact (if b then 1 else 0) := by
  unfold Quantity.Exact
  cases b <;> decide +kernel

theorem exactFloat?_of_exact {n : Int} (exact : Quantity.Exact n) :
    exactFloat? (.int n) = some (Binary64.ofInt n) := if_pos exact

theorem exactFloat?_of_not_exact {n : Int} (inexact : ¬ Quantity.Exact n) :
    exactFloat? (.int n) = .none := if_neg inexact

/-- Numbers are compared as what they count as, and equal nothing else. -/
theorem eqv_iff_of_quantity {v : Value} {m : Quantity} (number : v.quantity? = some m) {w : Value} :
    v.eqv w = true ↔ ∃ n, w.quantity? = some n ∧ m.Equal n := by
  cases v <;> cases number <;> cases w
  case bool.refl.float b y =>
    simp [eqv, common?, exactFloat?, quantity?, Quantity.Equal, exact_bit b]
  case float.refl.bool x b =>
    simp [eqv, common?, exactFloat?, quantity?, Quantity.Equal, exact_bit b]
  case int.refl.float m y =>
    by_cases exact : Quantity.Exact m
    · simp [eqv, common?, exactFloat?_of_exact exact, quantity?, Quantity.Equal, exact]
    · simp [eqv, common?, exactFloat?_of_not_exact exact, quantity?, Quantity.Equal, exact]
  case float.refl.int x n =>
    by_cases exact : Quantity.Exact n
    · simp [eqv, common?, exactFloat?_of_exact exact, quantity?, Quantity.Equal, exact]
    · simp [eqv, common?, exactFloat?_of_not_exact exact, quantity?, Quantity.Equal, exact]
  all_goals simp [eqv, common?, exactFloat?, int?, quantity?, Quantity.Equal]

theorem eqv_undefined_iff {w : Value} : eqv .undefined w = true ↔ w = .undefined := by
  cases w <;> simp [eqv, common?, exactFloat?, int?]

theorem eqv_none_iff {w : Value} : eqv .none w = true ↔ w = .none := by
  cases w <;> simp [eqv, common?, exactFloat?, int?]

theorem eqv_text_iff {s : String} {w : Value} : eqv (.text s) w = true ↔ w = .text s := by
  cases w <;> simp [eqv, common?, exactFloat?, int?, eq_comm]

theorem eqvItems_iff {xs ys : List Value} :
    eqvItems xs ys = true ↔ List.Forall₂ (fun x y => x.eqv y = true) xs ys := by
  induction xs generalizing ys with
  | nil => cases ys <;> simp [eqvItems]
  | cons x rest ih => cases ys <;> simp [eqvItems, ih]

theorem eqv_list_iff {xs : List Value} {w : Value} : eqv (.list xs) w = true ↔
    ∃ ys, w = .list ys ∧ List.Forall₂ (fun x y => x.eqv y = true) xs ys := by
  cases w <;> simp [eqv, common?, exactFloat?, int?, eqvItems_iff]

/-- Whether two entries have equal keys and equal values. -/
def SameEntry (x y : Value × Value) : Prop := x.1.eqv y.1 = true ∧ x.2.eqv y.2 = true

theorem eqvEntries_iff {xs ys : List (Value × Value)} :
    eqvEntries xs ys = true ↔ ∀ x ∈ xs, ∃ y ∈ ys, SameEntry x y := by
  induction xs with
  | nil => simp [eqvEntries]
  | cons x rest ih => simp [eqvEntries, ih, SameEntry]

theorem eqv_map_iff {xs : List (Value × Value)} {w : Value} : eqv (.map xs) w = true ↔
    ∃ ys, w = .map ys ∧ xs.length = ys.length ∧ ∀ x ∈ xs, ∃ y ∈ ys, SameEntry x y := by
  cases w <;> simp [eqv, common?, exactFloat?, int?, eqvEntries_iff]

/-- No number without value and no map with two equal keys, at any depth. -/
inductive Sound : Value → Prop where
  | undefined : Sound .undefined
  | none : Sound .none
  | bool (b : Bool) : Sound (.bool b)
  | int (n : Int) : Sound (.int n)
  | float {x : Binary64} (value : x.isNaN = false) : Sound (.float x)
  | text (s : String) : Sound (.text s)
  | list {items : List Value} (each : ∀ v ∈ items, Sound v) : Sound (.list items)
  | map {entries : List (Value × Value)} (apart : entries.Pairwise fun x y => x.1.eqv y.1 = false)
      (keys : ∀ e ∈ entries, Sound e.1) (values : ∀ e ∈ entries, Sound e.2) : Sound (.map entries)

theorem eqv_self_of_quantity {v : Value} {m : Quantity} (number : v.quantity? = some m)
    (equal : m.Equal m) : v.eqv v = true :=
  (eqv_iff_of_quantity number).mpr ⟨m, number, equal⟩

theorem Sound.eqv_self {v : Value} (sound : v.Sound) : v.eqv v = true := by
  induction sound with
  | undefined => exact eqv_undefined_iff.mpr rfl
  | none => exact eqv_none_iff.mpr rfl
  | bool b => exact eqv_self_of_quantity rfl (Eq.refl (if b then 1 else 0 : Int))
  | int n => exact eqv_self_of_quantity rfl (Eq.refl n)
  | float value => exact eqv_self_of_quantity rfl (Binary64.eqv_self value)
  | text s => exact eqv_text_iff.mpr rfl
  | list each ih => exact eqv_list_iff.mpr ⟨_, rfl, List.forall₂_same.mpr ih⟩
  | map apart keys values ihKeys ihValues =>
      exact eqv_map_iff.mpr ⟨_, rfl, rfl, fun e member =>
        ⟨e, member, ihKeys e member, ihValues e member⟩⟩

theorem eqv_trans_of_quantity {u v w : Value} {m : Quantity} (number : u.quantity? = some m)
    (first : u.eqv v = true) (second : v.eqv w = true) : u.eqv w = true := by
  obtain ⟨n, middle, equal⟩ := (eqv_iff_of_quantity number).mp first
  obtain ⟨k, last, further⟩ := (eqv_iff_of_quantity middle).mp second
  exact (eqv_iff_of_quantity number).mpr ⟨k, last, equal.trans further⟩

theorem forall₂_eqv_trans {xs ys zs : List Value}
    (each : ∀ x ∈ xs, ∀ y z, x.eqv y = true → y.eqv z = true → x.eqv z = true)
    (first : List.Forall₂ (fun x y => x.eqv y = true) xs ys)
    (second : List.Forall₂ (fun y z => y.eqv z = true) ys zs) :
    List.Forall₂ (fun x z => x.eqv z = true) xs zs := by
  induction first generalizing zs with
  | nil => exact second
  | @cons x y xs ys same rest ih =>
      obtain ⟨z, zs, next, further, rfl⟩ := List.forall₂_cons_left_iff.mp second
      obtain ⟨here, later⟩ := List.forall_mem_cons.mp each
      exact .cons (here y z same next) (ih later further)

theorem Sound.eqv_trans {u v w : Value} (sound : u.Sound) (first : u.eqv v = true)
    (second : v.eqv w = true) : u.eqv w = true := by
  induction sound generalizing v w with
  | undefined => cases eqv_undefined_iff.mp first; exact second
  | none => cases eqv_none_iff.mp first; exact second
  | bool b => exact eqv_trans_of_quantity rfl first second
  | int n => exact eqv_trans_of_quantity rfl first second
  | float value => exact eqv_trans_of_quantity rfl first second
  | text s => cases eqv_text_iff.mp first; exact second
  | list each ih =>
      obtain ⟨ys, rfl, front⟩ := eqv_list_iff.mp first
      obtain ⟨zs, rfl, back⟩ := eqv_list_iff.mp second
      exact eqv_list_iff.mpr ⟨zs, rfl, forall₂_eqv_trans (fun x member y z => ih x member) front back⟩
  | map apart keys values ihKeys ihValues =>
      obtain ⟨ys, rfl, size, front⟩ := eqv_map_iff.mp first
      obtain ⟨zs, rfl, size', back⟩ := eqv_map_iff.mp second
      refine eqv_map_iff.mpr ⟨zs, rfl, size.trans size', fun x member => ?_⟩
      obtain ⟨y, inside, same⟩ := front x member
      obtain ⟨z, found, further⟩ := back y inside
      exact ⟨z, found, ihKeys x member same.1 further.1, ihValues x member same.2 further.2⟩

theorem eqv_symm_of_quantity {v w : Value} {m : Quantity} (number : v.quantity? = some m)
    (equal : v.eqv w = true) : w.eqv v = true := by
  obtain ⟨n, other, same⟩ := (eqv_iff_of_quantity number).mp equal
  exact (eqv_iff_of_quantity other).mpr ⟨m, number, same.symm⟩

theorem forall₂_eqv_symm {xs ys : List Value}
    (each : ∀ x ∈ xs, ∀ y, x.eqv y = true → y.eqv x = true)
    (same : List.Forall₂ (fun x y => x.eqv y = true) xs ys) :
    List.Forall₂ (fun y x => y.eqv x = true) ys xs := by
  induction same with
  | nil => exact .nil
  | @cons x y xs ys equal rest ih =>
      obtain ⟨here, later⟩ := List.forall_mem_cons.mp each
      exact .cons (here y equal) (ih later)

theorem Sound.eqv_symm {v w : Value} (sound : v.Sound) (equal : v.eqv w = true) :
    w.eqv v = true := by
  induction sound generalizing w with
  | undefined => cases eqv_undefined_iff.mp equal; exact equal
  | none => cases eqv_none_iff.mp equal; exact equal
  | bool b => exact eqv_symm_of_quantity rfl equal
  | int n => exact eqv_symm_of_quantity rfl equal
  | float value => exact eqv_symm_of_quantity rfl equal
  | text s => cases eqv_text_iff.mp equal; exact equal
  | list each ih =>
      obtain ⟨ys, rfl, same⟩ := eqv_list_iff.mp equal
      exact eqv_list_iff.mpr ⟨_, rfl, forall₂_eqv_symm (fun x member y => ih x member) same⟩
  | @map xs apart keys values ihKeys ihValues =>
      obtain ⟨ys, rfl, size, same⟩ := eqv_map_iff.mp equal
      -- Two entries with one partner would have equal keys.
      have own : xs.Pairwise fun a b => ∀ y, SameEntry a y → ¬ SameEntry b y := by
        refine apart.imp_of_mem ?_
        intro a b left right differ y first second
        have keysEqual := (keys a left).eqv_trans first.1 (ihKeys b right second.1)
        rw [differ] at keysEqual
        cases keysEqual
      refine eqv_map_iff.mpr ⟨xs, rfl, size.symm, fun y inside => ?_⟩
      obtain ⟨x, member, equal⟩ := exists_partner size same own y inside
      exact ⟨x, member, ihKeys x member equal.1, ihValues x member equal.2⟩

/-- Equality is an equivalence among the values that satisfy `s`. -/
def EquivalenceOn (s : Value → Prop) : Prop :=
  Equivalence fun v w : Subtype s => v.1.eqv w.1 = true

theorem equivalenceOn_sound : EquivalenceOn Sound where
  refl v := v.2.eqv_self
  symm {v _} equal := v.2.eqv_symm equal
  trans {u _ _} first second := u.2.eqv_trans first second

/-- Keys of a configuration's mapping are texts, and no two of them are the same. -/
theorem sound_ofConfigFields {fields : Fields} (distinct : Dict.Distinct fields)
    (each : ∀ entry ∈ fields, (ofConfig entry.2).Sound) : (Value.map (ofConfigFields fields)).Sound := by
  rw [ofConfigFields_eq_map]
  refine .map ?_ ?_ ?_
  · refine List.pairwise_map.mpr ((List.pairwise_map.mp distinct).imp ?_)
    intro a b apart
    rw [eqv_text]
    exact decide_eq_false apart
  · intro e member
    obtain ⟨entry, -, rfl⟩ := List.mem_map.mp member
    exact .text entry.1
  · intro e member
    obtain ⟨entry, inside, rfl⟩ := List.mem_map.mp member
    exact each entry inside

theorem sound_ofConfig {v : Groundwork.Value} (keyed : v.WellKeyed) : (ofConfig v).Sound := by
  induction keyed with
  | null => exact .none
  | bool b => exact .bool b
  | number n => cases n with
    | whole n => exact .int n.val
    | float x finite => exact .float (Binary64.isNaN_of_isFinite finite)
  | string s => exact .text s
  | list each ih =>
      rw [ofConfig, ofConfigItems_eq_map]
      exact .list (List.forall_mem_map.mpr ih)
  | «variable» distinct each ih => exact sound_ofConfigFields distinct ih
  | map distinct each ih => exact sound_ofConfigFields distinct ih

end Value

end Groundwork.Jinja
