import Groundwork.Proofs.NamePool
import Mathlib.Data.Finset.Card

set_option autoImplicit false

/- Pools over runs of requests. Names are set aside and asked for in any order; whatever came
before, the search for a free number ends, after no more tries than there are taken names and one
more. So no name is handed out twice in a run, for whatever types, and none that was taken at the
time. -/
namespace Groundwork.NamePool

/-- Going up from `k`, the search ends at `n`: it stops at a free name and passes over a taken one. -/
inductive Searches (taken : List String) (type : String) : Nat → Nat → Prop where
  | found {k : Nat} (free : nameOf type k ∉ taken) : Searches taken type k k
  | next {k n : Nat} (occupied : nameOf type k ∈ taken) (rest : Searches taken type (k + 1) n) :
      Searches taken type k n

theorem Searches.unique {taken : List String} {type : String} {k m n : Nat}
    (first : Searches taken type k m) (second : Searches taken type k n) : m = n := by
  induction first with
  | found free => cases second with
    | found _ => rfl
    | next occupied _ => exact absurd occupied free
  | next occupied rest ih => cases second with
    | found free => exact absurd occupied free
    | next _ further => exact ih further

/-- The search passes over every number whose name is taken. -/
theorem searches_of_free {taken : List String} {type : String} {n : Nat}
    (free : nameOf type n ∉ taken) (steps : Nat) {k : Nat} (reached : k + steps = n)
    (occupied : ∀ j, k ≤ j → j < n → nameOf type j ∈ taken) : Searches taken type k n := by
  induction steps generalizing k with
  | zero =>
      cases reached
      exact .found free
  | succ steps ih =>
      have here : nameOf type k ∈ taken := occupied k (Nat.le_refl k) (by omega)
      exact .next here (ih (by omega) fun j lower upper => occupied j (by omega) upper)

/-- It ends, and nowhere but at the least number whose name is free. -/
theorem IsLeastFree.searches_iff {taken : List String} {type : String} {k n : Nat}
    (least : IsLeastFree taken type k) : Searches taken type 1 n ↔ n = k := by
  have positive := least.positive
  have ends : Searches taken type 1 k :=
    searches_of_free least.free (k - 1) (by omega) least.least
  constructor
  · exact fun other => other.unique ends
  · rintro rfl
    exact ends

/-- The names of the numbers that were passed over are different taken ones. -/
theorem IsLeastFree.le_card {taken : List String} {type : String} {k : Nat}
    (least : IsLeastFree taken type k) : k ≤ taken.toFinset.card + 1 := by
  have passed : ∀ j, 1 ≤ j → j < 1 + (k - 1) → nameOf type j ∈ taken.dedup := by
    intro j lower upper
    exact List.mem_dedup.mpr (least.least j lower (by omega))
  have bound := tries_le_length passed
  rw [← List.card_toFinset] at bound
  omega

/-- Only the taken names matter, not how often or in which order they stand. -/
theorem IsLeastFree.congr {taken other : List String} {type : String} {k : Nat}
    (least : IsLeastFree taken type k) (same : ∀ name, name ∈ taken ↔ name ∈ other) :
    IsLeastFree other type k :=
  ⟨least.positive, (same _).not.mp least.free,
    fun j lower upper => (same _).mp (least.least j lower upper)⟩

/-- What is asked of a pool: to set a name aside, or to hand one out for a type. -/
inductive Request where
  | reserve (name : String)
  | generate (type : String)

/-- The name that a request takes. -/
def Request.name (p : NamePool) : Request → String
  | .reserve name => name
  | .generate type => (p.fresh type).1

def answer (p : NamePool) : Request → NamePool
  | .reserve name => p.reserve name
  | .generate type => (p.fresh type).2

def answered (p : NamePool) (requests : List Request) : NamePool := requests.foldl answer p

/-- The names that the requests take one after the other. -/
def names (p : NamePool) : List Request → List String
  | [] => []
  | r :: rest => r.name p :: (p.answer r).names rest

/-- Those among them that are handed out. -/
def generated (p : NamePool) : List Request → List String
  | [] => []
  | .reserve name :: rest => (p.reserve name).generated rest
  | .generate type :: rest => (p.fresh type).1 :: (p.fresh type).2.generated rest

theorem answer_naming (p : NamePool) (r : Request) : (p.answer r).naming = p.naming := by
  cases r with
  | reserve name => exact reserve_naming p name
  | generate type => exact fresh_naming p type

theorem mem_taken_answer (p : NamePool) (r : Request) (other : String) :
    other ∈ (p.answer r).taken ↔ other = r.name p ∨ other ∈ p.taken := by
  cases r with
  | reserve name => exact mem_taken_reserve p name other
  | generate type => exact mem_taken_fresh p type other

theorem answered_naming (p : NamePool) (requests : List Request) :
    (p.answered requests).naming = p.naming := by
  induction requests generalizing p with
  | nil => rfl
  | cons r rest ih => exact (ih (p.answer r)).trans (answer_naming p r)

/-- After a run those names are taken that were taken before it or in it. -/
theorem mem_taken_answered (p : NamePool) (requests : List Request) (other : String) :
    other ∈ (p.answered requests).taken ↔ other ∈ p.taken ++ p.names requests := by
  induction requests generalizing p with
  | nil => rw [names, List.append_nil]; rfl
  | cons r rest ih =>
      have next : p.answered (r :: rest) = (p.answer r).answered rest := rfl
      rw [next, ih, names, List.mem_append, List.mem_append, List.mem_cons, mem_taken_answer]
      tauto

theorem generated_append (p : NamePool) (before after : List Request) :
    p.generated (before ++ after) = p.generated before ++ (p.answered before).generated after := by
  induction before generalizing p with
  | nil => rfl
  | cons r rest ih =>
      cases r with
      | reserve name => exact ih (p.reserve name)
      | generate type => exact congrArg ((p.fresh type).1 :: ·) (ih (p.fresh type).2)

theorem fresh_not_mem (p : NamePool) (type : String) (sequential : p.naming = .sequential) :
    (p.fresh type).1 ∉ p.taken :=
  (number_sequential p type sequential).free

/-- Once a name is taken, it is not handed out any more. -/
theorem not_mem_generated (p : NamePool) (sequential : p.naming = .sequential)
    (requests : List Request) {name : String} (occupied : name ∈ p.taken) :
    name ∉ p.generated requests := by
  induction requests generalizing p with
  | nil => exact List.not_mem_nil
  | cons r rest ih =>
      have kept : name ∈ (p.answer r).taken := (mem_taken_answer p r name).mpr (.inr occupied)
      have later : name ∉ (p.answer r).generated rest :=
        ih _ ((answer_naming p r).trans sequential) kept
      cases r with
      | reserve other => exact later
      | generate type =>
          intro member
          rcases List.mem_cons.mp member with rfl | member
          · exact fresh_not_mem p type sequential occupied
          · exact later member

theorem nodup_generated (p : NamePool) (sequential : p.naming = .sequential)
    (requests : List Request) : (p.generated requests).Nodup := by
  induction requests generalizing p with
  | nil => exact List.nodup_nil
  | cons r rest ih =>
      have later : ((p.answer r).generated rest).Nodup := ih _ ((answer_naming p r).trans sequential)
      cases r with
      | reserve name => exact later
      | generate type =>
          have taken : (p.fresh type).1 ∈ (p.fresh type).2.taken :=
            (mem_taken_fresh p type _).mpr (.inl rfl)
          have naming : (p.fresh type).2.naming = .sequential := (fresh_naming p type).trans sequential
          exact List.nodup_cons.mpr ⟨not_mem_generated _ naming rest taken, later⟩

/-- The name a pool hands out for a type: the search ends, and at the least number whose name is none of
the known ones. -/
structure HandsOut (p : NamePool) (type : String) (known : List String) (k : Nat) : Prop where
  ends : ∀ n, Searches p.taken type 1 n ↔ n = k
  name : (p.fresh type).1 = nameOf type k
  least : IsLeastFree known type k
  bound : k ≤ known.toFinset.card + 1

theorem handsOut_number (p : NamePool) (type : String) (sequential : p.naming = .sequential)
    {known : List String} (same : ∀ name, name ∈ p.taken ↔ name ∈ known) :
    p.HandsOut type known (p.number type) := by
  have least := number_sequential p type sequential
  have leastKnown := least.congr same
  exact ⟨fun _ => least.searches_iff, fresh_name p type, leastKnown, leastKnown.le_card⟩

/-- What a pool hands out in a run of requests: the least free name each time, so that none is handed out
twice, and none that was taken before the run or reserved in it earlier. -/
structure NamesAnew (p : NamePool) (requests : List Request) : Prop where
  each : ∀ before type after, requests = before ++ .generate type :: after →
    ∃ k, (p.answered before).HandsOut type (p.taken ++ p.names before) k
  distinct : (p.generated requests).Nodup
  unknown : ∀ name ∈ p.generated requests, name ∉ p.taken
  unreserved : ∀ before name after, requests = before ++ .reserve name :: after →
    ∃ later, p.generated requests = p.generated before ++ later ∧ name ∉ later

theorem namesAnew_of_sequential (p : NamePool) (sequential : p.naming = .sequential)
    (requests : List Request) : p.NamesAnew requests := by
  have naming : ∀ before, (p.answered before).naming = .sequential :=
    fun before => (answered_naming p before).trans sequential
  refine ⟨?_, nodup_generated p sequential requests, ?_, ?_⟩
  · intro before type after _
    exact ⟨_, handsOut_number _ type (naming before) (mem_taken_answered p before)⟩
  · intro name member occupied
    exact not_mem_generated p sequential requests occupied member
  · rintro before name after rfl
    have reserved : name ∈ ((p.answered before).reserve name).taken :=
      (mem_taken_reserve _ name name).mpr (.inl rfl)
    exact ⟨_, generated_append p before (.reserve name :: after),
      not_mem_generated _ ((reserve_naming _ name).trans (naming before)) after reserved⟩

/-- A reserved name is passed over by the second search. -/
theorem namesAnew_of_sequential_gap :
    let p := empty .sequential 0
    let requests := [.reserve "bucket_2", .generate "bucket", .generate "bucket"]
    p.naming = .sequential ∧ p.generated requests = ["bucket_1", "bucket_3"] ∧
      p.NamesAnew requests :=
  ⟨rfl, by decide +kernel, namesAnew_of_sequential (empty .sequential 0) rfl _⟩

end Groundwork.NamePool
