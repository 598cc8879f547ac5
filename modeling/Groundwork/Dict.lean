set_option autoImplicit false

/- Ordered string-keyed maps as lists of pairs. Writing an existing key keeps its place, writing a
new one appends it, so the order of the list is the order in which keys first appeared. -/
namespace Groundwork

abbrev Dict (α : Type) := List (String × α)

namespace Dict

variable {α β : Type}

def get? : Dict α → String → Option α
  | [], _ => none
  | (key, value) :: rest, k => if key = k then some value else get? rest k

def contains : Dict α → String → Bool
  | [], _ => false
  | (key, _) :: rest, k => key == k || contains rest k

def keys (d : Dict α) : List String := d.map Prod.fst

def values (d : Dict α) : List α := d.map Prod.snd

def insert : Dict α → String → α → Dict α
  | [], k, v => [(k, v)]
  | (key, value) :: rest, k, v =>
      if key = k then (key, v) :: rest else (key, value) :: insert rest k v

def erase (d : Dict α) (k : String) : Dict α := d.filter fun entry => entry.1 ≠ k

def eraseAll (d : Dict α) (ks : List String) : Dict α := ks.foldl erase d

def ofList (entries : List (String × α)) : Dict α :=
  entries.foldl (fun d entry => insert d entry.1 entry.2) []

/-- Adds every entry of `defaults` whose key is still absent. -/
def merge (d defaults : Dict α) : Dict α :=
  defaults.foldl (fun acc entry => if contains acc entry.1 then acc else acc ++ [entry]) d

/-- The entries by ascending key, in the byte order of their text; of two entries with one key the
later one stands. -/
def sorted (d : Dict α) : Dict α :=
  (ofList d).mergeSort fun a b => decide (a.1 ≤ b.1)

theorem contains_iff_mem_keys (d : Dict α) (k : String) : contains d k = true ↔ k ∈ keys d := by
  induction d with
  | nil => simp [contains, keys]
  | cons entry rest ih =>
      simp only [contains, Bool.or_eq_true, beq_iff_eq, ih, keys, List.map_cons, List.mem_cons]
      exact or_congr_left eq_comm

theorem get?_eq_none_iff (d : Dict α) (k : String) : get? d k = none ↔ k ∉ keys d := by
  induction d with
  | nil => simp [get?, keys]
  | cons entry rest ih =>
      by_cases h : entry.1 = k <;> simp_all [get?, keys, eq_comm]

@[simp] theorem get?_insert_self (d : Dict α) (k : String) (v : α) :
    get? (insert d k v) k = some v := by
  induction d with
  | nil => simp [insert, get?]
  | cons entry rest ih => by_cases h : entry.1 = k <;> simp [insert, get?, h, ih]

theorem get?_insert_of_ne (d : Dict α) {k l : String} (v : α) (h : k ≠ l) :
    get? (insert d k v) l = get? d l := by
  induction d with
  | nil => simp [insert, get?, h]
  | cons entry rest ih =>
      by_cases hk : entry.1 = k
      · simp [insert, get?, hk, h]
      · simp [insert, get?, hk, ih]

theorem keys_insert (d : Dict α) (k : String) (v : α) :
    keys (insert d k v) = if k ∈ keys d then keys d else keys d ++ [k] := by
  induction d with
  | nil => simp [insert, keys]
  | cons entry rest ih =>
      by_cases h : entry.1 = k
      · simp [insert, keys, h]
      · have hk : k ≠ entry.1 := fun e => h e.symm
        simp only [insert, h, if_false, keys, List.map_cons, List.mem_cons, hk, false_or] at ih ⊢
        rw [ih]
        by_cases hm : k ∈ rest.map Prod.fst <;> simp [hm]

end Dict

end Groundwork
