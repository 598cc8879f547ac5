import Groundwork.Dict
import Mathlib.Data.List.Induction

set_option autoImplicit false

/- Laws of ordered maps. A map is well formed when no key stands twice in it; writing and merging
keep it so. Merging answers a look-up from the defaults exactly where the first map has no entry. -/
namespace Groundwork.Dict

variable {α : Type}

/-- No key stands twice. -/
def Distinct (d : Dict α) : Prop := (keys d).Nodup

theorem mem_of_get? {d : Dict α} {k : String} {v : α} (found : get? d k = some v) :
    (k, v) ∈ d := by
  induction d with
  | nil => cases found
  | cons entry rest ih =>
      simp only [get?] at found
      split at found
      · rename_i same
        cases found
        rw [← same]
        exact List.mem_cons_self
      · exact List.mem_cons_of_mem entry (ih found)

theorem mem_keys_of_mem {d : Dict α} {k : String} {v : α} (member : (k, v) ∈ d) : k ∈ keys d :=
  List.mem_map_of_mem member

theorem Distinct.get?_of_mem {d : Dict α} (distinct : Distinct d) {k : String} {v : α}
    (member : (k, v) ∈ d) : get? d k = some v := by
  induction d with
  | nil => cases member
  | cons entry rest ih =>
      rcases List.nodup_cons.mp distinct with ⟨head, tail⟩
      rcases List.mem_cons.mp member with rfl | member
      · simp only [get?, if_pos]
      · have apart : entry.1 ≠ k := by
          intro same
          rw [same] at head
          exact head (mem_keys_of_mem member)
        simp only [get?, if_neg apart]
        exact ih tail member

theorem Distinct.append {d : Dict α} (distinct : Distinct d) (entry : String × α)
    (absent : entry.1 ∉ keys d) : Distinct (d ++ [entry]) := by
  simp only [Distinct, keys, List.map_append, List.map_cons, List.map_nil]
  refine List.nodup_append.mpr ⟨distinct, List.pairwise_singleton _ _, ?_⟩
  intro key member other single same
  rw [List.mem_singleton.mp single] at same
  exact absent (same ▸ member)

theorem Distinct.insert {d : Dict α} (distinct : Distinct d) (k : String) (v : α) :
    Distinct (insert d k v) := by
  unfold Distinct
  rw [keys_insert]
  split
  · exact distinct
  · rename_i absent
    have longer := distinct.append (k, v) absent
    simpa only [Distinct, keys, List.map_append, List.map_cons, List.map_nil] using longer

/-- An entry of a map that was written to is an old one or the new one. -/
theorem mem_insert {d : Dict α} {k : String} {v : α} {entry : String × α}
    (member : entry ∈ insert d k v) : entry ∈ d ∨ entry = (k, v) := by
  induction d with
  | nil => exact .inr (List.mem_singleton.mp member)
  | cons first rest ih =>
      simp only [insert] at member
      split at member
      · rename_i same
        rcases List.mem_cons.mp member with rfl | later
        · exact .inr (by rw [same])
        · exact .inl (List.mem_cons_of_mem first later)
      · rcases List.mem_cons.mp member with rfl | later
        · exact .inl List.mem_cons_self
        · exact (ih later).imp_left (List.mem_cons_of_mem first)

/-- A map written entry by entry has no key twice and no entry that was not written. -/
theorem ofList_sound (entries : List (String × α)) :
    Distinct (ofList entries) ∧ ∀ entry ∈ ofList entries, entry ∈ entries := by
  have each : ∀ (d : Dict α) (written : List (String × α)), Distinct d →
      (∀ entry ∈ d, entry ∈ entries) → (∀ entry ∈ written, entry ∈ entries) →
      Distinct (written.foldl (fun d entry => insert d entry.1 entry.2) d) ∧
        ∀ entry ∈ written.foldl (fun d entry => insert d entry.1 entry.2) d, entry ∈ entries := by
    intro d written distinct known later
    induction written generalizing d with
    | nil => exact ⟨distinct, known⟩
    | cons first rest ih =>
        refine ih _ (distinct.insert first.1 first.2) ?_
          fun entry member => later entry (List.mem_cons_of_mem first member)
        intro entry member
        rcases mem_insert member with old | rfl
        · exact known entry old
        · exact later first List.mem_cons_self
  exact each [] entries List.nodup_nil (fun _ member => nomatch member) fun _ member => member

theorem insert_of_absent {d : Dict α} {k : String} (absent : k ∉ keys d) (v : α) :
    insert d k v = d ++ [(k, v)] := by
  induction d with
  | nil => rfl
  | cons entry rest ih =>
      obtain ⟨apart, later⟩ := not_or.mp (fun same => absent (List.mem_cons.mpr same))
      rw [insert, if_neg (Ne.symm apart), ih later, List.cons_append]

/-- Writing entries whose keys are all different keeps them as they are. -/
theorem ofList_of_distinct {entries : List (String × α)} (distinct : Distinct entries) :
    ofList entries = entries := by
  have each : ∀ (d : Dict α) (written : List (String × α)), Distinct (d ++ written) →
      written.foldl (fun d entry => insert d entry.1 entry.2) d = d ++ written := by
    intro d written distinct
    induction written generalizing d with
    | nil => exact (List.append_nil d).symm
    | cons first rest ih =>
        have absent : first.1 ∉ keys d := by
          intro present
          unfold Distinct keys at distinct
          rw [List.map_append, List.nodup_append] at distinct
          exact distinct.2.2 first.1 present first.1 List.mem_cons_self rfl
        have moved : d ++ first :: rest = (d ++ [first]) ++ rest := List.append_cons d first rest
        rw [List.foldl_cons, insert_of_absent absent, moved]
        exact ih (d ++ [first]) (moved ▸ distinct)
  exact each [] entries distinct

theorem get?_append (d e : Dict α) (k : String) : get? (d ++ e) k = (get? d k).or (get? e k) := by
  induction d with
  | nil => rfl
  | cons entry rest ih =>
      by_cases same : entry.1 = k
      · simp only [List.cons_append, get?, if_pos same, Option.some_or]
      · simp only [List.cons_append, get?, if_neg same, ih]

theorem merge_nil (d : Dict α) : merge d [] = d := rfl

theorem merge_cons (d : Dict α) (entry : String × α) (defaults : Dict α) :
    merge d (entry :: defaults) =
      merge (if contains d entry.1 then d else d ++ [entry]) defaults := rfl

theorem Distinct.merge {d : Dict α} (distinct : Distinct d) (defaults : Dict α) :
    Distinct (merge d defaults) := by
  induction defaults generalizing d with
  | nil => exact distinct
  | cons entry rest ih =>
      rw [merge_cons]
      split
      · exact ih distinct
      · rename_i absent
        rw [contains_iff_mem_keys] at absent
        exact ih (distinct.append entry absent)

theorem get?_merge (d defaults : Dict α) (k : String) :
    get? (merge d defaults) k = (get? d k).or (get? defaults k) := by
  induction defaults generalizing d with
  | nil => rw [merge_nil, get?, Option.or_none]
  | cons entry rest ih =>
      rw [merge_cons, ih]
      by_cases same : entry.1 = k
      · have found : get? (entry :: rest) k = some entry.2 := by simp only [get?, if_pos same]
        rw [found]
        split
        · rename_i present
          have known : get? d k ≠ none := by
            rw [Ne, get?_eq_none_iff, ← same, ← contains_iff_mem_keys]
            exact not_not_intro present
          obtain ⟨v, value⟩ := Option.ne_none_iff_exists'.mp known
          rw [value, Option.some_or, Option.some_or]
        · rename_i absent
          have unknown : get? d k = none := by
            rw [get?_eq_none_iff, ← same, ← contains_iff_mem_keys]
            exact absent
          simp only [get?_append, unknown, get?, if_pos same, Option.none_or, Option.some_or]
      · have skipped : get? (entry :: rest) k = get? rest k := by simp only [get?, if_neg same]
        rw [skipped]
        split
        · rfl
        · simp only [get?_append, get?, if_neg same, Option.or_none]

/-- Merging keeps the entries of the first map and appends the defaults for other keys. -/
theorem merge_eq_append (d : Dict α) {defaults : Dict α} (distinct : Distinct defaults) :
    merge d defaults = d ++ defaults.filter fun entry => entry.1 ∉ keys d := by
  induction defaults generalizing d with
  | nil => rw [merge_nil, List.filter_nil, List.append_nil]
  | cons entry rest ih =>
      obtain ⟨single, later⟩ := List.nodup_cons.mp distinct
      rw [merge_cons]
      split
      · rename_i present
        rw [contains_iff_mem_keys] at present
        rw [ih d later, List.filter_cons_of_neg (by simpa using present)]
      · rename_i absent
        rw [contains_iff_mem_keys] at absent
        -- The keys that follow are others, so it makes no difference to them that this one is there now.
        have others : ∀ e ∈ rest, (e.1 ∈ keys (d ++ [entry]) ↔ e.1 ∈ keys d) := by
          intro e member
          have apart : e.1 ≠ entry.1 := fun same => single (same ▸ List.mem_map_of_mem member)
          simp [keys, apart]
        have same : rest.filter (fun e => e.1 ∉ keys (d ++ [entry])) =
            rest.filter fun e => e.1 ∉ keys d :=
          List.filter_congr fun e member => by simp only [others e member]
        rw [ih _ later, same, List.filter_cons_of_pos (by simpa using absent), List.append_assoc,
          List.singleton_append]

theorem keys_merge (d : Dict α) {defaults : Dict α} (distinct : Distinct defaults) :
    keys (merge d defaults) = keys d ++ (keys defaults).filter (· ∉ keys d) := by
  rw [merge_eq_append d distinct]
  unfold keys
  rw [List.map_append, List.filter_map]
  rfl

/-- Defaults whose keys are all there already add nothing. -/
theorem merge_of_covered {d defaults : Dict α} (covered : ∀ k ∈ keys defaults, k ∈ keys d) :
    merge d defaults = d := by
  induction defaults with
  | nil => rfl
  | cons entry rest ih =>
      obtain ⟨first, others⟩ := List.forall_mem_cons.mp covered
      rw [merge_cons, if_pos ((contains_iff_mem_keys d entry.1).mpr first)]
      exact ih others

theorem mem_keys_merge {d defaults : Dict α} {k : String} :
    k ∈ keys (merge d defaults) ↔ k ∈ keys d ∨ k ∈ keys defaults := by
  rw [← Decidable.not_iff_not, not_or, ← get?_eq_none_iff, ← get?_eq_none_iff, ← get?_eq_none_iff, get?_merge,
    Option.or_eq_none_iff]

theorem keys_insert_eq_append (d : Dict α) (k : String) (v : α) :
    keys (insert d k v) = keys d ++ [k].filter (· ∉ keys d) := by
  rw [keys_insert]
  split
  · rename_i present
    rw [List.filter_cons_of_neg (by simpa using present), List.filter_nil, List.append_nil]
  · rename_i absent
    rw [List.filter_cons_of_pos (by simpa using absent), List.filter_nil]

theorem mem_keys_insert {d : Dict α} {k l : String} {v : α} (member : l ∈ keys d) :
    l ∈ keys (insert d k v) := by
  rw [keys_insert_eq_append]
  exact List.mem_append_left _ member

/-- Writing what is there already changes nothing. -/
theorem insert_of_get? {d : Dict α} {k : String} {v : α} (found : get? d k = some v) :
    insert d k v = d := by
  induction d with
  | nil => cases found
  | cons entry rest ih =>
      unfold get? at found
      unfold insert
      split at found
      · rename_i same
        cases found
        rw [if_pos same]
      · rename_i apart
        rw [if_neg apart, ih found]

@[simp] theorem keys_append (d e : Dict α) : keys (d ++ e) = keys d ++ keys e := List.map_append

/-- Writing entries of different keys into a map: where one of them stands, it is found. -/
theorem get?_foldl_insert {written : List (String × α)} (distinct : Distinct written)
    (d : Dict α) (k : String) :
    get? (written.foldl (fun d entry => insert d entry.1 entry.2) d) k =
      (get? written k).or (get? d k) := by
  induction written generalizing d with
  | nil => rfl
  | cons first rest ih =>
      obtain ⟨single, later⟩ := List.nodup_cons.mp distinct
      rw [List.foldl_cons, ih later]
      by_cases same : first.1 = k
      · subst same
        have absent : get? rest first.1 = none := (get?_eq_none_iff rest first.1).mpr single
        simp only [absent, get?, if_pos, get?_insert_self, Option.none_or, Option.some_or]
      · simp only [get?, if_neg same, get?_insert_of_ne d first.2 same]

/-- Writing entries of different keys into a map: the keys that it lacked come behind its own. -/
theorem keys_foldl_insert {written : List (String × α)} (distinct : Distinct written) (d : Dict α) :
    keys (written.foldl (fun d entry => insert d entry.1 entry.2) d) =
      keys d ++ (keys written).filter (· ∉ keys d) := by
  induction written generalizing d with
  | nil => exact (List.append_nil (keys d)).symm
  | cons first rest ih =>
      obtain ⟨single, later⟩ := List.nodup_cons.mp distinct
      -- The keys that follow are others, so it makes no difference to them that this one is there now.
      have same : (keys rest).filter (· ∉ keys (insert d first.1 first.2)) =
          (keys rest).filter (· ∉ keys d) := by
        apply List.filter_congr
        intro key member
        have apart : key ≠ first.1 := fun same => single (same ▸ member)
        simp [keys_insert_eq_append, apart]
      rw [List.foldl_cons, ih later, same, keys_insert_eq_append, List.append_assoc,
        ← List.filter_append]
      rfl

/-- Two maps written one after the other: the second one stands over the first. -/
theorem get?_ofList_append {d e : Dict α} (first : Distinct d) (second : Distinct e) (k : String) :
    get? (ofList (d ++ e)) k = (get? e k).or (get? d k) := by
  have halves : ofList (d ++ e) = e.foldl (fun d entry => insert d entry.1 entry.2) (ofList d) :=
    List.foldl_append
  rw [halves, get?_foldl_insert second, ofList_of_distinct first]

theorem ofList_concat (entries : List (String × α)) (last : String × α) :
    ofList (entries ++ [last]) = insert (ofList entries) last.1 last.2 :=
  List.foldl_append

/-- Of the entries that were written under one key, the last one is found. -/
theorem get?_ofList_eq_some_iff {entries : List (String × α)} {k : String} {v : α} :
    get? (ofList entries) k = some v ↔
      ∃ before after, entries = before ++ (k, v) :: after ∧ k ∉ keys after := by
  induction entries using List.reverseRecOn with
  | nil => simp [ofList, get?]
  | append_singleton entries last ih =>
      rw [ofList_concat]
      by_cases same : last.1 = k
      · subst same
        rw [get?_insert_self, Option.some_inj]
        constructor
        · rintro rfl
          exact ⟨entries, [], rfl, List.not_mem_nil⟩
        · rintro ⟨before, after, whole, absent⟩
          rcases List.eq_nil_or_concat after with rfl | ⟨others, final, rfl⟩
          · rw [(List.append_singleton_inj.mp whole).2]
          · rw [List.concat_eq_append] at whole absent
            rw [← List.cons_append, ← List.append_assoc] at whole
            rw [(List.append_singleton_inj.mp whole).2, keys_append] at absent
            exact absurd (List.mem_append_right _ List.mem_cons_self) absent
      · rw [get?_insert_of_ne _ _ same, ih]
        constructor
        · rintro ⟨before, after, rfl, absent⟩
          refine ⟨before, after ++ [last], by simp, ?_⟩
          rw [keys_append, List.mem_append, not_or]
          exact ⟨absent, fun single => same (List.mem_singleton.mp single).symm⟩
        · rintro ⟨before, after, whole, absent⟩
          rcases List.eq_nil_or_concat after with rfl | ⟨others, final, rfl⟩
          · exact absurd (congrArg Prod.fst (List.append_singleton_inj.mp whole).2) same
          · rw [List.concat_eq_append] at whole absent
            rw [← List.cons_append, ← List.append_assoc] at whole
            rw [keys_append, List.mem_append, not_or] at absent
            exact ⟨before, others, (List.append_singleton_inj.mp whole).1, absent.1⟩

theorem mem_keys_ofList {entries : List (String × α)} {k : String} :
    k ∈ keys (ofList entries) ↔ k ∈ keys entries := by
  induction entries using List.reverseRecOn with
  | nil => rfl
  | append_singleton entries last ih =>
      rw [ofList_concat, keys_insert, keys_append, List.mem_append, ← ih]
      split
      · rename_i present
        refine ⟨.inl, fun either => either.elim id fun single => ?_⟩
        rwa [List.mem_singleton.mp single]
      · exact List.mem_append

/-- The order of the entries does not matter for a look-up. -/
theorem Distinct.get?_perm {d e : Dict α} (distinct : Distinct d) (same : d.Perm e) (k : String) :
    get? d k = get? e k := by
  have other : Distinct e := (same.map Prod.fst).nodup_iff.mp distinct
  rcases found : get? e k with _ | v
  · rw [get?_eq_none_iff] at found ⊢
    exact fun present => found ((same.map Prod.fst).mem_iff.mp present)
  · exact distinct.get?_of_mem (same.mem_iff.mpr (mem_of_get? found))

theorem sorted_perm (d : Dict α) : (sorted d).Perm (ofList d) := List.mergeSort_perm ..

theorem get?_sorted (d : Dict α) (k : String) : get? (sorted d) k = get? (ofList d) k :=
  ((ofList_sound d).1.get?_perm (sorted_perm d).symm k).symm

theorem distinct_sorted (d : Dict α) : Distinct (sorted d) :=
  ((sorted_perm d).map Prod.fst).nodup_iff.mpr (ofList_sound d).1

/-- Of a map without repeated keys, `sorted` changes the order only. -/
theorem Distinct.get?_sorted {d : Dict α} (distinct : Distinct d) (k : String) :
    get? (sorted d) k = get? d k := by
  rw [Dict.get?_sorted, ofList_of_distinct distinct]

theorem Distinct.of_sublist {d e : Dict α} (distinct : Distinct e) (fewer : d.Sublist e) :
    Distinct d := distinct.sublist (fewer.map Prod.fst)

theorem get?_filter_keys (d : Dict α) (p : String → Bool) (k : String) :
    get? (d.filter fun entry => p entry.1) k = if p k then get? d k else none := by
  induction d with
  | nil => rw [List.filter_nil, get?, ite_self]
  | cons entry rest ih =>
      by_cases same : entry.1 = k
      · subst same
        cases kept : p entry.1 <;> simp_all [get?]
      · cases kept : p entry.1 <;> simp [get?, same, kept, ih]

theorem eraseAll_eq_filter (d : Dict α) (ks : List String) :
    eraseAll d ks = d.filter fun entry => entry.1 ∉ ks := by
  induction ks generalizing d with
  | nil =>
      have all : ∀ entry ∈ d, decide (entry.1 ∉ ([] : List String)) = true :=
        fun _ _ => decide_eq_true List.not_mem_nil
      exact (List.filter_eq_self.mpr all).symm
  | cons k rest ih =>
      have first : eraseAll d (k :: rest) = eraseAll (erase d k) rest := rfl
      rw [first, ih, erase, List.filter_filter]
      congr 1
      funext entry
      simp only [List.mem_cons, not_or, Bool.decide_and, ne_eq, Bool.and_comm]

end Groundwork.Dict
