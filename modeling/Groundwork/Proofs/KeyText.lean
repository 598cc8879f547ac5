import Groundwork.Proofs.Reading
import Mathlib.Data.List.Nodup
import Mathlib.Data.List.Perm.Basic

set_option autoImplicit false

/- Keys that meet in their text. Strings, numbers and booleans become keys of one kind, and of two
keys with the same text the later entry takes the earlier one's place. Different numbers and
booleans always differ in their text; so a mapping loses one entry for each of its string keys that
spells a number or a boolean beside it, and no other. -/
namespace Groundwork

open Yaml (Amount Datum)

namespace Value

open Yaml.Datum

theorem boolText_inj : ∀ a b, boolText a = boolText b → a = b := by decide

theorem text_ne_boolText (n : Amount) (b : Bool) : n.text ≠ boolText b := by
  cases b
  · exact Amount.text_ne_word (by decide) (by decide) (by decide) n
  · exact Amount.text_ne_word (by decide) (by decide) (by decide) n

/-- Keys of one text are equal, unless exactly one of them is a string. -/
theorem KeyAs.eqv_or {k l : Datum} {text : String} (first : KeyAs k text) (second : KeyAs l text) :
    k.eqv l = true ∨ (k = .string text ∧ l ≠ .string text) ∨
      (l = .string text ∧ k ≠ .string text) := by
  cases first with
  | string =>
      by_cases same : l = .string text
      · rw [same]
        exact .inl (decide_eq_true rfl)
      · exact .inr (.inl ⟨rfl, same⟩)
  | number n =>
      generalize spelled : n.text = text at second
      cases second with
      | string s => exact .inr (.inr ⟨rfl, nofun⟩)
      | number m => exact .inl (Amount.eqv_of_text_eq spelled)
      | bool b => exact absurd spelled (text_ne_boolText n b)
  | bool a =>
      generalize spelled : boolText a = text at second
      cases second with
      | string s => exact .inr (.inr ⟨rfl, nofun⟩)
      | number m => exact absurd spelled.symm (text_ne_boolText m a)
      | bool b => exact .inl (decide_eq_true (boolText_inj a b spelled))

/-- Whether a key is a string that spells a number or a boolean among the keys of the entries. -/
def respelled (entries : List (Datum × Datum)) : Datum → Bool
  | .string s => entries.any fun entry => match entry.1 with
    | .number n => n.text = s
    | .bool b => boolText b = s
    | _ => false
  | _ => false

/-- A respelled key has the text of another one, which is no string and not respelled itself. -/
theorem exists_of_respelled {entries : List (Datum × Datum)} {k : Datum} {text : String}
    (found : respelled entries k = true) (keyed : KeyAs k text) :
    ∃ entry ∈ entries, KeyAs entry.1 text ∧ respelled entries entry.1 = false := by
  unfold respelled at found
  split at found
  · obtain rfl := keyed.eq_of_string
    obtain ⟨⟨l, d⟩, member, same⟩ := List.any_eq_true.mp found
    dsimp only at same
    split at same
    · exact ⟨_, member, of_decide_eq_true same ▸ .number _, rfl⟩
    · exact ⟨_, member, of_decide_eq_true same ▸ .bool _, rfl⟩
    · cases same
  · cases found

theorem respelled_of_entry {entries : List (Datum × Datum)} {entry : Datum × Datum} {text : String}
    (member : entry ∈ entries) (keyed : KeyAs entry.1 text) (other : entry.1 ≠ .string text) :
    respelled entries (.string text) = true := by
  refine List.any_eq_true.mpr ⟨entry, member, ?_⟩
  generalize entry.1 = k at keyed other
  cases keyed with
  | string => exact absurd rfl other
  | number n => exact decide_eq_true rfl
  | bool b => exact decide_eq_true rfl

theorem pairwise_of_distinctKeys {entries : List (Datum × Datum)}
    (distinct : distinctKeys entries = true) :
    entries.Pairwise fun a b => a.1.eqv b.1 = false := by
  induction entries with
  | nil => exact .nil
  | cons entry rest ih =>
      obtain ⟨first, others⟩ := Bool.and_eq_true_iff.mp distinct
      refine .cons (fun other member => ?_) (ih others)
      simpa using List.all_eq_true.mp first other member

/-- The entries whose keys are not respelled. -/
def unspelled (entries : List (Datum × Datum)) : List (Datum × Datum) :=
  entries.filter fun entry => !respelled entries entry.1

/-- Two keys that are not respelled differ in their text. -/
theorem text_ne_of_unspelled {entries : List (Datum × Datum)} {a b : Datum × Datum} {s t : String}
    (first : a ∈ unspelled entries) (second : b ∈ unspelled entries) (apart : a.1.eqv b.1 = false)
    (keyed : KeyAs a.1 s) (keyed' : KeyAs b.1 t) : s ≠ t := by
  rintro rfl
  obtain ⟨known, free⟩ := List.mem_filter.mp first
  obtain ⟨known', free'⟩ := List.mem_filter.mp second
  rcases keyed.eqv_or keyed' with same | ⟨string, other⟩ | ⟨string, other⟩
  · rw [same] at apart
    cases apart
  · rw [string, respelled_of_entry known' keyed' other] at free
    cases free
  · rw [string, respelled_of_entry known keyed other] at free'
    cases free'

/-- The text of a key. -/
def spelling : Datum → String
  | .string s => s
  | .number n => n.text
  | .bool b => boolText b
  | _ => ""

theorem KeyAs.spelling_eq {k : Datum} {text : String} (keyed : KeyAs k text) : spelling k = text := by
  cases keyed <;> rfl

/-- A mapping has one field for each entry whose key is not respelled. -/
theorem keys_ofList_perm {entries : List (Datum × Datum)} {es : List (String × Value)}
    (each : List.Forall₂ EntryAs entries es) (distinct : distinctKeys entries = true) :
    (Dict.keys (Dict.ofList es)).Perm ((unspelled entries).map fun entry => spelling entry.1) := by
  have texts : Dict.keys es = entries.map fun entry => spelling entry.1 :=
    map_eq_of_forall₂ each fun entry e read => read.1.spelling_eq.symm
  have keyed : ∀ entry ∈ entries, KeyAs entry.1 (spelling entry.1) := by
    intro entry member
    obtain ⟨e, -, key, -⟩ := mem_of_forall₂ each.flip member
    rwa [key.spelling_eq]
  -- No text stands twice on either side, so it is enough that the same texts stand on both.
  refine (List.perm_ext_iff_of_nodup (Dict.ofList_sound es).1 ?_).mpr fun text => ?_
  · have apart := (pairwise_of_distinctKeys distinct).sublist
      (List.filter_sublist (p := fun entry => !respelled entries entry.1))
    refine List.pairwise_map.mpr (apart.imp_of_mem fun first second differ => ?_)
    exact text_ne_of_unspelled first second differ (keyed _ (List.mem_filter.mp first).1)
      (keyed _ (List.mem_filter.mp second).1)
  · rw [Dict.mem_keys_ofList, texts, List.mem_map, List.mem_map]
    constructor
    · rintro ⟨entry, member, rfl⟩
      cases found : respelled entries entry.1
      · exact ⟨entry, List.mem_filter.mpr ⟨member, by rw [found]; rfl⟩, rfl⟩
      · obtain ⟨other, known, key, free⟩ := exists_of_respelled found (keyed entry member)
        exact ⟨other, List.mem_filter.mpr ⟨known, by rw [free]; rfl⟩, key.spelling_eq⟩
    · rintro ⟨entry, member, same⟩
      exact ⟨entry, (List.mem_filter.mp member).1, same⟩

theorem length_ofList_add_respelled {entries : List (Datum × Datum)} {es : List (String × Value)}
    (each : List.Forall₂ EntryAs entries es) (distinct : distinctKeys entries = true) :
    (Dict.ofList es).length + entries.countP (fun entry => respelled entries entry.1) =
      entries.length := by
  have kept : (Dict.ofList es).length = (unspelled entries).length := by
    have same := (keys_ofList_perm each distinct).length_eq
    rwa [Dict.keys, List.length_map, List.length_map] at same
  rw [kept, unspelled, ← List.countP_eq_length_filter, Nat.add_comm,
    List.length_eq_countP_add_countP fun entry => respelled entries entry.1]
  simp only [Bool.not_eq_true, Bool.decide_eq_false]

/-- Every part of what is accepted is accepted. -/
theorem not_unfit_of_part {d part : Datum} (accepted : ∃ v, ofDatum d = .ok v)
    (inside : PartOf part d) : ¬ Unfit part := by
  obtain ⟨v, read⟩ := accepted
  have fit := (exists_readAs_iff d).mp ⟨v, (ofDatum_eq_ok_iff d).mp read⟩
  exact fun unfit => fit (unfit.of_part inside)

/-- A root that has fields is null or can be read itself. -/
theorem fit_of_ofText {text path : String} {root : Datum} {fields : Fields}
    (content : Text.allBlank text = false) (loaded : Yaml.load text = .ok root)
    (read : Fields.ofText text path = .ok fields) : ∃ v, ofDatum root = .ok v := by
  obtain ⟨root', loaded', document⟩ := (Fields.ofText_eq_ok_iff content).mp read
  cases loaded.symm.trans loaded'
  rcases Fields.exists_documentAs_iff.mp ⟨fields, document⟩ with rfl | ⟨entries, rfl, fit⟩
  · exact ⟨.null, rfl⟩
  · obtain ⟨v, as⟩ := (exists_readAs_iff _).mpr fit
    exact ⟨v, (ofDatum_eq_ok_iff _).mpr as⟩

/-- Each mapping without repeated keys in what is accepted, at whatever depth, is read to fields. Together
with its string keys that spell a number or a boolean beside them they are as many as its entries; so no
entry is lost exactly if no key is such a string. -/
theorem length_fields_of_part {d : Datum} {entries : List (Datum × Datum)}
    (accepted : (∃ v, ofDatum d = .ok v) ∨ ∃ text path fields, Text.allBlank text = false ∧
      Yaml.load text = .ok d ∧ Fields.ofText text path = .ok fields)
    (inside : PartOf (.mapping entries) d) (distinct : distinctKeys entries = true) :
    ∃ fields : Fields, ofDatum (.mapping entries) = .ok (ofFields fields) ∧
      Fields.ofDocument (.mapping entries) = .ok fields ∧
      fields.length + entries.countP (fun entry => respelled entries entry.1) = entries.length ∧
      (fields.length = entries.length ↔ ∀ entry ∈ entries, respelled entries entry.1 = false) := by
  have accepted : ∃ v, ofDatum d = .ok v :=
    accepted.elim id fun ⟨_, _, _, content, loaded, read⟩ => fit_of_ofText content loaded read
  obtain ⟨v, as⟩ := (exists_readAs_iff _).mpr (not_unfit_of_part accepted inside)
  obtain ⟨es, each, -⟩ := readAs_mapping_iff.mp as
  have entriesRead := (ofEntries_eq_ok_iff entries).mpr each
  have count := length_ofList_add_respelled each distinct
  refine ⟨Dict.ofList es, ?_, ?_, count, ?_⟩
  · rw [ofDatum, entriesRead]
    rfl
  · rw [Fields.ofDocument, entriesRead]
    rfl
  · have none : (Dict.ofList es).length = entries.length ↔
        entries.countP (fun entry => respelled entries entry.1) = 0 := by omega
    rw [none, List.countP_eq_zero]
    simp only [Bool.not_eq_true]

namespace Sample.KeyText

/-- A port is given as a number and as a string. -/
def ports : List (Datum × Datum) :=
  [(.number (.whole ⟨80, by decide, by decide⟩), .string "web"), (.string "80", .string "proxy"),
    (.bool true, .string "on")]

def text : String := "80: web\n\"80\": proxy\n"

def entriesOf : Datum → List (Datum × Datum)
  | .mapping entries => entries
  | _ => []

end Sample.KeyText

open Sample.KeyText in
theorem length_fields_of_part_ports : distinctKeys ports = true ∧
    PartOf (.mapping ports) (.sequence [.mapping ports]) ∧
    ∃ fields : Fields, ofDatum (.mapping ports) = .ok (ofFields fields) ∧ fields.length = 2 := by
  have distinct : distinctKeys ports = true := by decide +kernel
  have inside : PartOf (.mapping ports) (.sequence [.mapping ports]) :=
    .item List.mem_cons_self .whole
  obtain ⟨fields, read, -, count, -⟩ :=
    length_fields_of_part (.inl ⟨_, rfl⟩) inside distinct
  have lost : ports.countP (fun entry => respelled ports entry.1) = 1 := by decide +kernel
  have all : ports.length = 3 := rfl
  exact ⟨distinct, inside, fields, read, by omega⟩

open Sample.KeyText in
/-- Two entries of a text, and one field. -/
theorem entry_lost : ∃ entries fields, Yaml.load text = .ok (.mapping entries) ∧
    distinctKeys entries = true ∧ Fields.ofText text "config.yaml" = .ok fields ∧
    fields.length ≠ entries.length := by
  have two : (Yaml.load text).map
      (fun root => (distinctKeys (entriesOf root), (entriesOf root).length)) = .ok (true, 2) := by
    decide +kernel
  have one : (Fields.ofText text "config.yaml").map List.length = .ok 1 := by decide +kernel
  obtain ⟨root, loaded, view⟩ := Except.map_eq_ok_iff.mp two
  obtain ⟨distinct, length⟩ := Prod.mk.inj view
  obtain ⟨fields, read, single⟩ := Except.map_eq_ok_iff.mp one
  cases root with
  | mapping entries =>
      have length : entries.length = 2 := length
      exact ⟨entries, fields, loaded, distinct, read, by omega⟩
  | _ => cases length

end Value

end Groundwork
