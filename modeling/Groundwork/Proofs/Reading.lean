import Groundwork.Catalog
import Groundwork.Proofs.Acceptance
import Groundwork.Proofs.NumberText
import Groundwork.Proofs.Rereading

set_option autoImplicit false

/- Which data are read, and as what. A datum is refused exactly if something stands in it, however
deep, that a configuration value cannot hold; whatever is accepted keeps its scalars, the order of
its items and the entries of its mappings, and a mapping becomes a variable exactly by its
marker. -/
namespace Groundwork

open Yaml (Amount Datum)

namespace Yaml.Datum

/-- What stands in a datum at any depth. Keys do not count. -/
inductive PartOf (part : Datum) : Datum → Prop where
  | whole : PartOf part part
  | item {items : List Datum} {d : Datum} (member : d ∈ items) (inside : PartOf part d) :
      PartOf part (.sequence items)
  | value {entries : List (Datum × Datum)} {entry : Datum × Datum} (member : entry ∈ entries)
      (inside : PartOf part entry.2) : PartOf part (.mapping entries)
  | content (tag : String) {d : Datum} (inside : PartOf part d) : PartOf part (.tagged tag d)

/-- Data that cannot be keys. -/
inductive NoKey : Datum → Prop where
  | null : NoKey .null
  | sequence (items : List Datum) : NoKey (.sequence items)
  | mapping (entries : List (Datum × Datum)) : NoKey (.mapping entries)
  | tagged (tag : String) (content : Datum) : NoKey (.tagged tag content)

/-- What no configuration value holds: tags, keys that are no scalars, and numbers without a finite value. -/
inductive Refused : Datum → Prop where
  | tagged (tag : String) (content : Datum) : Refused (.tagged tag content)
  | key {entries : List (Datum × Datum)} {entry : Datum × Datum} (member : entry ∈ entries)
      (noKey : NoKey entry.1) : Refused (.mapping entries)
  | number {x : Decimal.Binary64} (infinite : x.isFinite = false) : Refused (.number (.float x))

def Unfit (d : Datum) : Prop := ∃ part, PartOf part d ∧ Refused part

theorem Unfit.of_part {part d : Datum} (inside : PartOf part d) (unfit : Unfit part) : Unfit d := by
  obtain ⟨inner, within, refused⟩ := unfit
  refine ⟨inner, ?_, refused⟩
  induction inside with
  | whole => exact within
  | item member _ ih => exact .item member ih
  | value member _ ih => exact .value member ih
  | content tag _ ih => exact .content tag ih

theorem unfit_number_iff {n : Amount} : Unfit (.number n) ↔ n.number? = none := by
  constructor
  · rintro ⟨_, ⟨⟩, ⟨⟩⟩
    rename_i x infinite
    exact dif_neg (Bool.eq_false_iff.mp infinite)
  · intro none
    cases n with
    | whole n => cases none
    | float x =>
        refine ⟨_, .whole, .number (Bool.eq_false_iff.mpr fun finite => ?_)⟩
        rw [Amount.number?, dif_pos finite] at none
        cases none

theorem unfit_sequence_iff {items : List Datum} :
    Unfit (.sequence items) ↔ ∃ d ∈ items, Unfit d := by
  constructor
  · rintro ⟨part, inside, refused⟩
    cases inside with
    | whole => cases refused
    | item member inside => exact ⟨_, member, part, inside, refused⟩
  · rintro ⟨d, member, unfit⟩
    exact unfit.of_part (.item member .whole)

theorem unfit_mapping_iff {entries : List (Datum × Datum)} :
    Unfit (.mapping entries) ↔ ∃ entry ∈ entries, NoKey entry.1 ∨ Unfit entry.2 := by
  constructor
  · rintro ⟨part, inside, refused⟩
    cases inside with
    | whole =>
        cases refused with
        | key member noKey => exact ⟨_, member, .inl noKey⟩
    | value member inside => exact ⟨_, member, .inr ⟨part, inside, refused⟩⟩
  · rintro ⟨entry, member, noKey | unfit⟩
    · exact ⟨_, .whole, .key member noKey⟩
    · exact unfit.of_part (.value member .whole)

theorem unfit_tagged (tag : String) (content : Datum) : Unfit (.tagged tag content) :=
  ⟨_, .whole, .tagged tag content⟩

/-- The marker's entry is the boolean true. Of several entries under the marker the last one counts. -/
def Marked (entries : List (Datum × Datum)) : Prop :=
  ∃ before after, entries = before ++ (.string Value.marker, .bool true) :: after ∧
    ∀ entry ∈ after, entry.1 ≠ .string Value.marker

end Yaml.Datum

namespace Value

open Yaml.Datum

/-- The text of a key. -/
inductive KeyAs : Datum → String → Prop where
  | string (s : String) : KeyAs (.string s) s
  | number (n : Amount) : KeyAs (.number n) n.text
  | bool (b : Bool) : KeyAs (.bool b) (boolText b)

theorem keyText_eq_ok_iff {k : Datum} {text : String} : keyText k = .ok text ↔ KeyAs k text := by
  constructor
  · intro read
    unfold keyText at read
    split at read <;> cases read
    · exact .string _
    · exact .number _
    · exact .bool _
  · rintro (_ | _ | _) <;> rfl

theorem KeyAs.eq_of_string {s text : String} (keyed : KeyAs (.string s) text) : text = s := by
  cases keyed
  rfl

theorem exists_keyAs_iff {k : Datum} : (∃ text, KeyAs k text) ↔ ¬ NoKey k := by
  constructor
  · rintro ⟨text, ⟨⟩ | ⟨⟩ | ⟨⟩⟩ ⟨⟩
  · intro isKey
    cases k with
    | string s => exact ⟨s, .string s⟩
    | number n => exact ⟨_, .number n⟩
    | bool b => exact ⟨_, .bool b⟩
    | null => exact absurd .null isKey
    | sequence items => exact absurd (.sequence items) isKey
    | mapping entries => exact absurd (.mapping entries) isKey
    | tagged tag content => exact absurd (.tagged tag content) isKey

/-- A datum and the value that it is read as. Items and entries are read in their order; of entries whose
keys have one text the last one stands. -/
inductive ReadAs : Datum → Value → Prop where
  | null : ReadAs .null .null
  | bool (b : Bool) : ReadAs (.bool b) (.bool b)
  | whole (n : Whole) : ReadAs (.number (.whole n)) (.number (.whole n))
  | float (x : Decimal.Binary64) (finite : x.isFinite = true) :
      ReadAs (.number (.float x)) (.number (.float x finite))
  | string (s : String) : ReadAs (.string s) (.string s)
  | sequence {items : List Datum} {vs : List Value} (each : List.Forall₂ ReadAs items vs) :
      ReadAs (.sequence items) (.list vs)
  | variable {entries : List (Datum × Datum)} {es : List (String × Value)}
      (keys : List.Forall₂ KeyAs (entries.map Prod.fst) (Dict.keys es))
      (values : List.Forall₂ ReadAs (entries.map Prod.snd) (Dict.values es))
      (marked : Marked entries) : ReadAs (.mapping entries) (.variable (Dict.ofList es))
  | map {entries : List (Datum × Datum)} {es : List (String × Value)}
      (keys : List.Forall₂ KeyAs (entries.map Prod.fst) (Dict.keys es))
      (values : List.Forall₂ ReadAs (entries.map Prod.snd) (Dict.values es))
      (unmarked : ¬ Marked entries) : ReadAs (.mapping entries) (.map (Dict.ofList es))

/-- How an entry of a mapping is read. -/
abbrev EntryAs (entry : Datum × Datum) (e : String × Value) : Prop :=
  KeyAs entry.1 e.1 ∧ ReadAs entry.2 e.2

theorem forall₂_entryAs_iff {entries : List (Datum × Datum)} {es : List (String × Value)} :
    List.Forall₂ EntryAs entries es ↔
      List.Forall₂ KeyAs (entries.map Prod.fst) (Dict.keys es) ∧
        List.Forall₂ ReadAs (entries.map Prod.snd) (Dict.values es) := by
  unfold Dict.keys Dict.values
  induction entries generalizing es with
  | nil => cases es <;> simp
  | cons entry rest ih =>
      cases es with
      | nil => simp
      | cons e es =>
          simp only [List.map_cons, List.forall₂_cons, ih]
          exact and_and_and_comm

/-- No number or boolean is spelled like the marker. -/
theorem keyAs_marker_iff {k : Datum} : KeyAs k marker ↔ k = .string marker := by
  refine ⟨fun spelled => ?_, fun same => same ▸ .string marker⟩
  generalize word : marker = text at spelled
  cases spelled with
  | string s => rfl
  | number n =>
      exact absurd word.symm (Amount.text_ne_word (by decide) (by decide) (by decide) n)
  | bool b => cases b <;> exact absurd word (by decide)

theorem readAs_bool_iff {d : Datum} {b : Bool} : ReadAs d (.bool b) ↔ d = .bool b := by
  constructor
  · rintro ⟨⟩
    rfl
  · rintro rfl
    exact .bool b

/-- A mapping is marked exactly if what its entries are read as is. -/
theorem marked_iff {entries : List (Datum × Datum)} {es : List (String × Value)}
    (each : List.Forall₂ EntryAs entries es) :
    Marked entries ↔ (Dict.ofList es).get? marker = some (.bool true) := by
  -- Both sides speak of the last entry under one key, which is the marker on both.
  rw [Dict.get?_ofList_eq_some_iff]
  constructor
  · rintro ⟨before, after, rfl, last⟩
    obtain ⟨front, back, -, behind, rfl⟩ := forall₂_append_left each
    obtain ⟨⟨key, v⟩, others, ⟨keyed, read⟩, later, rfl⟩ := List.forall₂_cons_left_iff.mp behind
    obtain rfl : key = marker := keyed.eq_of_string
    cases read
    refine ⟨front, others, rfl, fun present => ?_⟩
    obtain ⟨⟨key, v⟩, member, rfl⟩ := List.mem_map.mp present
    obtain ⟨entry, known, keyed, -⟩ := mem_of_forall₂ later member
    exact last entry known (keyAs_marker_iff.mp keyed)
  · rintro ⟨before, after, rfl, last⟩
    obtain ⟨front, back, -, behind, rfl⟩ := forall₂_append_left each.flip
    obtain ⟨⟨k, d⟩, others, ⟨keyed, read⟩, later, rfl⟩ := List.forall₂_cons_left_iff.mp behind
    obtain rfl := keyAs_marker_iff.mp keyed
    obtain rfl := readAs_bool_iff.mp read
    refine ⟨front, others, rfl, fun entry member same => ?_⟩
    obtain ⟨e, known, keyed, -⟩ := mem_of_forall₂ later member
    rw [same] at keyed
    exact last (keyed.eq_of_string ▸ List.mem_map_of_mem known)

theorem ofAmount_eq_ok_iff {n : Amount} {v : Value} :
    ofAmount n = .ok v ↔ ReadAs (.number n) v := by
  constructor
  · intro read
    cases n with
    | whole n =>
        cases read
        exact .whole n
    | float x =>
        cases finite : x.isFinite
        · rw [ofAmount, Amount.number?, dif_neg (Bool.eq_false_iff.mp finite)] at read
          cases read
        · rw [ofAmount, Amount.number?, dif_pos finite] at read
          cases read
          exact .float x finite
  · rintro (_ | _ | _ | ⟨x, finite⟩)
    · rfl
    · rw [ofAmount, Amount.number?, dif_pos finite]

theorem readAs_mapping_iff {entries : List (Datum × Datum)} {v : Value} :
    ReadAs (.mapping entries) v ↔
      ∃ es, List.Forall₂ EntryAs entries es ∧ ofFields (Dict.ofList es) = v := by
  constructor
  · intro read
    cases read with
    | «variable» keys values marked =>
        have each := forall₂_entryAs_iff.mpr ⟨keys, values⟩
        exact ⟨_, each, ofFields_of_marked ((marked_iff each).mp marked)⟩
    | map keys values unmarked =>
        have each := forall₂_entryAs_iff.mpr ⟨keys, values⟩
        exact ⟨_, each, ofFields_of_unmarked (mt (marked_iff each).mpr unmarked)⟩
  · rintro ⟨es, each, rfl⟩
    obtain ⟨keys, values⟩ := forall₂_entryAs_iff.mp each
    by_cases marked : Marked entries
    · rw [ofFields_of_marked ((marked_iff each).mp marked)]
      exact .variable keys values marked
    · rw [ofFields_of_unmarked (mt (marked_iff each).mpr marked)]
      exact .map keys values marked

theorem readAs_sequence_iff {items : List Datum} {v : Value} :
    ReadAs (.sequence items) v ↔ ∃ vs, List.Forall₂ ReadAs items vs ∧ .list vs = v := by
  constructor
  · intro read
    cases read with
    | sequence each => exact ⟨_, each, rfl⟩
  · rintro ⟨vs, each, rfl⟩
    exact .sequence each

mutual

/-- The reader computes the relation. -/
theorem ofDatum_eq_ok_iff (d : Datum) {v : Value} : ofDatum d = .ok v ↔ ReadAs d v := by
  match d with
  | .null =>
      refine ⟨fun read => Except.ok.inj read ▸ .null, ?_⟩
      rintro ⟨⟩
      rfl
  | .bool b =>
      refine ⟨fun read => Except.ok.inj read ▸ .bool b, ?_⟩
      rintro ⟨⟩
      rfl
  | .number n => exact ofAmount_eq_ok_iff
  | .string s =>
      refine ⟨fun read => Except.ok.inj read ▸ .string s, ?_⟩
      rintro ⟨⟩
      rfl
  | .sequence items =>
      rw [ofDatum, Except.map_eq_ok_iff, readAs_sequence_iff]
      simp only [ofItems_eq_ok_iff items]
  | .mapping entries =>
      rw [ofDatum, Except.map_eq_ok_iff, readAs_mapping_iff]
      simp only [ofEntries_eq_ok_iff entries]
  | .tagged tag content => exact ⟨fun read => (nomatch read), fun read => nomatch read⟩

theorem ofItems_eq_ok_iff (items : List Datum) {vs : List Value} :
    ofItems items = .ok vs ↔ List.Forall₂ ReadAs items vs := by
  match items with
  | [] => exact read_nil_iff
  | d :: rest =>
      rw [ofItems]
      exact read_cons_iff (fun _ => ofDatum_eq_ok_iff d) (fun _ => ofItems_eq_ok_iff rest)

theorem ofEntries_eq_ok_iff (entries : List (Datum × Datum)) {es : List (String × Value)} :
    ofEntries entries = .ok es ↔ List.Forall₂ EntryAs entries es := by
  match entries with
  | [] => exact read_nil_iff
  | (k, d) :: rest =>
      simp only [ofEntries, Except.bind_eq_ok_iff, keyText_eq_ok_iff, ofDatum_eq_ok_iff d,
        ofEntries_eq_ok_iff rest, List.forall₂_cons_left_iff]
      constructor
      · rintro ⟨key, keyed, v, read, others, later, same⟩
        exact ⟨(key, v), others, ⟨keyed, read⟩, later, (Except.ok.inj same).symm⟩
      · rintro ⟨⟨key, v⟩, others, ⟨keyed, read⟩, later, rfl⟩
        exact ⟨key, keyed, v, read, others, later, rfl⟩

end

theorem exists_entryAs_iff {entry : Datum × Datum} :
    (∃ e, EntryAs entry e) ↔ ¬ NoKey entry.1 ∧ ∃ v, ReadAs entry.2 v := by
  rw [← exists_keyAs_iff]
  constructor
  · rintro ⟨e, keyed, read⟩
    exact ⟨⟨_, keyed⟩, _, read⟩
  · rintro ⟨⟨key, keyed⟩, v, read⟩
    exact ⟨(key, v), keyed, read⟩

mutual

/-- A datum is read as something exactly if nothing in it is refused. -/
theorem exists_readAs_iff (d : Datum) : (∃ v, ReadAs d v) ↔ ¬ Unfit d := by
  match d with
  | .null => exact ⟨fun _ => (by rintro ⟨_, ⟨⟩, ⟨⟩⟩), fun _ => ⟨_, .null⟩⟩
  | .bool b => exact ⟨fun _ => (by rintro ⟨_, ⟨⟩, ⟨⟩⟩), fun _ => ⟨_, .bool b⟩⟩
  | .string s => exact ⟨fun _ => (by rintro ⟨_, ⟨⟩, ⟨⟩⟩), fun _ => ⟨_, .string s⟩⟩
  | .number n =>
      simp only [unfit_number_iff, ← ofAmount_eq_ok_iff, ofAmount]
      cases n.number? <;> simp
  | .sequence items =>
      have each := exists_readAs_iff_of_mem_items items
      have list : (∃ v, ReadAs (.sequence items) v) ↔ ∃ vs, List.Forall₂ ReadAs items vs := by
        simp only [readAs_sequence_iff]
        exact ⟨fun ⟨_, vs, read, _⟩ => ⟨vs, read⟩, fun ⟨vs, read⟩ => ⟨_, vs, read, rfl⟩⟩
      rw [list, exists_forall₂_iff, unfit_sequence_iff]
      simp only [not_exists, not_and]
      exact forall₂_congr each
  | .mapping entries =>
      have each := exists_readAs_iff_of_mem_entries entries
      have map : (∃ v, ReadAs (.mapping entries) v) ↔ ∃ es, List.Forall₂ EntryAs entries es := by
        simp only [readAs_mapping_iff]
        exact ⟨fun ⟨_, es, read, _⟩ => ⟨es, read⟩, fun ⟨es, read⟩ => ⟨_, es, read, rfl⟩⟩
      rw [map, exists_forall₂_iff, unfit_mapping_iff]
      simp only [exists_entryAs_iff, not_exists, not_and, not_or]
      exact forall₂_congr fun entry member => and_congr_right' (each entry member)
  | .tagged tag content =>
      refine ⟨?_, fun fit => absurd (unfit_tagged tag content) fit⟩
      rintro ⟨_, ⟨⟩⟩

theorem exists_readAs_iff_of_mem_items (items : List Datum) :
    ∀ d ∈ items, ((∃ v, ReadAs d v) ↔ ¬ Unfit d) := by
  match items with
  | [] => exact fun _ member => nomatch member
  | d :: rest =>
      exact List.forall_mem_cons.mpr ⟨exists_readAs_iff d, exists_readAs_iff_of_mem_items rest⟩

theorem exists_readAs_iff_of_mem_entries (entries : List (Datum × Datum)) :
    ∀ entry ∈ entries, ((∃ v, ReadAs entry.2 v) ↔ ¬ Unfit entry.2) := by
  match entries with
  | [] => exact fun _ member => nomatch member
  | (k, d) :: rest =>
      exact List.forall_mem_cons.mpr ⟨exists_readAs_iff d, exists_readAs_iff_of_mem_entries rest⟩

end

theorem exists_error_iff (d : Datum) : (∃ e, ofDatum d = .error e) ↔ Unfit d := by
  have read := exists_readAs_iff d
  simp only [← ofDatum_eq_ok_iff] at read
  rw [← not_iff_not, ← read]
  cases ofDatum d <;> simp

end Value

namespace Fields

open Yaml.Datum Value

/-- The fields of a document. Its outermost mapping is no variable, whatever its entries are. -/
inductive DocumentAs : Datum → Fields → Prop where
  | null : DocumentAs .null []
  | mapping {entries : List (Datum × Datum)} {es : List (String × Value)}
      (keys : List.Forall₂ KeyAs (entries.map Prod.fst) (Dict.keys es))
      (values : List.Forall₂ ReadAs (entries.map Prod.snd) (Dict.values es)) :
      DocumentAs (.mapping entries) (Dict.ofList es)

theorem ofDocument_eq_ok_iff {root : Datum} {fields : Fields} :
    ofDocument root = .ok fields ↔ DocumentAs root fields := by
  constructor
  · intro read
    unfold ofDocument at read
    split at read
    · cases read
      exact .null
    · obtain ⟨es, each, rfl⟩ := Except.map_eq_ok_iff.mp read
      obtain ⟨keys, values⟩ := forall₂_entryAs_iff.mp ((ofEntries_eq_ok_iff _).mp each)
      exact .mapping keys values
    · cases read
  · rintro (_ | ⟨keys, values⟩)
    · rfl
    · have each := (ofEntries_eq_ok_iff _).mpr (forall₂_entryAs_iff.mpr ⟨keys, values⟩)
      exact Except.map_eq_ok_iff.mpr ⟨_, each, rfl⟩

/-- A root has fields exactly if it is null, or a mapping in which nothing is refused. -/
theorem exists_documentAs_iff {root : Datum} : (∃ fields, DocumentAs root fields) ↔
    root = .null ∨ ∃ entries, root = .mapping entries ∧ ¬ Unfit root := by
  constructor
  · rintro ⟨fields, _ | ⟨keys, values⟩⟩
    · exact .inl rfl
    · have each := forall₂_entryAs_iff.mpr ⟨keys, values⟩
      exact .inr ⟨_, rfl, (exists_readAs_iff _).mp ⟨_, readAs_mapping_iff.mpr ⟨_, each, rfl⟩⟩⟩
  · rintro (rfl | ⟨entries, rfl, fit⟩)
    · exact ⟨[], .null⟩
    · obtain ⟨v, read⟩ := (exists_readAs_iff _).mpr fit
      obtain ⟨es, each, -⟩ := readAs_mapping_iff.mp read
      obtain ⟨keys, values⟩ := forall₂_entryAs_iff.mp each
      exact ⟨_, .mapping keys values⟩

theorem ofText_eq_ok_iff {text path : String} {fields : Fields}
    (content : Text.allBlank text = false) : ofText text path = .ok fields ↔
      ∃ root, Yaml.load text = .ok root ∧ DocumentAs root fields := by
  unfold ofText
  rw [if_neg (Bool.eq_false_iff.mp content)]
  simp only [← ofDocument_eq_ok_iff]
  cases Yaml.load text with
  | error e => simp
  | ok root => simp [Except.mapError_eq_ok_iff]

end Fields

namespace Value

open Yaml.Datum

/-- Reading, told in full. A datum is refused exactly if a tag, a key that is no scalar, or a number without
a finite value stands in it, at whatever depth, and otherwise read item by item and entry by entry. A text
is accepted exactly if its root is null or a mapping in which nothing is refused, and it has the fields of
that root. -/
theorem ofDatum_reads (d : Datum) (text path : String) (content : Text.allBlank text = false) :
    ((∃ e, ofDatum d = .error e) ↔ Unfit d) ∧
      (∀ v, ofDatum d = .ok v ↔ ReadAs d v) ∧
      ((∃ fields, Fields.ofText text path = .ok fields) ↔
        ∃ root, Yaml.load text = .ok root ∧
          (root = .null ∨ ∃ entries, root = .mapping entries ∧ ¬ Unfit root)) ∧
      ∀ fields, Fields.ofText text path = .ok fields ↔
        ∃ root, Yaml.load text = .ok root ∧ Fields.DocumentAs root fields := by
  refine ⟨exists_error_iff d, fun v => ofDatum_eq_ok_iff d, ?_, fun fields =>
    Fields.ofText_eq_ok_iff content⟩
  simp only [Fields.ofText_eq_ok_iff content, ← Fields.exists_documentAs_iff]
  exact ⟨fun ⟨fields, root, loaded, read⟩ => ⟨root, loaded, fields, read⟩,
    fun ⟨root, loaded, fields, read⟩ => ⟨fields, root, loaded, read⟩⟩

namespace Sample.Reading

/-- A tag beneath a key that is fine, in a list that goes on. -/
def tagged : Datum :=
  .sequence [.mapping [(.bool true, .tagged "Ref" .null)], .string "bucket"]

def text : String := "zone:\n  is_variable: true\n8080: [1, 2.5, ~]\n"

end Sample.Reading

open Sample.Reading in
theorem ofDatum_reads_tagged : Text.allBlank text = false ∧ (∃ e, ofDatum tagged = .error e) ∧
    ∃ root fields, Yaml.load text = .ok root ∧ Fields.DocumentAs root fields ∧
      Fields.ofText text "config.yaml" = .ok fields ∧
      (fields.get? "zone").map isVariable = some true := by
  have content : Text.allBlank text = false := by decide +kernel
  obtain ⟨refused, -, -, accepted⟩ := ofDatum_reads tagged text "config.yaml" content
  have view : (Fields.ofText text "config.yaml").map
      (fun fields => (fields.get? "zone").map isVariable) = .ok (some true) := by decide +kernel
  obtain ⟨fields, read, zone⟩ := Except.map_eq_ok_iff.mp view
  obtain ⟨root, loaded, as⟩ := (accepted fields).mp read
  have deep : Unfit tagged := unfit_sequence_iff.mpr
    ⟨_, List.mem_cons_self, unfit_mapping_iff.mpr ⟨_, List.mem_cons_self, .inr (unfit_tagged _ _)⟩⟩
  exact ⟨content, refused.mpr deep, root, fields, loaded, as, read, zone⟩

end Value

end Groundwork
