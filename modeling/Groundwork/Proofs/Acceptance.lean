import Groundwork.Platform
import Groundwork.Proofs.Placeholder
import Groundwork.Proofs.Resource
import Mathlib.Data.List.Forall2

set_option autoImplicit false

/- Which configurations are accepted, and what they are normalised to. Reading is told twice: by
conditions that accept a value, and by relations between a value and what it is read as, entry by
entry and in order. The readers compute the relations, and a value is accepted exactly if it is read
as anything. -/
namespace Groundwork

section

variable {α β γ : Type} {reads : α → β → Prop}

/-- Each element of a list is read as something exactly if the list is. -/
theorem exists_forall₂_iff {xs : List α} :
    (∃ ys, List.Forall₂ reads xs ys) ↔ ∀ x ∈ xs, ∃ y, reads x y := by
  induction xs with
  | nil => exact ⟨fun _ _ member => (nomatch member), fun _ => ⟨[], .nil⟩⟩
  | cons x rest ih =>
      simp only [List.forall₂_cons_left_iff, List.forall_mem_cons, ← ih]
      constructor
      · rintro ⟨_, y, ys, first, more, rfl⟩
        exact ⟨⟨y, first⟩, ys, more⟩
      · rintro ⟨⟨y, first⟩, ys, more⟩
        exact ⟨y :: ys, y, ys, first, more, rfl⟩

theorem mem_of_forall₂ {xs : List α} {ys : List β} (each : List.Forall₂ reads xs ys) {y : β}
    (member : y ∈ ys) : ∃ x ∈ xs, reads x y := by
  induction each with
  | nil => cases member
  | cons first _ ih =>
      rcases List.mem_cons.mp member with rfl | later
      · exact ⟨_, List.mem_cons_self, first⟩
      · obtain ⟨x, known, read⟩ := ih later
        exact ⟨x, List.mem_cons_of_mem _ known, read⟩

theorem map_eq_of_forall₂ {xs : List α} {ys : List β} (each : List.Forall₂ reads xs ys)
    {f : α → γ} {g : β → γ} (same : ∀ x y, reads x y → g y = f x) : ys.map g = xs.map f := by
  induction each with
  | nil => rfl
  | cons first _ ih => rw [List.map_cons, List.map_cons, same _ _ first, ih]

theorem forall₂_append_left {xs more : List α} {ys : List β}
    (each : List.Forall₂ reads (xs ++ more) ys) :
    ∃ front back, List.Forall₂ reads xs front ∧ List.Forall₂ reads more back ∧
      ys = front ++ back := by
  induction xs generalizing ys with
  | nil => exact ⟨[], ys, .nil, each, rfl⟩
  | cons x rest ih =>
      obtain ⟨y, others, first, later, rfl⟩ := List.forall₂_cons_left_iff.mp each
      obtain ⟨front, back, before, behind, rfl⟩ := ih later
      exact ⟨y :: front, back, .cons first before, behind, rfl⟩

theorem read_nil_iff {ε : Type} {ys : List β} :
    (Except.ok [] : Except ε (List β)) = .ok ys ↔ List.Forall₂ reads [] ys := by
  rw [List.forall₂_nil_left_iff]
  exact ⟨fun success => (Except.ok.inj success).symm, fun none => none ▸ rfl⟩

/-- A reader that goes through a list reads its first element, and then the rest. -/
theorem read_cons_iff {ε : Type} {x : α} {xs : List α} {ys : List β} {first : Except ε β}
    {more : Except ε (List β)} (correct : ∀ y, first = .ok y ↔ reads x y)
    (others : ∀ ys, more = .ok ys ↔ List.Forall₂ reads xs ys) :
    (do let y ← first; return y :: (← more)) = .ok ys ↔ List.Forall₂ reads (x :: xs) ys := by
  simp only [Except.bind_eq_ok_iff, correct, others, List.forall₂_cons_left_iff]
  constructor
  · rintro ⟨y, head, rest, tail, same⟩
    exact ⟨y, rest, head, tail, (Except.ok.inj same).symm⟩
  · rintro ⟨y, rest, head, tail, rfl⟩
    exact ⟨y, head, rest, tail, rfl⟩

end

/-- At least one character, all of them letters, digits, underscores or dashes. -/
def OutputName (name : String) : Prop :=
  name ≠ "" ∧ ∀ c ∈ name.toList,
    ('a' ≤ c ∧ c ≤ 'z') ∨ ('A' ≤ c ∧ c ≤ 'Z') ∨ ('0' ≤ c ∧ c ≤ '9') ∨ c = '_' ∨ c = '-'

theorem isPlainName_iff {name : String} : isPlainName name = true ↔ OutputName name := by
  have plain : ∀ c : Char, ((c.toNat < 128 && c.isAlphanum) || c = '_' || c = '-') = true ↔
      ('a' ≤ c ∧ c ≤ 'z') ∨ ('A' ≤ c ∧ c ≤ 'Z') ∨ ('0' ≤ c ∧ c ≤ '9') ∨ c = '_' ∨ c = '-' := by
    intro c
    simp only [Char.isAlphanum, Placeholder.isAlpha_iff, Char.isDigit, Bool.or_eq_true,
      Bool.and_eq_true, decide_eq_true_eq, Char.le_def, Char.ext_iff, Char.toNat,
      UInt32.le_iff_toNat_le, ← UInt32.toNat_inj, ge_iff_le]
    have letters : 'a'.val.toNat = 97 ∧ 'z'.val.toNat = 122 ∧ 'A'.val.toNat = 65 ∧
      'Z'.val.toNat = 90 ∧ '0'.val.toNat = 48 ∧ '9'.val.toNat = 57 := by decide
    omega
  unfold isPlainName OutputName
  simp only [Bool.and_eq_true, decide_eq_true_eq, List.all_eq_true, plain]

theorem requireDirectoryName_eq_ok_iff {entity : Entity} {name : String} {checked : Unit} :
    requireDirectoryName entity name = .ok checked ↔ OutputName name := by
  rw [← isPlainName_iff]
  refine ⟨requireDirectoryName_eq_ok, fun plain => ?_⟩
  rw [requireDirectoryName, if_pos plain]

namespace Value

def NullOrMapping (v : Value) : Prop := v = .null ∨ ∃ fields, v = .map fields

/-- Null stands for the empty mapping. -/
inductive MappingFields : Value → Fields → Prop where
  | null : MappingFields .null []
  | map (fields : Fields) : MappingFields (.map fields) fields

theorem exists_mappingFields_iff {v : Value} :
    (∃ fields, v.MappingFields fields) ↔ v.NullOrMapping := by
  constructor
  · rintro ⟨fields, ⟨⟩ | ⟨⟩⟩
    · exact .inl rfl
    · exact .inr ⟨fields, rfl⟩
  · rintro (rfl | ⟨fields, rfl⟩)
    · exact ⟨[], .null⟩
    · exact ⟨fields, .map fields⟩

section single

variable {α : Type} {make : String → Fields → α} {shape : Failure}
  {content : String → Kind → Failure} {v : Value} {x : α}

/-- What a mapping of one name to fields is read as. -/
inductive SingleAs (make : String → Fields → α) : Value → α → Prop where
  | single {name : String} {inner : Value} {fields : Fields} (mapping : inner.MappingFields fields) :
      SingleAs make (.map [(name, inner)]) (make name fields)

def IsSingle (v : Value) : Prop := ∃ name inner, v = .map [(name, inner)] ∧ inner.NullOrMapping

theorem exists_singleAs_iff : (∃ x, SingleAs make v x) ↔ v.IsSingle := by
  constructor
  · rintro ⟨_, ⟨mapping⟩⟩
    exact ⟨_, _, rfl, exists_mappingFields_iff.mp ⟨_, mapping⟩⟩
  · rintro ⟨name, inner, rfl, accepted⟩
    obtain ⟨fields, mapping⟩ := exists_mappingFields_iff.mpr accepted
    exact ⟨make name fields, .single mapping⟩

theorem single_eq_ok_iff : single make shape content v = .ok x ↔ SingleAs make v x := by
  constructor
  · intro success
    unfold single at success
    split at success <;> cases success
    · exact .single .null
    · exact .single (.map _)
  · rintro ⟨⟨⟩ | ⟨⟩⟩ <;> rfl

theorem single_eq_error_iff {e : Failure} :
    single make shape content v = .error e ↔
      (∀ name inner, v ≠ .map [(name, inner)]) ∧ e = shape ∨
      ∃ name inner, v = .map [(name, inner)] ∧ ¬ inner.NullOrMapping ∧ e = content name inner.kind := by
  constructor
  · intro failed
    unfold single at failed
    split at failed <;> cases failed
    · rename_i name inner noNull noMap
      refine .inr ⟨name, inner, rfl, ?_, rfl⟩
      rintro (rfl | ⟨fields, rfl⟩)
      · exact noNull rfl
      · exact noMap fields rfl
    · rename_i noNull noMap other
      exact .inl ⟨other, rfl⟩
  · rintro (⟨other, rfl⟩ | ⟨name, inner, rfl, other, rfl⟩)
    · unfold single
      split
      case h_4 => rfl
      all_goals exact absurd rfl (other _ _)
    · cases inner with
      | null => exact absurd (.inl rfl) other
      | map fields => exact absurd (.inr ⟨fields, rfl⟩) other
      | _ => rfl

end single

end Value

/-- The value of a section; a missing section is a null one. -/
def Fields.sectionValue (fields : Fields) (name : String) : Value := (fields.get? name).getD .null

namespace DeclaredResource

/-- The type stands over the fields of the resource. -/
abbrev DeclaredAs : Value → DeclaredResource → Prop := Value.SingleAs .mk

def IsList (v : Value) : Prop :=
  v = .null ∨ ∃ entries, v = .list entries ∧ ∀ entry ∈ entries, entry.IsSingle

/-- One resource for every entry of the list, in its order. -/
inductive ListedAs : Value → List DeclaredResource → Prop where
  | null : ListedAs .null []
  | list {entries : List Value} {rs : List DeclaredResource}
      (each : List.Forall₂ DeclaredAs entries rs) : ListedAs (.list entries) rs

theorem exists_listedAs_iff {v : Value} : (∃ rs, ListedAs v rs) ↔ IsList v := by
  constructor
  · rintro ⟨rs, ⟨⟩ | ⟨each⟩⟩
    · exact .inl rfl
    · refine .inr ⟨_, rfl, fun entry member => ?_⟩
      exact Value.exists_singleAs_iff.mp (exists_forall₂_iff.mp ⟨rs, each⟩ entry member)
  · rintro (rfl | ⟨entries, rfl, accepted⟩)
    · exact ⟨[], .null⟩
    · have each : ∀ entry ∈ entries, ∃ r, DeclaredAs entry r :=
        fun entry member => Value.exists_singleAs_iff.mpr (accepted entry member)
      obtain ⟨rs, listed⟩ := exists_forall₂_iff.mpr each
      exact ⟨rs, .list listed⟩

theorem ofValues_eq_ok_iff {owner : Entity} {entries : List Value} {rs : List DeclaredResource} :
    ofValues owner entries = .ok rs ↔ List.Forall₂ DeclaredAs entries rs := by
  induction entries generalizing rs with
  | nil => exact read_nil_iff
  | cons entry rest ih => exact read_cons_iff (fun _ => Value.single_eq_ok_iff) fun _ => ih

theorem ofSection_eq_ok_iff {owner : Entity} {section? : Option Value} {rs : List DeclaredResource} :
    ofSection owner section? = .ok rs ↔ ListedAs (section?.getD .null) rs := by
  constructor
  · intro success
    unfold ofSection at success
    split at success
    · cases success
      exact .null
    · cases success
      exact .null
    · exact .list (ofValues_eq_ok_iff.mp success)
    · cases success
  · intro listed
    cases section? with
    | none =>
        cases listed
        rfl
    | some v =>
        cases listed with
        | null => rfl
        | list each => exact ofValues_eq_ok_iff.mpr each

end DeclaredResource

namespace Platform

variable {α : Type}

def IsSection (accepts : String → Value → Prop) (v : Value) : Prop :=
  v = .null ∨ ∃ fields, v = .map fields ∧ ∀ e ∈ fields, accepts e.1 e.2

/-- One entry of the same name for every entry of the mapping, in its order. -/
def EntriesAs (reads : String → Value → α → Prop) (fields : Fields) (entries : Dict α) : Prop :=
  List.Forall₂ (fun given entry => entry.1 = given.1 ∧ reads given.1 given.2 entry.2) fields entries

def ReadAs (reads : String → Value → α → Prop) (v : Value) (entries : Dict α) : Prop :=
  ∃ fields, v.MappingFields fields ∧ EntriesAs reads fields entries

theorem exists_entriesAs_iff {reads : String → Value → α → Prop} {accepts : String → Value → Prop}
    (correct : ∀ name v, (∃ x, reads name v x) ↔ accepts name v) {fields : Fields} :
    (∃ entries, EntriesAs reads fields entries) ↔ ∀ e ∈ fields, accepts e.1 e.2 := by
  have one : ∀ given : String × Value,
      (∃ entry : String × α, entry.1 = given.1 ∧ reads given.1 given.2 entry.2) ↔
        accepts given.1 given.2 := by
    intro given
    rw [← correct]
    exact ⟨fun ⟨entry, _, read⟩ => ⟨entry.2, read⟩, fun ⟨x, read⟩ => ⟨(given.1, x), rfl, read⟩⟩
  unfold EntriesAs
  simp only [exists_forall₂_iff, one]

theorem exists_readAs_iff {reads : String → Value → α → Prop} {accepts : String → Value → Prop}
    (correct : ∀ name v, (∃ x, reads name v x) ↔ accepts name v) {v : Value} :
    (∃ entries, ReadAs reads v entries) ↔ IsSection accepts v := by
  constructor
  · rintro ⟨entries, fields, mapping, each⟩
    cases mapping with
    | null => exact .inl rfl
    | map => exact .inr ⟨fields, rfl, (exists_entriesAs_iff correct).mp ⟨entries, each⟩⟩
  · rintro (rfl | ⟨fields, rfl, accepted⟩)
    · exact ⟨[], [], .null, .nil⟩
    · obtain ⟨entries, each⟩ := (exists_entriesAs_iff correct).mpr accepted
      exact ⟨entries, fields, .map fields, each⟩

theorem sectionMapping_eq_ok_iff {name : String} {section? : Option Value} {fields : Fields} :
    sectionMapping name section? = .ok fields ↔ (section?.getD .null).MappingFields fields := by
  constructor
  · intro success
    unfold sectionMapping at success
    split at success <;> cases success
    · exact .null
    · exact .null
    · exact .map fields
  · intro mapping
    cases section? <;> cases mapping <;> rfl

theorem eachEntry_eq_ok_iff {read : String → Value → Except Failure α}
    {reads : String → Value → α → Prop}
    (correct : ∀ name v x, read name v = .ok x ↔ reads name v x) {fields : Fields}
    {entries : Dict α} :
    eachEntry read fields = .ok entries ↔ EntriesAs reads fields entries := by
  unfold EntriesAs
  induction fields generalizing entries with
  | nil => exact read_nil_iff
  | cons given rest ih =>
      simp only [eachEntry, Except.bind_eq_ok_iff, correct, ih, List.forall₂_cons_left_iff]
      constructor
      · rintro ⟨x, first, others, more, same⟩
        exact ⟨(given.1, x), others, ⟨rfl, first⟩, more, (Except.ok.inj same).symm⟩
      · rintro ⟨⟨name, x⟩, others, ⟨rfl, first⟩, more, rfl⟩
        exact ⟨x, first, others, more, rfl⟩

theorem readAs_iff {read : String → Value → Except Failure α} {reads : String → Value → α → Prop}
    (correct : ∀ name v x, read name v = .ok x ↔ reads name v x) {name : String} {raw : Fields}
    {entries : Dict α} :
    ReadAs reads (raw.sectionValue name) entries ↔
      ∃ fields, sectionMapping name (raw.get? name) = .ok fields ∧
        eachEntry read fields = .ok entries := by
  simp only [ReadAs, sectionMapping_eq_ok_iff, eachEntry_eq_ok_iff correct, Fields.sectionValue]

theorem entryMapping_eq_ok_iff {entity : Entity} {v : Value} {fields : Fields} :
    entryMapping entity v = .ok fields ↔ v.MappingFields fields := by
  constructor
  · intro success
    unfold entryMapping at success
    split at success <;> cases success
    · exact .null
    · exact .map fields
  · rintro (⟨⟩ | ⟨⟩) <;> rfl

def IsModule (name : String) (v : Value) : Prop :=
  OutputName name ∧ (v = .null ∨ ∃ fields, v = .map fields ∧
    DeclaredResource.IsList (Fields.sectionValue fields resourcesKey))

/-- The resources are taken out of the module's fields, the others stay in order. -/
structure ModuleAs (name : String) (v : Value) (m : DeclaredModule) : Prop where
  name : OutputName name
  parts : ∃ fields, v.MappingFields fields ∧
    DeclaredResource.ListedAs (Fields.sectionValue fields resourcesKey) m.resources ∧
    m.fields = fields.filter fun e => e.1 ≠ resourcesKey

theorem exists_moduleAs_iff {name : String} {v : Value} :
    (∃ m, ModuleAs name v m) ↔ IsModule name v := by
  constructor
  · rintro ⟨m, plain, fields, mapping, listed, -⟩
    refine ⟨plain, ?_⟩
    cases mapping with
    | null => exact .inl rfl
    | map => exact .inr ⟨fields, rfl, DeclaredResource.exists_listedAs_iff.mp ⟨_, listed⟩⟩
  · rintro ⟨plain, rfl | ⟨fields, rfl, accepted⟩⟩
    · exact ⟨⟨[], []⟩, plain, [], .null, .null, rfl⟩
    · obtain ⟨rs, listed⟩ := DeclaredResource.exists_listedAs_iff.mpr accepted
      exact ⟨⟨rs, _⟩, plain, fields, .map fields, listed, rfl⟩

theorem declaredModule_eq_ok_iff {name : String} {v : Value} {m : DeclaredModule} :
    declaredModule name v = .ok m ↔ ModuleAs name v m := by
  simp only [declaredModule, Except.bind_eq_ok_iff, requireDirectoryName_eq_ok_iff,
    entryMapping_eq_ok_iff, DeclaredResource.ofSection_eq_ok_iff]
  constructor
  · rintro ⟨_, plain, fields, mapping, resources, listed, same⟩
    cases Except.ok.inj same
    exact ⟨plain, fields, mapping, listed, rfl⟩
  · rintro ⟨plain, fields, mapping, listed, same⟩
    have rebuilt : DeclaredModule.mk m.resources (fields.filter fun e => e.1 ≠ resourcesKey) = m := by
      rw [← same]
    exact ⟨(), plain, fields, mapping, m.resources, listed, congrArg Except.ok rebuilt⟩

def IsEnvironment (name : String) (v : Value) : Prop := OutputName name ∧ v.NullOrMapping

def EnvironmentAs (name : String) (v : Value) (config : Fields) : Prop :=
  OutputName name ∧ v.MappingFields config

theorem exists_environmentAs_iff {name : String} {v : Value} :
    (∃ config, EnvironmentAs name v config) ↔ IsEnvironment name v := by
  unfold EnvironmentAs IsEnvironment
  rw [exists_and_left, Value.exists_mappingFields_iff]

theorem declaredEnvironment_eq_ok_iff {name : String} {v : Value} {config : Fields} :
    declaredEnvironment name v = .ok config ↔ EnvironmentAs name v config := by
  simp only [declaredEnvironment, Except.bind_eq_ok_iff, requireDirectoryName_eq_ok_iff,
    entryMapping_eq_ok_iff, EnvironmentAs, exists_const]

/-- The configurations that are normalised to anything. -/
structure Acceptable (raw : Fields) : Prop where
  providers : ∃ providers, Provider.ofSection (raw.get? "providers") = .ok providers
  resources : DeclaredResource.IsList (raw.sectionValue "resources")
  modules : IsSection IsModule (raw.sectionValue "modules")
  environments : IsSection IsEnvironment (raw.sectionValue "environments")
  extraAssets : IsSection (fun _ v => v.NullOrMapping) (raw.sectionValue "extra_assets")

/-- What a configuration is normalised to. Nothing is lost or moved. -/
structure Describes (raw : Fields) (p : Platform) : Prop where
  providers : Provider.ofSection (raw.get? "providers") = .ok p.providers
  resources : DeclaredResource.ListedAs (raw.sectionValue "resources") p.resources
  modules : ReadAs ModuleAs (raw.sectionValue "modules") p.modules
  environments : ReadAs EnvironmentAs (raw.sectionValue "environments") p.environments
  extraAssets :
    ReadAs (fun _ v config => v.MappingFields config) (raw.sectionValue "extra_assets") p.extraAssets
  extra : p.extra = raw.filter fun e => e.1 ∉ sectionNames ++ computedNames

theorem exists_describes_iff {raw : Fields} : (∃ p, Describes raw p) ↔ Acceptable raw := by
  constructor
  · rintro ⟨p, describes⟩
    exact {
      providers := ⟨_, describes.providers⟩
      resources := DeclaredResource.exists_listedAs_iff.mp ⟨_, describes.resources⟩
      modules := (exists_readAs_iff fun _ _ => exists_moduleAs_iff).mp ⟨_, describes.modules⟩
      environments := (exists_readAs_iff fun _ _ => exists_environmentAs_iff).mp
        ⟨_, describes.environments⟩
      extraAssets := (exists_readAs_iff fun _ _ => Value.exists_mappingFields_iff).mp
        ⟨_, describes.extraAssets⟩ }
  · intro acceptable
    obtain ⟨providers, first⟩ := acceptable.providers
    obtain ⟨resources, second⟩ := DeclaredResource.exists_listedAs_iff.mpr acceptable.resources
    obtain ⟨modules, third⟩ := (exists_readAs_iff fun _ _ => exists_moduleAs_iff).mpr acceptable.modules
    obtain ⟨environments, fourth⟩ :=
      (exists_readAs_iff fun _ _ => exists_environmentAs_iff).mpr acceptable.environments
    obtain ⟨extraAssets, fifth⟩ :=
      (exists_readAs_iff fun _ _ => Value.exists_mappingFields_iff).mpr acceptable.extraAssets
    exact ⟨⟨providers, resources, modules, environments, extraAssets, _⟩,
      first, second, third, fourth, fifth, rfl⟩

theorem ofFields_eq_ok_iff {raw : Fields} {p : Platform} :
    ofFields raw = .ok p ↔ Describes raw p := by
  have others : (raw.eraseAll sectionNames).eraseAll computedNames =
      raw.filter fun e => e.1 ∉ sectionNames ++ computedNames := by
    rw [← Dict.eraseAll_eq_filter, Dict.eraseAll, Dict.eraseAll, Dict.eraseAll, List.foldl_append]
  have asset : ∀ name v (config : Fields), entryMapping (.extraAsset name) v = .ok config ↔
      v.MappingFields config := fun _ _ _ => entryMapping_eq_ok_iff
  constructor
  · intro success
    obtain ⟨providers, first, success⟩ := Except.bind_eq_ok_iff.mp success
    obtain ⟨resources, second, success⟩ := Except.bind_eq_ok_iff.mp success
    obtain ⟨moduleFields, moduleSection, success⟩ := Except.bind_eq_ok_iff.mp success
    obtain ⟨modules, third, success⟩ := Except.bind_eq_ok_iff.mp success
    obtain ⟨environmentFields, environmentSection, success⟩ := Except.bind_eq_ok_iff.mp success
    obtain ⟨environments, fourth, success⟩ := Except.bind_eq_ok_iff.mp success
    obtain ⟨assetFields, assetSection, success⟩ := Except.bind_eq_ok_iff.mp success
    obtain ⟨extraAssets, fifth, success⟩ := Except.bind_eq_ok_iff.mp success
    cases Except.ok.inj success
    exact {
      providers := first
      resources := DeclaredResource.ofSection_eq_ok_iff.mp second
      modules := (readAs_iff fun _ _ _ => declaredModule_eq_ok_iff).mpr ⟨_, moduleSection, third⟩
      environments := (readAs_iff fun _ _ _ => declaredEnvironment_eq_ok_iff).mpr
        ⟨_, environmentSection, fourth⟩
      extraAssets := (readAs_iff asset).mpr ⟨_, assetSection, fifth⟩
      extra := others }
  · intro describes
    obtain ⟨moduleFields, moduleSection, third⟩ :=
      (readAs_iff fun _ _ _ => declaredModule_eq_ok_iff).mp describes.modules
    obtain ⟨environmentFields, environmentSection, fourth⟩ :=
      (readAs_iff fun _ _ _ => declaredEnvironment_eq_ok_iff).mp describes.environments
    obtain ⟨assetFields, assetSection, fifth⟩ := (readAs_iff asset).mp describes.extraAssets
    unfold ofFields
    simp only [Except.bind_eq_ok_iff]
    refine ⟨_, describes.providers, _, DeclaredResource.ofSection_eq_ok_iff.mpr describes.resources,
      _, moduleSection, _, third, _, environmentSection, _, fourth, _, assetSection, _, fifth, ?_⟩
    rw [others, ← describes.extra]
    rfl

/-- A configuration is normalised exactly if it is acceptable, and then to what it describes: the
entries of each section in their order, with the empty mapping for null, and all other fields. -/
theorem ofFields_accepts (raw : Fields) :
    ((∃ p, ofFields raw = .ok p) ↔ Acceptable raw) ∧
      ∀ p, ofFields raw = .ok p ↔ Describes raw p := by
  refine ⟨?_, fun p => ofFields_eq_ok_iff⟩
  simp only [ofFields_eq_ok_iff]
  exact exists_describes_iff

end Platform

end Groundwork
