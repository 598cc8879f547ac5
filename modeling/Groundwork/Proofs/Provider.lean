import Groundwork.Proofs.Platform
import Groundwork.Proofs.Rereading

set_option autoImplicit false

/- Declared providers. A list of them is accepted if each entry declares one provider, no two have
one name, and each known one carries what it must. An entry is judged by itself and by the names in
front of it, so a list is rejected for its first entry that does not fit what stands before it. What
was accepted is written as a list that is read and accepted as the same providers. -/
namespace Groundwork.Provider

/-- The name stands over the parameters of the provider. -/
abbrev DeclaredAs : Value → Provider → Prop := Value.SingleAs .mk

/-- The name that an entry declares. -/
def declaredName? : Value → Option String
  | .map [(name, _)] => some name
  | _ => none

theorem DeclaredAs.name {v : Value} {p : Provider} (declared : DeclaredAs v p) :
    declaredName? v = some p.name := by
  cases declared
  rfl

/-- Parameters with a region. -/
def HasRegion (params : Fields) : Prop :=
  ∃ region, params.get? "region" = some region ∧ region ≠ .null

theorem isNull_region_iff {params : Fields} :
    ((params.get? "region").getD .null).isNull = true ↔ ¬ HasRegion params := by
  unfold HasRegion
  cases params.get? "region" with
  | none => simp [Value.isNull]
  | some v => cases v <;> simp [Value.isNull]

/-- Of the known providers only one demands a parameter. -/
def IsComplete (p : Provider) : Prop := p.name = "aws" → HasRegion p.params

theorem cloud?_aws {p : Provider} (named : p.name = "aws") : p.cloud? = some .aws := by
  unfold cloud?
  rw [named]
  rfl

theorem registryName_of_cloud? {p : Provider} {c : Cloud} (known : p.cloud? = some c) :
    c.registryName = p.name := by
  have found := List.find?_some (p := fun c : Cloud => decide (c.registryName = p.name)) known
  exact of_decide_eq_true found

theorem missingParams_of_complete {p : Provider} (complete : p.IsComplete) :
    p.missingParams = [] := by
  unfold missingParams
  cases known : p.cloud? with
  | none => rfl
  | some c =>
      have name := registryName_of_cloud? known
      cases c with
      | aws =>
          have region := not_not_intro (complete name.symm)
          exact List.filter_cons_of_neg (mt isNull_region_iff.mp region)
      | azure => rfl
      | gcp => rfl

theorem missingParams_of_incomplete {p : Provider} (incomplete : ¬ p.IsComplete) :
    p.name = "aws" ∧ p.missingParams = ["region"] := by
  obtain ⟨named, missing⟩ := Classical.not_imp.mp incomplete
  refine ⟨named, ?_⟩
  unfold missingParams
  rw [cloud?_aws named]
  exact List.filter_cons_of_pos (isNull_region_iff.mpr missing)

theorem check_eq_ok_iff {seen : List String} {p : Provider} {checked : Unit} :
    check seen p = .ok checked ↔ p.name ∉ seen ∧ p.IsComplete := by
  unfold check
  by_cases known : p.name ∈ seen
  · simp [known]
  · by_cases complete : p.IsComplete
    · simp [known, complete, missingParams_of_complete complete]
    · simp [known, complete, (missingParams_of_incomplete complete).2]

/-- Why an entry does not fit behind entries that declare the `known` names. -/
inductive RefusedWith (known : List String) : Value → Failure → Prop where
  | shape {entry : Value} (other : ∀ name params, entry ≠ .map [(name, params)]) :
      RefusedWith known entry (.configuration (.sectionNamed "providers") .providerNotSingle)
  | params {name : String} {v : Value} (other : ¬ v.NullOrMapping) :
      RefusedWith known (.map [(name, v)])
        (.configuration (.provider name) (.expectedParameters v.kind))
  | repeated {name : String} {v : Value} (proper : v.NullOrMapping) (again : name ∈ known) :
      RefusedWith known (.map [(name, v)]) (.configuration (.provider name) .duplicated)
  | region {v : Value} {params : Fields} (proper : v.MappingFields params)
      (new : "aws" ∉ known) (missing : ¬ HasRegion params) :
      RefusedWith known (.map [("aws", v)])
        (.configuration (.provider "aws") (.missingField "region"))

theorem check_eq_error_iff {seen : List String} {p : Provider} {e : Failure} :
    check seen p = .error e ↔
      (p.name ∈ seen ∧ e = .configuration (.provider p.name) .duplicated) ∨
      (p.name ∉ seen ∧ ¬ p.IsComplete ∧
        e = .configuration (.provider p.name) (.missingField "region")) := by
  unfold check
  by_cases known : p.name ∈ seen
  · simp [known, eq_comm]
  · by_cases complete : p.IsComplete
    · simp [known, complete, missingParams_of_complete complete]
    · simp [known, complete, (missingParams_of_incomplete complete).2, eq_comm]

/-- An entry does not fit if it declares no provider or one that is turned down. -/
theorem refusedWith_iff {known : List String} {entry : Value} {e : Failure} :
    RefusedWith known entry e ↔
      ofEntry entry = .error e ∨ ∃ p, ofEntry entry = .ok p ∧ check known p = .error e := by
  have reads (p : Provider) : ofEntry entry = .ok p ↔ DeclaredAs entry p := Value.single_eq_ok_iff
  have fails : ofEntry entry = .error e ↔ _ := Value.single_eq_error_iff
  rw [fails]
  simp only [reads]
  constructor
  · rintro (other | other | ⟨proper, again⟩ | ⟨proper, new, missing⟩)
    · exact .inl (.inl ⟨other, rfl⟩)
    · exact .inl (.inr ⟨_, _, rfl, other, rfl⟩)
    · obtain ⟨params, mapping⟩ := Value.exists_mappingFields_iff.mpr proper
      exact .inr ⟨_, .single mapping, check_eq_error_iff.mpr (.inl ⟨again, rfl⟩)⟩
    · refine .inr ⟨_, .single proper, check_eq_error_iff.mpr (.inr ⟨new, ?_, rfl⟩)⟩
      exact fun complete => missing (complete rfl)
  · rintro ((⟨other, rfl⟩ | ⟨name, inner, rfl, other, rfl⟩) | ⟨_, ⟨mapping⟩, failed⟩)
    · exact .shape other
    · exact .params other
    · rcases check_eq_error_iff.mp failed with ⟨again, rfl⟩ | ⟨new, incomplete, rfl⟩
      · exact .repeated (Value.exists_mappingFields_iff.mp ⟨_, mapping⟩) again
      · obtain ⟨rfl, missing⟩ := Classical.not_imp.mp incomplete
        exact .region mapping new missing

/-- The order of the known names makes no difference. -/
theorem refusedWith_congr {known other : List String} (same : ∀ name, name ∈ known ↔ name ∈ other)
    {entry : Value} {e : Failure} : RefusedWith known entry e ↔ RefusedWith other entry e := by
  simp only [refusedWith_iff, check_eq_error_iff, same]

theorem ofEntries_eq_ok_iff {seen : List String} {entries : List Value} {ps : List Provider} :
    ofEntries seen entries = .ok ps ↔ List.Forall₂ DeclaredAs entries ps ∧
      (ps.map name).Nodup ∧ ∀ p ∈ ps, p.name ∉ seen ∧ p.IsComplete := by
  induction entries generalizing seen ps with
  | nil =>
      rw [List.forall₂_nil_left_iff]
      constructor
      · intro success
        cases Except.ok.inj success
        exact ⟨rfl, List.nodup_nil, fun _ member => nomatch member⟩
      · rintro ⟨rfl, -⟩
        rfl
  | cons entry rest ih =>
      simp only [ofEntries, ofEntry, Except.bind_eq_ok_iff, Value.single_eq_ok_iff,
        check_eq_ok_iff, ih, List.forall₂_cons_left_iff, exists_const]
      constructor
      · rintro ⟨p, declared, ⟨new, complete⟩, others, ⟨each, apart, further⟩, same⟩
        cases Except.ok.inj same
        refine ⟨⟨p, others, declared, each, rfl⟩, List.nodup_cons.mpr ⟨?_, apart⟩, ?_⟩
        · intro again
          obtain ⟨q, member, same⟩ := List.mem_map.mp again
          exact (further q member).1 (same ▸ List.mem_cons_self)
        · rw [List.forall_mem_cons]
          exact ⟨⟨new, complete⟩, fun q member =>
            ⟨fun known => (further q member).1 (List.mem_cons_of_mem _ known), (further q member).2⟩⟩
      · rintro ⟨⟨p, others, declared, each, rfl⟩, apart, further⟩
        obtain ⟨single, apart⟩ := List.nodup_cons.mp apart
        obtain ⟨first, further⟩ := List.forall_mem_cons.mp further
        refine ⟨p, declared, first, others,
          ⟨each, apart, fun q member => ⟨?_, (further q member).2⟩⟩, rfl⟩
        intro known
        rcases List.mem_cons.mp known with same | known
        · exact single (same ▸ List.mem_map_of_mem member)
        · exact (further q member).1 known

/-- A list fails at its first entry that does not fit behind the providers declared in front of it. -/
theorem ofEntries_eq_error_iff {seen : List String} {entries : List Value} {e : Failure} :
    ofEntries seen entries = .error e ↔ ∃ before entry after ps,
      entries = before ++ entry :: after ∧ ofEntries seen before = .ok ps ∧
        RefusedWith ((ps.map name).reverse ++ seen) entry e := by
  induction entries generalizing seen with
  | nil =>
      refine ⟨fun failed => (nomatch failed), ?_⟩
      rintro ⟨before, entry, after, -, whole, -⟩
      exact absurd whole.symm (List.append_ne_nil_of_right_ne_nil before (List.cons_ne_nil entry after))
  | cons first rest ih =>
      have step : ofEntries seen (first :: rest) = .error e ↔ RefusedWith seen first e ∨
          ∃ p, ofEntry first = .ok p ∧ check seen p = .ok () ∧
            ofEntries (p.name :: seen) rest = .error e := by
        have later (p : Provider) :
            (do check seen p; return p :: (← ofEntries (p.name :: seen) rest)) = .error e ↔
              check seen p = .error e ∨
                check seen p = .ok () ∧ ofEntries (p.name :: seen) rest = .error e := by
          rw [Except.bind_eq_error_iff, Except.bind_pure_eq_error_iff]
          exact or_congr_right ⟨fun ⟨(), both⟩ => both, fun both => ⟨(), both⟩⟩
        rw [ofEntries, Except.bind_eq_error_iff, refusedWith_iff]
        simp only [later, and_or_left, exists_or, or_assoc]
      rw [step]
      constructor
      · rintro (refused | ⟨p, declared, passed, failed⟩)
        · exact ⟨[], first, rest, [], rfl, rfl, refused⟩
        · obtain ⟨before, entry, after, ps, rfl, fine, refused⟩ := ih.mp failed
          refine ⟨first :: before, entry, after, p :: ps, rfl, ?_, ?_⟩
          · rw [ofEntries, declared]
            show (check seen p >>= fun _ => ofEntries (p.name :: seen) before >>= fun others =>
              pure (p :: others)) = .ok (p :: ps)
            rw [passed, fine]
            rfl
          · rwa [List.map_cons, List.reverse_cons, List.append_assoc]
      · rintro ⟨before, entry, after, ps, whole, fine, refused⟩
        cases before with
        | nil =>
            cases Except.ok.inj fine
            cases whole
            exact .inl refused
        | cons other before =>
            cases whole
            simp only [ofEntries, Except.bind_eq_ok_iff] at fine
            obtain ⟨p, declared, _, passed, others, fine, same⟩ := fine
            cases Except.ok.inj same
            refine .inr ⟨p, declared, passed, ih.mpr ⟨before, entry, after, others, rfl, fine, ?_⟩⟩
            rwa [List.map_cons, List.reverse_cons, List.append_assoc] at refused

/-- The lists of entries that are accepted: each declares a provider, no two the same one, and the
provider that demands a region is given one. -/
structure Acceptable (entries : List Value) : Prop where
  each : ∀ entry ∈ entries, entry.IsSingle
  apart : (entries.map declaredName?).Nodup
  regions : ∀ params, .map [("aws", params)] ∈ entries →
    ∃ fields, params = .map fields ∧ HasRegion fields

theorem names_of_declared {entries : List Value} {ps : List Provider}
    (each : List.Forall₂ DeclaredAs entries ps) :
    entries.map declaredName? = ps.map fun p => some p.name :=
  (map_eq_of_forall₂ each fun _ _ declared => declared.name.symm).symm

theorem mapping_of_region {params : Value} {fields : Fields}
    (mapping : params.MappingFields fields) (region : HasRegion fields) : params = .map fields := by
  cases mapping with
  | null =>
      obtain ⟨v, found, -⟩ := region
      cases found
  | map => rfl

/-- Of entries that each declare a provider, the rest can be told from the providers. -/
theorem acceptable_iff_of_declared {entries : List Value} {ps : List Provider}
    (each : List.Forall₂ DeclaredAs entries ps) :
    Acceptable entries ↔ (ps.map name).Nodup ∧ ∀ p ∈ ps, p.IsComplete := by
  have names : entries.map declaredName? = (ps.map name).map some := by
    rw [names_of_declared each, List.map_map]
    rfl
  constructor
  · intro acceptable
    refine ⟨.of_map some (names ▸ acceptable.apart), fun p inside named => ?_⟩
    obtain ⟨entry, member, declared⟩ := mem_of_forall₂ each inside
    cases declared with
    | single fields =>
        cases named
        obtain ⟨_, rfl, region⟩ := acceptable.regions _ member
        cases fields
        exact region
  · rintro ⟨apart, complete⟩
    refine ⟨fun entry member => ?_, names ▸ apart.map fun _ _ => Option.some.inj, ?_⟩
    · exact Value.exists_singleAs_iff.mp (exists_forall₂_iff.mp ⟨ps, each⟩ entry member)
    · intro params member
      obtain ⟨p, inside, declared⟩ := mem_of_forall₂ each.flip member
      cases (declared : DeclaredAs _ p) with
      | single fields =>
          have region := complete _ inside rfl
          exact ⟨_, mapping_of_region fields region, region⟩

theorem ofEntries_nil_eq_ok_iff {entries : List Value} {ps : List Provider} :
    ofEntries [] entries = .ok ps ↔ List.Forall₂ DeclaredAs entries ps ∧ Acceptable entries := by
  rw [ofEntries_eq_ok_iff]
  apply and_congr_right
  intro each
  simp only [acceptable_iff_of_declared each, List.not_mem_nil, not_false_eq_true, true_and]

theorem exists_ofEntries_iff {entries : List Value} :
    (∃ ps, ofEntries [] entries = .ok ps) ↔ Acceptable entries := by
  simp only [ofEntries_nil_eq_ok_iff, exists_and_right]
  refine and_iff_right_of_imp fun acceptable => exists_forall₂_iff.mpr fun entry member => ?_
  exact Value.exists_singleAs_iff.mpr (acceptable.each entry member)

theorem filterMap_declaredName? {entries : List Value} {ps : List Provider}
    (each : List.Forall₂ DeclaredAs entries ps) : entries.filterMap declaredName? = ps.map name := by
  have whole : (entries.map declaredName?).filterMap id = (ps.map fun p => some p.name).filterMap id :=
    congrArg _ (names_of_declared each)
  rwa [List.filterMap_map, List.filterMap_map, Function.id_comp, Function.id_comp,
    List.filterMap_eq_map'] at whole

/-- A list is turned down for the first entry that makes what was acceptable so far unacceptable. -/
theorem ofEntries_nil_eq_error_iff {entries : List Value} {e : Failure} :
    ofEntries [] entries = .error e ↔ ∃ before entry after,
      entries = before ++ entry :: after ∧ Acceptable before ∧ ¬ Acceptable (before ++ [entry]) ∧
        RefusedWith (before.filterMap declaredName?) entry e := by
  have known {before : List Value} {ps : List Provider} (fine : ofEntries [] before = .ok ps)
      {entry : Value} : RefusedWith ((ps.map name).reverse ++ []) entry e ↔
        RefusedWith (before.filterMap declaredName?) entry e := by
    rw [filterMap_declaredName? (ofEntries_nil_eq_ok_iff.mp fine).1, List.append_nil]
    exact refusedWith_congr fun name => List.mem_reverse
  constructor
  · intro failed
    obtain ⟨before, entry, after, ps, rfl, fine, refused⟩ := ofEntries_eq_error_iff.mp failed
    refine ⟨before, entry, after, rfl, exists_ofEntries_iff.mp ⟨ps, fine⟩, ?_, (known fine).mp refused⟩
    rw [← exists_ofEntries_iff]
    rintro ⟨longer, success⟩
    have stopped := ofEntries_eq_error_iff.mpr ⟨before, entry, [], ps, rfl, fine, refused⟩
    cases success.symm.trans stopped
  · rintro ⟨before, entry, after, rfl, acceptable, -, refused⟩
    obtain ⟨ps, fine⟩ := exists_ofEntries_iff.mpr acceptable
    exact ofEntries_eq_error_iff.mpr ⟨before, entry, after, ps, rfl, fine, (known fine).mpr refused⟩

def IsSection (section? : Option Value) : Prop := section? = none ∨ section? = some .null ∨
  ∃ entries, section? = some (.list entries) ∧ Acceptable entries

/-- One provider for every entry, in order; a missing section and a null one have none. -/
inductive ListedAs : Option Value → List Provider → Prop where
  | missing : ListedAs none []
  | null : ListedAs (some .null) []
  | list {entries : List Value} {ps : List Provider} (acceptable : Acceptable entries)
      (each : List.Forall₂ DeclaredAs entries ps) : ListedAs (some (.list entries)) ps

/-- Anything but a list is rejected as such, a list for the first entry behind which it is not acceptable
any more. -/
inductive RejectedWith : Option Value → Failure → Prop where
  | kind {v : Value} (present : v ≠ .null) (other : ∀ entries, v ≠ .list entries) :
      RejectedWith (some v) (.configuration (.sectionNamed "providers") (.expectedList v.kind))
  | entry {before after : List Value} {entry : Value} {e : Failure} (fine : Acceptable before)
      (stops : ¬ Acceptable (before ++ [entry]))
      (fault : RefusedWith (before.filterMap declaredName?) entry e) :
      RejectedWith (some (.list (before ++ entry :: after))) e

theorem ofSection_eq_ok_iff {section? : Option Value} {ps : List Provider} :
    ofSection section? = .ok ps ↔ ListedAs section? ps := by
  constructor
  · intro success
    unfold ofSection at success
    split at success
    · cases success
      exact .missing
    · cases success
      exact .null
    · exact .list (exists_ofEntries_iff.mp ⟨ps, success⟩) (ofEntries_eq_ok_iff.mp success).1
    · cases success
  · intro listed
    cases listed with
    | missing => rfl
    | null => rfl
    | list acceptable each => exact ofEntries_nil_eq_ok_iff.mpr ⟨each, acceptable⟩

theorem exists_listedAs_iff {section? : Option Value} :
    (∃ ps, ListedAs section? ps) ↔ IsSection section? := by
  constructor
  · rintro ⟨ps, ⟨⟩ | ⟨⟩ | ⟨acceptable, -⟩⟩
    · exact .inl rfl
    · exact .inr (.inl rfl)
    · exact .inr (.inr ⟨_, rfl, acceptable⟩)
  · rintro (rfl | rfl | ⟨entries, rfl, acceptable⟩)
    · exact ⟨[], .missing⟩
    · exact ⟨[], .null⟩
    · obtain ⟨ps, success⟩ := exists_ofEntries_iff.mpr acceptable
      exact ⟨ps, .list acceptable (ofEntries_nil_eq_ok_iff.mp success).1⟩

theorem ofSection_of_other {v : Value} (present : v ≠ .null) (other : ∀ entries, v ≠ .list entries) :
    ofSection (some v) =
      .error (.configuration (.sectionNamed "providers") (.expectedList v.kind)) := by
  cases v with
  | null => exact absurd rfl present
  | list entries => exact absurd rfl (other entries)
  | _ => rfl

theorem ofSection_eq_error_iff {section? : Option Value} {e : Failure} :
    ofSection section? = .error e ↔ RejectedWith section? e := by
  constructor
  · intro failed
    unfold ofSection at failed
    split at failed
    · cases failed
    · cases failed
    · obtain ⟨before, entry, after, rfl, fine, stops, fault⟩ := ofEntries_nil_eq_error_iff.mp failed
      exact .entry fine stops fault
    · rename_i present other
      cases failed
      exact .kind present other
  · rintro (⟨present, other⟩ | ⟨fine, stops, fault⟩)
    · exact ofSection_of_other present other
    · exact ofEntries_nil_eq_error_iff.mpr ⟨_, _, _, rfl, fine, stops, fault⟩

/-- The entry that a provider is written as declares that provider. -/
theorem declaredAs_toValue (p : Provider) : DeclaredAs p.toValue p := .single (.map p.params)

theorem ofSection_toValues {section? : Option Value} {ps : List Provider}
    (success : ofSection section? = .ok ps) : ofSection (some (.list (ps.map toValue))) = .ok ps := by
  have each : List.Forall₂ DeclaredAs (ps.map toValue) ps := by
    rw [List.forall₂_map_left_iff, List.forall₂_same]
    exact fun p _ => declaredAs_toValue p
  refine ofSection_eq_ok_iff.mpr (.list ((acceptable_iff_of_declared each).mpr ?_) each)
  cases ofSection_eq_ok_iff.mp success with
  | missing => exact ⟨List.nodup_nil, fun _ member => nomatch member⟩
  | null => exact ⟨List.nodup_nil, fun _ member => nomatch member⟩
  | list acceptable declared => exact (acceptable_iff_of_declared declared).mp acceptable

theorem wellKeyed_toValue {p : Provider} (keyed : Value.WellKeyed (.map p.params)) :
    p.toValue.WellKeyed := by
  have distinct : Dict.Distinct [(p.name, Value.map p.params)] := List.pairwise_singleton _ p.name
  exact .map distinct (List.forall_mem_singleton.mpr keyed)

/-- A mapping under the marker's name does not mark the entry. -/
theorem tagged_toValue {p : Provider} (tagged : Value.Tagged (.map p.params)) : p.toValue.Tagged := by
  refine .map (fun marked => ?_) (List.forall_mem_singleton.mpr tagged)
  unfold Dict.get? at marked
  split at marked <;> cases marked

/-- The parameters obey every law that the entries obey. -/
theorem obeys_params {F : Fields → Prop} {V : Value → Prop} (law : Value.Law F V)
    {entries : List Value} {ps : List Provider} (each : List.Forall₂ DeclaredAs entries ps)
    (good : ∀ v ∈ entries, V v) : ∀ p ∈ ps, V (.map p.params) := by
  intro p inside
  obtain ⟨entry, member, declared⟩ := mem_of_forall₂ each inside
  obtain ⟨name, params, rfl, lawful⟩ := declared.obeys law (good entry member)
  exact lawful

theorem obeys_toValues {F : Fields → Prop} {V : Value → Prop} (law : Value.Law F V)
    (write : ∀ p : Provider, V (.map p.params) → V p.toValue) {section? : Option Value}
    {ps : List Provider} (success : ofSection section? = .ok ps) (good : ∀ v ∈ section?, V v) :
    V (.list (ps.map toValue)) := by
  rw [law.list, List.forall_mem_map]
  intro p inside
  cases ofSection_eq_ok_iff.mp success with
  | missing => cases inside
  | null => cases inside
  | list acceptable each => exact write p (obeys_params law each (law.list.mp (good _ rfl)) p inside)

/-- Providers of a section that was read from a document are written as a list that is read as it is. -/
theorem ofDatum_toValues {section? : Option Value} {ps : List Provider}
    (success : ofSection section? = .ok ps) (read : ∀ v ∈ section?, ∃ d, Value.ofDatum d = .ok v) :
    Value.ofDatum (Value.toDatum (.list (ps.map toValue))) = .ok (.list (ps.map toValue)) := by
  refine Value.ofDatum_toDatum_of_tagged ?_ ?_
  · refine obeys_toValues Value.law_wellKeyed (fun _ => wellKeyed_toValue) success fun v present => ?_
    obtain ⟨d, found⟩ := read v present
    exact Value.law_wellKeyed.ofDatum d found
  · refine obeys_toValues Value.law_tagged (fun _ => tagged_toValue) success fun v present => ?_
    obtain ⟨d, found⟩ := read v present
    exact Value.law_tagged.ofDatum d found

/-- A section of providers is accepted exactly if it is missing, null or an acceptable list, and then has
one provider for each entry; else it fails for what is wrong with it, a list for the first entry that
makes it unacceptable. The providers of a section that was read are written as a list that is read back and
accepted as these providers. -/
theorem ofSection_accepts (section? : Option Value) :
    ((∃ ps, ofSection section? = .ok ps) ↔ IsSection section?) ∧
      (∀ ps, ofSection section? = .ok ps ↔ ListedAs section? ps) ∧
      (∀ e, ofSection section? = .error e ↔ RejectedWith section? e) ∧
      ∀ ps, ofSection section? = .ok ps → (∀ v ∈ section?, ∃ d, Value.ofDatum d = .ok v) →
        ∃ v, Value.ofDatum (Value.toDatum (.list (ps.map toValue))) = .ok v ∧
          ofSection (some v) = .ok ps := by
  refine ⟨?_, fun ps => ofSection_eq_ok_iff, fun e => ofSection_eq_error_iff, ?_⟩
  · simp only [ofSection_eq_ok_iff]
    exact exists_listedAs_iff
  · intro ps success read
    exact ⟨_, ofDatum_toValues success read, ofSection_toValues success⟩

namespace Sample

def document : Yaml.Datum :=
  .sequence [.mapping [(.string "aws", .mapping [(.string "region", .string "eu-west-1")])],
    .mapping [(.string "random", .null)]]

def entries : List Value :=
  [.map [("aws", .map [("region", .string "eu-west-1")])], .map [("random", .null)]]

def providers : List Provider := [⟨"aws", [("region", .string "eu-west-1")]⟩, ⟨"random", []⟩]

end Sample

/-- Two providers are accepted, and a second one of the same name is not. -/
theorem ofSection_accepts_random :
    ListedAs (some (.list Sample.entries)) Sample.providers ∧
      (∃ v, Value.ofDatum (Value.toDatum (.list (Sample.providers.map toValue))) = .ok v ∧
        ofSection (some v) = .ok Sample.providers) ∧
      RejectedWith (some (.list (Sample.entries ++ [.map [("random", .map [])], .null])))
        (.configuration (.provider "random") .duplicated) := by
  have success : ofSection (some (.list Sample.entries)) = .ok Sample.providers := by rfl
  have read : Value.ofDatum Sample.document = .ok (.list Sample.entries) := by rfl
  obtain ⟨-, listed, -, again⟩ := ofSection_accepts (some (.list Sample.entries))
  obtain ⟨-, -, rejected, -⟩ :=
    ofSection_accepts (some (.list (Sample.entries ++ [.map [("random", .map [])], .null])))
  refine ⟨(listed _).mp success, again _ success ?_, (rejected _).mp rfl⟩
  intro v present
  exact ⟨Sample.document, Option.mem_some.mp present ▸ read⟩

end Groundwork.Provider
