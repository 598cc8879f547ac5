import Groundwork.Proofs.History
import Mathlib.Data.String.Basic
import Mathlib.Tactic.SplitIfs

set_option autoImplicit false

/- What the manifest records. It is a second copy of the results of a run, and every phase that
replaces results records them as well, so after any history the manifest agrees with what the run
holds. Its lists of names ascend in the order of texts; texts are compared character by character,
and since a greater character has the greater encoding, this is the order of their bytes. -/
namespace Groundwork.Text

/-- The bytes that a text is stored as. -/
def bytes (s : String) : List UInt8 := s.toUTF8.data.toList

theorem bytes_eq (s : String) : bytes s = s.toList.flatMap String.utf8EncodeChar := by
  unfold bytes
  rw [String.toUTF8_eq_toByteArray, ← String.utf8Encode_toList, List.utf8Encode]
  simp

/-- Two encodings differ before the shorter one ends, so what stands behind them does not count. -/
theorem encode_append_lt {c d : Char} (less : c < d) (u v : List UInt8) :
    String.utf8EncodeChar c ++ u < String.utf8EncodeChar d ++ v := by
  have order : c.val.toNat < d.val.toNat := less
  have limit : d.val.toNat < 1114112 := by
    have valid := d.valid
    unfold UInt32.isValidChar Nat.isValidChar at valid
    omega
  simp only [String.utf8EncodeChar]
  generalize c.val.toNat = a at *
  generalize d.val.toNat = b at *
  -- One case per pair of lengths; longer encodings start with greater bytes.
  split_ifs <;>
    simp (disch := omega) only [List.cons_append, List.nil_append, List.cons_lt_cons_iff,
      UInt8.lt_iff_toNat_lt, ← UInt8.toNat_inj, UInt8.toNat_ofNat', Nat.reducePow,
      Nat.mod_eq_of_lt] <;>
    omega

theorem encode_lt : {cs ds : List Char} → cs < ds →
    cs.flatMap String.utf8EncodeChar < ds.flatMap String.utf8EncodeChar
  | [], [], less => absurd less (List.not_lt_nil _)
  | [], d :: ds, _ => by
      obtain ⟨byte, rest, same⟩ := List.exists_cons_of_ne_nil (String.utf8EncodeChar_ne_nil (c := d))
      rw [List.flatMap_nil, List.flatMap_cons, same]
      exact .nil
  | _ :: _, [], less => absurd less (List.not_lt_nil _)
  | c :: cs, d :: ds, less => by
      rw [List.flatMap_cons, List.flatMap_cons]
      rcases List.cons_lt_cons_iff.mp less with here | ⟨rfl, later⟩
      · exact encode_append_lt here _ _
      · exact List.append_left_lt (encode_lt later)

/-- Texts are in the order of their bytes. -/
theorem lt_iff_bytes_lt (s t : String) : s < t ↔ bytes s < bytes t := by
  have forth : ∀ {s t : String}, s < t → bytes s < bytes t := by
    intro s t less
    rw [bytes_eq, bytes_eq]
    exact encode_lt (String.lt_iff_toList_lt.mp less)
  refine ⟨forth, fun less => ?_⟩
  rcases Std.lt_trichotomy s t with here | rfl | there
  · exact here
  · exact absurd less (List.lt_irrefl _)
  · exact absurd less (List.lt_asymm (forth there))

end Groundwork.Text

namespace Groundwork

namespace Manifest

theorem mem_insertName {name other : String} {names : List String} :
    other ∈ insertName name names ↔ other = name ∨ other ∈ names := by
  induction names with
  | nil => exact List.mem_singleton.trans (or_iff_left List.not_mem_nil).symm
  | cons first rest ih =>
      simp only [insertName]
      split
      · exact List.mem_cons
      · split
        · rename_i same
          rw [same]
          exact ⟨.inr, fun found => found.elim (· ▸ List.mem_cons_self) id⟩
        · rw [List.mem_cons, List.mem_cons, ih]
          exact or_left_comm

theorem ascending_insertName (name : String) {names : List String}
    (ascending : names.Pairwise (· < ·)) : (insertName name names).Pairwise (· < ·) := by
  induction names with
  | nil => exact List.pairwise_singleton _ name
  | cons first rest ih =>
      obtain ⟨least, others⟩ := List.pairwise_cons.mp ascending
      simp only [insertName]
      split
      · rename_i before
        refine List.pairwise_cons.mpr ⟨fun other member => ?_, ascending⟩
        rcases List.mem_cons.mp member with rfl | later
        · exact before
        · exact String.lt_trans before (least other later)
      · split
        · exact ascending
        · rename_i notBefore other
          have behind : first < name :=
            ((Std.lt_trichotomy name first).resolve_left notBefore).resolve_left other
          refine List.pairwise_cons.mpr ⟨fun later member => ?_, ih others⟩
          rcases mem_insertName.mp member with rfl | known
          · exact behind
          · exact least later known

theorem mem_sortedNames {name : String} {names : List String} :
    name ∈ sortedNames names ↔ name ∈ names := by
  unfold sortedNames
  induction names with
  | nil => exact Iff.rfl
  | cons first rest ih => rw [List.foldr_cons, mem_insertName, ih, List.mem_cons]

theorem ascending_sortedNames (names : List String) : (sortedNames names).Pairwise (· < ·) :=
  List.foldrRecOn names insertName .nil fun _ ascending name _ => ascending_insertName name ascending

end Manifest

namespace Build

/-- The manifest agrees with what a run of this description holds. -/
structure Recorded (p : Platform) (b : Build) : Prop where
  /-- Those declared in modules come first. -/
  resources : b.manifest.resources =
    (b.moduleResources ++ b.topLevelResources).map fun r => (r.type, r.config)
  types : ∀ type, type ∈ b.manifest.resourceTypes ↔ ∃ r ∈ b.resources, r.type = type
  ascending : b.manifest.resourceTypes.Pairwise fun s t => Text.bytes s < Text.bytes t
  modules : b.manifest.modules = b.modules.map fun m => (m.name, m.summary)
  environments : b.manifest.environments = b.environments.map fun e => (e.name, e.config)
  /-- A module or an environment is not recorded twice. -/
  distinct : Dict.Distinct b.manifest.modules ∧ Dict.Distinct b.manifest.environments
  providers : b.manifest.providers = p.providers
  extra : b.manifest.extra = p.extra

theorem recorded_ofPlatform (p : Platform) (destination : String) (context : Context)
    (generatedAt : String) : Recorded p (ofPlatform p destination context generatedAt) where
  resources := rfl
  types := by
    intro type
    constructor
    · exact fun member => nomatch member
    · rintro ⟨r, member, -⟩
      cases member
  ascending := .nil
  modules := rfl
  environments := rfl
  distinct := ⟨List.nodup_nil, List.nodup_nil⟩
  providers := rfl
  extra := rfl

/-- Wherever modules are assembled, resources and modules are recorded. -/
theorem Recorded.assemble {p : Platform} {b c : Build} (recorded : Recorded p b)
    (names : p.NamesTargets) (same : c.platform = p) (manifest : c.manifest = b.manifest)
    (environments : c.environments = b.environments) : Recorded p c.assemble where
  resources := rfl
  types := fun type => by
    show type ∈ Manifest.sortedNames (c.resources.map (·.type)) ↔ _
    rw [Manifest.mem_sortedNames, List.mem_map]
    rfl
  ascending := by
    have ascending := Manifest.ascending_sortedNames (c.resources.map (·.type))
    exact ascending.imp fun less => (Text.lt_iff_bytes_lt _ _).mp less
  modules := rfl
  environments := by
    show c.manifest.environments = c.environments.map _
    rw [manifest, environments]
    exact recorded.environments
  distinct := by
    refine ⟨?_, ?_⟩
    · show (((assembled c.platform c.resources).map fun m => (m.name, m.summary)).map (·.1)).Nodup
      rw [List.map_map, same]
      exact (names_assembled names.modules c.resources).1
    · show Dict.Distinct c.manifest.environments
      rw [manifest]
      exact recorded.distinct.2
  providers := by
    show c.manifest.providers = _
    rw [manifest]
    exact recorded.providers
  extra := by
    show c.manifest.extra = _
    rw [manifest]
    exact recorded.extra

theorem recorded_run {p : Platform} {b : Build} (recorded : Recorded p b) (same : b.platform = p)
    (names : p.NamesTargets) (phase : Phase) : Recorded p (b.run phase).2 := by
  cases phase with
  | modules =>
      refine settle_state recorded fun c success => ?_
      obtain ⟨rs, -, rfl⟩ := withModules_eq_ok_iff.mp success
      exact recorded.assemble names same rfl rfl
  | resources =>
      refine settle_state recorded fun c success => ?_
      obtain ⟨rs, -, rfl⟩ := withResources_eq_ok_iff.mp success
      exact recorded.assemble names same rfl rfl
  | environments =>
      refine settle_state recorded fun c success => ?_
      obtain ⟨es, built, rfl⟩ := withEnvironments_eq_ok_iff.mp success
      have distinct : Dict.Distinct (es.map fun e => (e.name, e.config)) := by
        show ((es.map fun e => (e.name, e.config)).map (·.1)).Nodup
        rw [List.map_map]
        show (es.map (·.name)).Nodup
        rw [Environment.names_buildAll built, same]
        exact names.environments
      have kept : (b.manifest.withEnvironments es).environments =
          es.map fun e => (e.name, e.config) := Dict.ofList_of_distinct distinct
      have environments : Dict.Distinct (b.manifest.withEnvironments es).environments := by
        rw [kept]
        exact distinct
      exact { recorded with
        environments := kept
        distinct := ⟨recorded.distinct.1, environments⟩ }
  | extraAssets =>
      -- The declared assets are recorded even if building them fails; nothing else is touched.
      have declared : Recorded p b.recordAssets := { recorded with }
      refine settle_state declared fun c success => ?_
      obtain ⟨as, -, rfl⟩ := withAssets_eq_ok_iff.mp success
      exact { declared with }

theorem state_call (p : Progress) (c : Call) :
    (p.call c).state = ((p.state.reading c.disk).run c.phase).2 := by
  unfold Progress.call
  rcases (p.state.reading c.disk).run c.phase with ⟨_ | ⟨⟩, b⟩ <;> rfl

/-- After any history of phase calls, whether they succeeded or failed, the manifest agrees with what the
run holds. -/
theorem recorded_progress {raw : Fields} {destination : String} {context : Context}
    {generatedAt : String} {start : Build} (keyed : raw.WellKeyed)
    (started : ofConfig raw destination context generatedAt = .ok start) (calls : List Call) :
    Recorded start.platform (start.progress calls).state := by
  obtain ⟨platform, read, rfl⟩ := ofConfig_eq_ok_iff.mp started
  have names : platform.NamesTargets := Platform.namesTargets_ofConfig keyed read
  let start := ofPlatform platform destination context generatedAt
  let holds : Progress → Prop := fun p => Continues start p.state ∧ Recorded platform p.state
  have first : holds ⟨[], start⟩ := ⟨Continues.refl start, recorded_ofPlatform ..⟩
  refine (List.foldlRecOn (motive := holds) calls Progress.call first ?_).2
  rintro p ⟨continues, recorded⟩ c _
  refine ⟨(continues.reading c.disk).leads (leads_call p c), ?_⟩
  rw [state_call]
  have found : Recorded platform (p.state.reading c.disk) := { recorded with }
  exact recorded_run found continues.platform names c.phase

namespace Sample

/-- The files are gone when the assets are asked for. -/
def interrupted : List Call := calls ++ [⟨.environments, disk⟩, ⟨.extraAssets, ⟨[], []⟩⟩]

end Sample

/-- The last phase fails, and what the others have recorded stays in step. -/
theorem recorded_progress_interrupted :
    (((Sample.start 0).progress Sample.interrupted).done =
        [.resources, .modules, .resources, .environments] ∧
      ((Sample.start 0).progress Sample.interrupted).state.manifest.resourceTypes = ["bucket"]) ∧
    Recorded Sample.platform ((Sample.start 0).progress Sample.interrupted).state := by
  refine ⟨?_, recorded_progress Sample.wellKeyed_raw (Sample.ofConfig_raw 0) Sample.interrupted⟩
  decide +kernel

end Build

end Groundwork
