import Groundwork.Proofs.InPlace
import Groundwork.Proofs.Record

set_option autoImplicit false

/- The record of extra assets. The assets of the description are recorded before they are built, so
a call that fails leaves their record behind. After any history the record names the assets that
were built, unless every call for assets has failed. -/
namespace Groundwork

namespace Build

/-- The names that are recorded of the assets of a description. -/
def assetNames (p : Platform) : List String := Manifest.sortedNames (Dict.keys (assetEntries p))

/-- The follow-up document is always among them. -/
theorem assetNames_ne_nil (p : Platform) : assetNames p ≠ [] := by
  have listed : Asset.actionRequiredName ∈ assetNames p := by
    rw [assetNames, Manifest.mem_sortedNames, keys_assetEntries]
    exact List.mem_append_right _ (List.mem_singleton_self _)
  exact List.ne_nil_of_mem listed

/-- Neither the assets nor the names that are recorded of them differ. -/
structure KeepsAssets (b c : Build) : Prop where
  built : c.assets = b.assets
  recorded : c.manifest.extraAssetNames = b.manifest.extraAssetNames

theorem keepsAssets_run {b : Build} {phase : Phase} (other : phase ≠ .extraAssets) :
    KeepsAssets b (b.run phase).2 := by
  cases phase with
  | modules =>
      refine settle_state ⟨rfl, rfl⟩ fun c success => ?_
      obtain ⟨rs, -, rfl⟩ := withModules_eq_ok_iff.mp success
      exact ⟨rfl, rfl⟩
  | resources =>
      refine settle_state ⟨rfl, rfl⟩ fun c success => ?_
      obtain ⟨rs, -, rfl⟩ := withResources_eq_ok_iff.mp success
      exact ⟨rfl, rfl⟩
  | environments =>
      refine settle_state ⟨rfl, rfl⟩ fun c success => ?_
      obtain ⟨es, -, rfl⟩ := withEnvironments_eq_ok_iff.mp success
      exact ⟨rfl, rfl⟩
  | extraAssets => exact absurd rfl other

theorem run_extraAssets_eq (b : Build) :
    b.run .extraAssets = b.recordAssets.settle b.recordAssets.withAssets := rfl

/-- A call for assets records their names; it builds the assets or leaves those that there were. -/
theorem run_extraAssets (b : Build) :
    (b.run .extraAssets).2.manifest.extraAssetNames = assetNames b.platform ∧
      ((b.run .extraAssets).1 = .ok () ∧
          (b.run .extraAssets).2.assets.map (·.name) = Dict.keys (assetEntries b.platform) ∨
        (b.run .extraAssets).1 ≠ .ok () ∧ (b.run .extraAssets).2.assets = b.assets) := by
  rw [run_extraAssets_eq]
  rcases outcome : b.recordAssets.withAssets with e | c
  · exact ⟨rfl, .inr ⟨nofun, rfl⟩⟩
  · obtain ⟨as, built, rfl⟩ := withAssets_eq_ok_iff.mp outcome
    exact ⟨rfl, .inl ⟨rfl, Asset.names_buildAll built⟩⟩

/-- What is built and what is recorded of the assets, told by the calls and by those that succeeded. -/
structure AssetHistory (p : Platform) (calls : List Call) (reached : Progress) : Prop where
  built : reached.state.assets.map (·.name) =
    if .extraAssets ∈ reached.done then Dict.keys (assetEntries p) else []
  recorded : reached.state.manifest.extraAssetNames =
    if .extraAssets ∈ calls.map (·.phase) then assetNames p else []
  asked : .extraAssets ∈ reached.done → .extraAssets ∈ calls.map (·.phase)

theorem mem_done_call {p : Progress} {c : Call} {phase : Phase} :
    phase ∈ (p.call c).done ↔
      phase ∈ p.done ∨
        phase = c.phase ∧ ((p.state.reading c.disk).run c.phase).1 = .ok () := by
  unfold Progress.call
  rcases (p.state.reading c.disk).run c.phase with ⟨e | ⟨⟩, b⟩
  · simp
  · simp

theorem AssetHistory.call {p : Platform} {calls : List Call} {reached : Progress}
    (history : AssetHistory p calls reached) (same : reached.state.platform = p) (c : Call) :
    AssetHistory p (calls ++ [c]) (reached.call c) := by
  obtain ⟨phase, disk⟩ := c
  let b := reached.state.reading disk
  have platform : b.platform = p := same
  by_cases assets : phase = .extraAssets
  · subst assets
    obtain ⟨recorded, outcome⟩ := run_extraAssets b
    have asked : Phase.extraAssets ∈ (calls ++ [Call.mk .extraAssets disk]).map (·.phase) := by simp
    refine ⟨?_, ?_, fun _ => asked⟩
    · rw [state_call]
      rcases outcome with ⟨success, built⟩ | ⟨failure, kept⟩
      · rw [if_pos (mem_done_call.mpr (.inr ⟨rfl, success⟩)), ← platform]
        exact built
      · have before : .extraAssets ∈ (reached.call ⟨.extraAssets, disk⟩).done ↔
            .extraAssets ∈ reached.done :=
          mem_done_call.trans (or_iff_left fun ⟨_, success⟩ => failure success)
        simp only [before, ← history.built]
        exact congrArg _ kept
    · rw [state_call, if_pos asked, ← platform]
      exact recorded
  · have kept := keepsAssets_run (b := b) assets
    have before : .extraAssets ∈ (reached.call ⟨phase, disk⟩).done ↔
        .extraAssets ∈ reached.done :=
      mem_done_call.trans (or_iff_left fun ⟨same, _⟩ => assets same.symm)
    have asked : Phase.extraAssets ∈ (calls ++ [Call.mk phase disk]).map (·.phase) ↔
        .extraAssets ∈ calls.map (·.phase) := by
      simp [Ne.symm assets]
    refine ⟨?_, ?_, fun done => asked.mpr (history.asked (before.mp done))⟩
    · rw [state_call]
      simp only [before, ← history.built]
      exact congrArg _ kept.built
    · rw [state_call]
      simp only [asked, ← history.recorded]
      exact kept.recorded

/-- More calls continue the history of those before them. -/
theorem AssetHistory.foldl {p : Platform} {earlier : List Call} {reached : Progress}
    (history : AssetHistory p earlier reached) (same : reached.state.platform = p)
    (calls : List Call) : AssetHistory p (earlier ++ calls) (calls.foldl Progress.call reached) := by
  induction calls generalizing earlier reached with
  | nil =>
      rw [List.append_nil]
      exact history
  | cons c rest ih =>
      have next : (reached.call c).state.platform = p := by
        rw [state_call]
        exact (keeps_run _ c.phase).platform.trans same
      rw [List.append_cons]
      exact ih (history.call same c) next

/-- A call for assets that fails changes nothing but the record of the assets, which then names those of
the description. So after any history of phase calls the recorded names are those of the assets that were
built, in byte order, exactly if assets were never asked for or have been built once. -/
theorem assetNames_progress {raw : Fields} {destination : String} {context : Context}
    {generatedAt : String} {start : Build}
    (started : ofConfig raw destination context generatedAt = .ok start) (calls : List Call) :
    (∀ (b c : Build) (e : Failure), b.run .extraAssets = (.error e, c) ↔
      b.Fails e .extraAssets ∧
        c = { b with manifest := { b.manifest with
          extraAssets := assetEntries b.platform
          extraAssetNames := assetNames b.platform } }) ∧
    ((start.progress calls).state.manifest.extraAssetNames =
        Manifest.sortedNames ((start.progress calls).state.assets.map (·.name)) ↔
      (.extraAssets ∈ calls.map (·.phase) → .extraAssets ∈ (start.progress calls).done)) := by
  refine ⟨fun b c e => ?_, ?_⟩
  · rw [← run_inPlace, inPlace_eq_error_iff]
    rfl
  · obtain ⟨platform, -, rfl⟩ := ofConfig_eq_ok_iff.mp started
    let start := ofPlatform platform destination context generatedAt
    have fresh : AssetHistory platform [] ⟨[], start⟩ := ⟨rfl, rfl, nofun⟩
    have history : AssetHistory platform calls (start.progress calls) := fresh.foldl rfl calls
    rw [history.recorded, history.built]
    by_cases done : Phase.extraAssets ∈ (start.progress calls).done
    · rw [if_pos (history.asked done), if_pos done]
      exact ⟨fun _ _ => done, fun _ => rfl⟩
    · by_cases asked : Phase.extraAssets ∈ calls.map (·.phase)
      · rw [if_pos asked, if_neg done]
        exact ⟨fun none => absurd none (assetNames_ne_nil platform),
          fun builds => absurd (builds asked) done⟩
      · rw [if_neg asked, if_neg done]
        exact ⟨fun _ called => absurd called asked, fun _ => rfl⟩

namespace Sample

/-- The files are gone, then they are back. -/
def retried : List Call := [⟨.extraAssets, ⟨[], []⟩⟩, ⟨.extraAssets, disk⟩]

/-- An asset that nobody knows. -/
def rawUnknown : Fields := [("extra_assets", .map [("jupyter_local", .null)])]

def unknown : Build :=
  ofPlatform ⟨[], [], [], [], [("jupyter_local", [])], []⟩ "out" (context 0) "now"

end Sample

/-- After the first call the record is ahead of the assets; the second one builds them. -/
theorem assetNames_progress_retried :
    (((Sample.start 0).progress Sample.retried).done = [.extraAssets] ∧
      ((Sample.start 0).progress (Sample.retried.take 1)).done = []) ∧
    ((Sample.start 0).progress Sample.retried).state.manifest.extraAssetNames =
      Manifest.sortedNames
        (((Sample.start 0).progress Sample.retried).state.assets.map (·.name)) ∧
    ((Sample.start 0).progress (Sample.retried.take 1)).state.manifest.extraAssetNames ≠
      Manifest.sortedNames
        (((Sample.start 0).progress (Sample.retried.take 1)).state.assets.map (·.name)) := by
  have built : ((Sample.start 0).progress Sample.retried).done = [.extraAssets] := by
    decide +kernel
  have failed : ((Sample.start 0).progress (Sample.retried.take 1)).done = [] := by
    decide +kernel
  refine ⟨⟨built, failed⟩, ?_, fun same => ?_⟩
  · refine (assetNames_progress (Sample.ofConfig_raw 0) Sample.retried).2.mpr fun _ => ?_
    rw [built]
    exact List.mem_singleton_self _
  · have asked : Phase.extraAssets ∈ (Sample.retried.take 1).map (·.phase) := by decide
    have done := (assetNames_progress (Sample.ofConfig_raw 0) _).2.mp same asked
    rw [failed] at done
    cases done

/-- The call fails, and the manifest names an asset that there is not. -/
theorem recorded_unknown_asset :
    ofConfig Sample.rawUnknown "out" (Sample.context 0) "now" = .ok Sample.unknown ∧
    ∃ e c, Sample.unknown.run .extraAssets = (.error e, c) ∧ c ≠ Sample.unknown ∧
      c.assets.map (·.name) = [] ∧
      c.manifest.extraAssetNames = ["action_required", "jupyter_local"] := by
  have failed : (Sample.unknown.run .extraAssets).1 = .error (.configuration
      (.extraAsset "jupyter_local")
      (.unknownAsset ["action_required", "airflow_local", "mageai_local"])) := by
    decide +kernel
  have names : (Sample.unknown.run .extraAssets).2.manifest.extraAssetNames =
      ["action_required", "jupyter_local"] := by
    decide +kernel
  refine ⟨Sample.ofConfig_of_ofFields rfl "out" 0, _, _, Prod.ext failed rfl, ?_, rfl, names⟩
  intro same
  have before : Sample.unknown.manifest.extraAssetNames = ["action_required", "jupyter_local"] :=
    (congrArg (·.manifest.extraAssetNames) same).symm.trans names
  cases before

end Build

end Groundwork
