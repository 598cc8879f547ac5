import Groundwork.Proofs.AssetRecord
import Groundwork.Proofs.Overlay

set_option autoImplicit false

/- What a call for assets leaves behind if it succeeds. The assets of the description are there in
its order, with the follow-up document behind all of them, and the manifest lists the same assets.
It lists them before the document is rendered, so the document is rendered over the manifest that
the call leaves behind. -/
namespace Groundwork

namespace Build

/-- What the description says of the follow-up document, if anything. -/
def documentFields (p : Platform) : Fields :=
  (p.extraAssets.get? Asset.actionRequiredName).getD []

theorem run_extraAssets_eq_ok_iff {b c : Build} :
    b.run .extraAssets = (.ok (), c) ↔ ∃ as,
      List.Forall₂ (Asset.Made b.context.catalog b.recordAssets.manifest)
        (assetEntries b.platform) as ∧
      c = { b.recordAssets with assets := as } := by
  rw [run_extraAssets_eq, settle_eq_ok_iff, withAssets_eq_ok_iff]
  simp only [Asset.buildAll_eq_ok_iff, eq_comm (b := c)]
  rfl

/-- The document is the last asset, rendered over this manifest and the fields of its own. -/
def Documented (catalog : Catalog) (m : Manifest) (fields : Fields) (as : List Asset) : Prop :=
  ∃ copies source rendered, as = copies ++ [.actionRequired rendered] ∧
    catalog.assetFile Asset.actionRequiredName Asset.actionRequiredFile = .ok source ∧
    catalog.render Asset.actionRequiredName source (m.context fields) = .ok rendered

theorem documented_of_made {catalog : Catalog} {m : Manifest} {p : Platform} {as : List Asset}
    (made : List.Forall₂ (Asset.Made catalog m) (assetEntries p) as) :
    Documented catalog m (documentFields p) as := by
  have entries : assetEntries p = p.extraAssets.erase Asset.actionRequiredName ++
      [(Asset.actionRequiredName, documentFields p)] := rfl
  rw [entries] at made
  obtain ⟨copies, last, -, final, rfl⟩ := forall₂_append_left made
  cases final with
  | cons written others =>
      cases others
      cases written with
      | document found _ _ filled => exact ⟨copies, _, _, rfl, found, filled⟩
      | copy known _ => exact absurd known (by decide)

/-- The assets after a call, and what the manifest says of them. -/
structure FollowsUp (p : Platform) (c : Build) : Prop where
  names : c.assets.map (·.name) =
    (Dict.keys p.extraAssets).filter (· ≠ Asset.actionRequiredName) ++ [Asset.actionRequiredName]
  recorded : Dict.keys c.manifest.extraAssets = c.assets.map (·.name)
  listed : ∀ name, name ∈ c.manifest.extraAssetNames ↔ name ∈ c.assets.map (·.name)
  ascending : c.manifest.extraAssetNames.Pairwise fun s t => Text.bytes s < Text.bytes t
  document : Documented c.context.catalog c.manifest (documentFields p) c.assets
  /-- If neither repeats a key, the manifest's entries hide the document's own fields. -/
  overlaid : Dict.Distinct c.manifest.entries → Dict.Distinct (documentFields p) → ∀ key,
    (c.manifest.context (documentFields p)).get? key =
      ((Dict.get? c.manifest.entries key).or ((documentFields p).get? key)).map Value.sortKeys

theorem followsUp_of_made {b : Build} {as : List Asset}
    (made : List.Forall₂ (Asset.Made b.context.catalog b.recordAssets.manifest)
      (assetEntries b.platform) as) :
    FollowsUp b.platform { b.recordAssets with assets := as } := by
  have names : as.map (·.name) = Dict.keys (assetEntries b.platform) :=
    Asset.names_buildAll (Asset.buildAll_eq_ok_iff.mpr made)
  constructor
  case names => rw [← keys_assetEntries, ← names]
  case recorded => exact names.symm
  case listed =>
    intro name
    rw [names]
    exact Manifest.mem_sortedNames
  case ascending =>
    have ascending := Manifest.ascending_sortedNames (Dict.keys (assetEntries b.platform))
    exact ascending.imp fun less => (Text.lt_iff_bytes_lt _ _).mp less
  case document => exact documented_of_made made
  case overlaid => exact Manifest.get?_context

/-- Wherever an unknown asset is listed, none is built; they are recorded all the same. -/
theorem run_extraAssets_of_unknown {b : Build} {name : String}
    (listed : name ∈ Dict.keys b.platform.extraAssets)
    (unknown : name ∉ Asset.actionRequiredName :: Asset.staticNames) :
    ∃ e, b.run .extraAssets = (.error e, b.recordAssets) := by
  have other : name ≠ Asset.actionRequiredName := by
    intro same
    exact unknown (same ▸ List.mem_cons_self)
  have entry : name ∈ Dict.keys (assetEntries b.platform) := by
    rw [keys_assetEntries]
    exact List.mem_append_left _ (List.mem_filter.mpr ⟨listed, by simpa using other⟩)
  cases outcome : b.recordAssets.withAssets with
  | error e =>
      rw [run_extraAssets_eq, outcome]
      exact ⟨e, rfl⟩
  | ok c =>
      obtain ⟨as, built, -⟩ := withAssets_eq_ok_iff.mp outcome
      exact absurd ((Asset.buildAll_ok built).2 name entry) unknown

/-- A call for assets succeeds exactly if each asset of the description can be made, so it fails if one of
them is unknown. If it succeeds, the document comes behind all other assets and is rendered over the
manifest that there is in the end, which lists the assets in two orders. -/
theorem followsUp_run (b : Build) :
    (∀ c, b.run .extraAssets = (.ok (), c) ↔ ∃ as,
      List.Forall₂ (Asset.Made b.context.catalog b.recordAssets.manifest)
        (assetEntries b.platform) as ∧
      c = { b.recordAssets with assets := as }) ∧
    (∀ c, b.run .extraAssets = (.ok (), c) → FollowsUp b.platform c) ∧
    (∀ name ∈ Dict.keys b.platform.extraAssets,
      name ∉ Asset.actionRequiredName :: Asset.staticNames →
      ∃ e, b.run .extraAssets = (.error e, b.recordAssets)) := by
  constructor
  · exact fun c => run_extraAssets_eq_ok_iff
  constructor
  · intro c success
    obtain ⟨as, made, rfl⟩ := run_extraAssets_eq_ok_iff.mp success
    exact followsUp_of_made made
  · exact fun name listed unknown => run_extraAssets_of_unknown listed unknown

namespace Sample

/-- A document over one of its own fields and one of the manifest's. -/
def documentSource : String := "\x7b\x7b owner \x7d\x7d, \x7b\x7b generated_at \x7d\x7d"

def stockedDisk : Disk where
  workingDirectory := []
  entries :=
    [(["root"], .directory), (["root", "extra_assets"], .directory),
      (["root", "extra_assets", "airflow_local"], .directory),
      (["root", "extra_assets", "action_required"], .directory),
      (["root", "extra_assets", "action_required", "action_required.md"],
        .file documentSource.toUTF8)]

/-- The document is described first, and claims to know when it was generated. -/
def owned : Build :=
  ofPlatform ⟨[], [], [], [],
    [("action_required", [("generated_at", .string "never"), ("owner", .string "data")]),
      ("airflow_local", [])], []⟩
    "out" ⟨⟨stockedDisk, "root", .own⟩, .sequential, 0, ⟨"terraform"⟩⟩ "now"

end Sample

/-- The document moves behind the directory, and shows when it was generated. An unknown asset keeps
everything from being built. -/
theorem followsUp_run_owned :
    (∃ c, Sample.owned.run .extraAssets = (.ok (), c) ∧ FollowsUp Sample.owned.platform c ∧
      c.assets.map (·.name) = ["airflow_local", "action_required"] ∧
      (c.manifest.context (documentFields Sample.owned.platform)).get? "generated_at" =
        some (.string "now")) ∧
    ∃ e, Sample.unknown.run .extraAssets = (.error e, Sample.unknown.recordAssets) := by
  have success : (Sample.owned.run .extraAssets).1 = .ok () := by decide +kernel
  have fails := (followsUp_run Sample.unknown).2.2 "jupyter_local" (by decide) (by decide)
  refine ⟨?_, fails⟩
  rcases outcome : Sample.owned.run .extraAssets with ⟨answer, c⟩
  rw [outcome] at success
  have answered : answer = .ok () := success
  rw [answered] at outcome ⊢
  obtain ⟨as, -, final⟩ := ((followsUp_run Sample.owned).1 c).mp outcome
  have follows := (followsUp_run Sample.owned).2.1 c outcome
  have names : c.assets.map (·.name) = ["airflow_local", "action_required"] := by
    rw [follows.names]
    decide
  have shown : (c.manifest.context (documentFields Sample.owned.platform)).get? "generated_at" =
      some (.string "now") := by
    have manifest : Dict.Distinct c.manifest.entries := by
      rw [final]
      show Manifest.ownNames.Nodup
      decide
    have fields : Dict.Distinct (documentFields Sample.owned.platform) := by
      show ["generated_at", "owner"].Nodup
      decide
    rw [follows.overlaid manifest fields, final]
    rfl
  exact ⟨c, rfl, follows, names, shown⟩

end Build

end Groundwork
