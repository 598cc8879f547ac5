import Groundwork.Asset
import Groundwork.Proofs.Acceptance
import Groundwork.Proofs.Variable

set_option autoImplicit false

/- What an extra asset is made of. An entry is built exactly if its sources are found and, for the
follow-up document, its text can be rendered; several entries are built exactly if each of them
is. -/
namespace Groundwork

/-- There is a context exactly if both of its parts can be turned into JSON. -/
theorem Manifest.renderContext_eq_ok_iff {catalog : Catalog} {m : Manifest} {base context : Fields} :
    m.renderContext catalog base = .ok context ↔
      catalog.checkJson base = .ok () ∧ catalog.checkJson m.entries = .ok () ∧
        context = m.context base := by
  constructor
  · intro success
    obtain ⟨⟨⟩, first, success⟩ := Except.bind_eq_ok_iff.mp success
    obtain ⟨⟨⟩, second, rfl⟩ := Except.bind_pure_eq_ok_iff.mp success
    exact ⟨first, second, rfl⟩
  · rintro ⟨first, second, rfl⟩
    exact Except.bind_eq_ok_iff.mpr ⟨(), first, Except.bind_pure_eq_ok_iff.mpr ⟨(), second, rfl⟩⟩

namespace Asset

/-- The asset that an entry is built into, over a manifest and the sources of a template root. -/
inductive Made (catalog : Catalog) (m : Manifest) : String × Fields → Asset → Prop
  | document {config : Fields} {source rendered : String}
      (found : catalog.assetFile actionRequiredName actionRequiredFile = .ok source)
      (base : catalog.checkJson config = .ok ()) (own : catalog.checkJson m.entries = .ok ())
      (filled : catalog.render actionRequiredName source (m.context config) = .ok rendered) :
      Made catalog m (actionRequiredName, config) (.actionRequired rendered)
  | copy {name source : String} {config : Fields} (known : name ∈ staticNames)
      (found : catalog.assetDirectory name = .ok source) :
      Made catalog m (name, config) (.staticCopy name source)

variable {catalog : Catalog} {m : Manifest}

theorem build_eq_ok_iff {name : String} {config : Fields} {a : Asset} :
    build catalog m name config = .ok a ↔ Made catalog m (name, config) a := by
  constructor
  · intro success
    unfold build at success
    split at success
    · rename_i required
      obtain ⟨source, found, success⟩ := Except.bind_eq_ok_iff.mp success
      obtain ⟨context, shown, success⟩ := Except.bind_eq_ok_iff.mp success
      obtain ⟨base, own, rfl⟩ := Manifest.renderContext_eq_ok_iff.mp shown
      obtain ⟨rendered, filled, rfl⟩ := Except.bind_pure_eq_ok_iff.mp success
      rw [required]
      exact .document (ofTemplates_eq_ok_iff.mp found) base own (ofTemplates_eq_ok_iff.mp filled)
    · split at success
      · rename_i known
        obtain ⟨source, found, rfl⟩ := Except.bind_pure_eq_ok_iff.mp success
        exact .copy (List.contains_iff_mem.mp known) (ofTemplates_eq_ok_iff.mp found)
      · cases success
  · intro made
    unfold build
    cases made with
    | document found base own filled =>
        have shown := Manifest.renderContext_eq_ok_iff.mpr ⟨base, own, rfl⟩
        rw [if_pos rfl]
        refine Except.bind_eq_ok_iff.mpr ⟨_, ofTemplates_eq_ok_iff.mpr found, ?_⟩
        refine Except.bind_eq_ok_iff.mpr ⟨_, shown, ?_⟩
        exact Except.bind_pure_eq_ok_iff.mpr ⟨_, ofTemplates_eq_ok_iff.mpr filled, rfl⟩
    | copy known found =>
        have other : name ≠ actionRequiredName := by
          rintro rfl
          exact absurd known (by decide)
        rw [if_neg other, if_pos (List.contains_iff_mem.mpr known)]
        exact Except.bind_pure_eq_ok_iff.mpr ⟨_, ofTemplates_eq_ok_iff.mpr found, rfl⟩

theorem buildAll_eq_ok_iff {entries : Dict Fields} {as : List Asset} :
    buildAll catalog m entries = .ok as ↔ List.Forall₂ (Made catalog m) entries as := by
  induction entries generalizing as with
  | nil => exact read_nil_iff
  | cons entry rest ih => exact read_cons_iff (fun _ => build_eq_ok_iff) fun _ => ih

section Made

variable {entry : String × Fields} {a : Asset}

theorem Made.name (made : Made catalog m entry a) : a.name = entry.1 := by
  cases made <;> rfl

theorem Made.known (made : Made catalog m entry a) : entry.1 ∈ actionRequiredName :: staticNames := by
  cases made with
  | document => exact List.mem_cons_self
  | copy known _ => exact List.mem_cons_of_mem _ known

end Made

theorem names_buildAll {entries : Dict Fields} {as : List Asset}
    (success : buildAll catalog m entries = .ok as) : as.map (·.name) = Dict.keys entries :=
  map_eq_of_forall₂ (buildAll_eq_ok_iff.mp success) fun _ _ made => made.name

end Asset

end Groundwork
