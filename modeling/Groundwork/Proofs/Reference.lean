import Groundwork.Proofs.Module
import Groundwork.Proofs.Resource
import Mathlib.Control.Monad.Basic

set_option autoImplicit false

/- References in rendered code. A field that is a variable is referred to by a name that its
resource declares, and the module it is placed in with it. An item of a list is referred to in the
same way, but nothing declares it: its name is declared only where a field of its own happens to
have it. -/
namespace Groundwork

namespace Placeholder

/-- Filling a text takes a literal, or none, for each of its placeholders. -/
theorem ofField?_of_fill {text filled : String} {fields : Fields}
    (success : fill text fields = .ok filled) {field : String} (member : field ∈ fieldsOf text) :
    ∃ literal, Literal.ofField? field (fields.get? field) = .ok literal := by
  obtain ⟨parts, filledParts, -⟩ := Except.bind_eq_ok_iff.mp success
  obtain ⟨part, inText, rfl⟩ := List.mem_map.mp member
  obtain ⟨chars, -, written⟩ := Except.exists_of_mapM_eq_ok filledParts inText
  unfold fillPart at written
  split at written
  · cases written
  · rename_i literal found
    exact ⟨_, found⟩
  · rename_i found
    exact ⟨_, found⟩

end Placeholder

namespace Literal

/-- The text that stands for a variable. -/
def referTo (name : String) : String := "var." ++ name

theorem ofField?_variable (field : String) (config : Fields) :
    ofField? field (some (.variable config)) =
      .ok (some (referTo (referenceName field config))) := rfl

/-- A list is written as its items' literals, in brackets. -/
theorem ofField?_list {field : String} {items : List Value} {literal : Option String}
    (found : ofField? field (some (.list items)) = .ok literal) :
    ∃ literals, items.mapM (ofScalar field) = .ok literals ∧
      literal = some ("[" ++ ", ".intercalate literals ++ "]") := by
  obtain ⟨literals, each, same⟩ := Except.bind_pure_eq_ok_iff.mp found
  exact ⟨literals, each, same.symm⟩

theorem referTo_mem {field : String} {items : List Value} {literals : List String}
    (each : items.mapM (ofScalar field) = .ok literals) {config : Fields}
    (item : .variable config ∈ items) : referTo (referenceName field config) ∈ literals := by
  obtain ⟨literal, member, written⟩ := Except.exists_of_mapM_eq_ok each item
  have same : referTo (referenceName field config) = literal := Except.ok.inj written
  rw [same]
  exact member

end Literal

/-- A variable of this name is among the module's, and its declaration is written out. -/
def Module.Declares (m : Module) (name : String) : Prop :=
  ∃ v ∈ m.vars, v.name = name ∧
    ∃ before behind, m.variableCode = before ++ (v.declaration ++ "\n\n") ++ behind

namespace Resource

/-- What a resource's code was made of: a text with placeholders, and the fields that fill them. -/
structure FilledFrom (catalog : Catalog) (type : String) (config : Fields) (pool : NamePool)
    (r : Resource) (text : String) (fields : Fields) : Prop where
  completed : ∃ merged, catalog.withDefaults type config = .ok merged ∧
    fields = located (nameIn type merged pool).1 r.moduleName
  rendered : source catalog type r.usesJinja fields = .ok text
  code : Placeholder.fill text fields = .ok r.code

def declaredNames (r : Resource) : List String := r.vars.map (·.name)

theorem exists_filledFrom {catalog : Catalog} {type : String} {config : Fields}
    {pool after : NamePool} {r : Resource}
    (success : build catalog type config pool = (.ok r, after)) :
    ∃ text fields, FilledFrom catalog type config pool r text fields ∧
      Variable.extract catalog fields = .ok r.vars := by
  obtain ⟨merged, completed, -, assembles⟩ := build_ok success
  obtain ⟨text, found, filled⟩ := render_ok assembles.code
  exact ⟨text, _, ⟨⟨merged, completed, rfl⟩, found, filled⟩, assembles.vars⟩

/-- An assembled module declares what its resources declare, and every resource is in one. -/
theorem declares_assemble {b : Build} {r : Resource} (member : r ∈ b.resources) :
    ∃ m ∈ b.assemble.modules, m.name = r.moduleName ∧ r ∈ m.resources ∧
      ∀ name, m.Declares name ↔ ∃ o ∈ m.resources, name ∈ o.declaredNames := by
  obtain ⟨m, placed, named, inside⟩ := Build.holds_assembled b.platform member
  refine ⟨m, placed, named, inside, ?_⟩
  intro name
  have covers := Build.covers_assembled b.platform b.resources m placed name
  constructor
  · rintro ⟨v, present, same, -⟩
    exact covers.mp (List.mem_map.mpr ⟨v, present, same⟩)
  · intro declared
    obtain ⟨v, present, same⟩ := List.mem_map.mp (covers.mpr declared)
    exact ⟨v, present, same, Build.exists_declaration_assembled placed present⟩

/-- Every placeholder of a built resource whose field is a variable is replaced by a reference to a
variable that the resource declares. An item of a list is referred to all the same, but its name is
declared only if a field of its own has it. The resource's module declares what its resources do. -/
theorem references_declared {catalog : Catalog} {type : String} {config : Fields}
    {pool after : NamePool} {r : Resource} (nameless : catalog.NamesNoVariable)
    (success : build catalog type config pool = (.ok r, after)) :
    (∃ text fields, FilledFrom catalog type config pool r text fields ∧
      ∀ field ∈ Placeholder.fieldsOf text,
        (∀ inner, fields.get? field = some (.variable inner) →
          Literal.ofField? field (fields.get? field) =
            .ok (some (Literal.referTo (referenceName field inner))) ∧
          referenceName field inner ∈ r.declaredNames) ∧
        (∀ items inner, fields.get? field = some (.list items) → .variable inner ∈ items →
          (∃ literals, Literal.ofField? field (fields.get? field) =
              .ok (some ("[" ++ ", ".intercalate literals ++ "]")) ∧
            Literal.referTo (referenceName field inner) ∈ literals) ∧
          (referenceName field inner ∈ r.declaredNames ↔
            Variable.Marked fields (referenceName field inner)))) ∧
    ∀ b : Build, r ∈ b.resources →
      ∃ m ∈ b.assemble.modules, m.name = r.moduleName ∧ r ∈ m.resources ∧
        ∀ name, m.Declares name ↔ ∃ o ∈ m.resources, name ∈ o.declaredNames := by
  obtain ⟨text, fields, filled, extracted⟩ := exists_filledFrom success
  have declared := fun name => Variable.mem_names_extract_iff nameless extracted name
  refine ⟨⟨text, fields, filled, ?_⟩, fun b => declares_assemble⟩
  intro field placeholder
  constructor
  · intro inner found
    refine ⟨?_, (declared _).mpr ⟨field, inner, Dict.mem_of_get? found, rfl⟩⟩
    rw [found, Literal.ofField?_variable]
  · intro items inner found item
    refine ⟨?_, declared _⟩
    obtain ⟨literal, written⟩ := Placeholder.ofField?_of_fill filled.code placeholder
    rw [found] at written
    obtain ⟨literals, each, rfl⟩ := Literal.ofField?_list written
    rw [found]
    exact ⟨literals, written, Literal.referTo_mem each item⟩

namespace Zones

/-- One type refers to a list of zones, the other one to a home zone too. -/
def catalog : Catalog where
  disk :=
    { workingDirectory := []
      entries :=
        [(["root"], .directory), (["root", "infra_templates"], .directory),
          (["root", "infra_templates", "listed.tf"], .file "zones = <zones>\n".toUTF8),
          (["root", "infra_templates", "housed.tf"],
            .file "zones = <zones>\nhome = <home>\n".toUTF8),
          (["root", "infra_templates", "_config_variable.tf"],
            .file "variable <name>\n".toUTF8)] }
  root := "root"
  libraries := .own

def zone : Value :=
  .variable [("is_variable", .bool true), ("type", .string "string"), ("name", .string "zone")]

def listed : Fields := [("resource_name", .string "r"), ("zones", .list [zone])]

def housed : Fields := listed ++ [("home", zone)]

def pool : NamePool := .empty .sequential 0

theorem namesNoVariable : catalog.NamesNoVariable := by
  intro defaults found
  have missing : catalog.defaults Variable.template = .ok [] :=
    Catalog.defaults_of_missing (by decide) (by decide +kernel)
  cases Except.ok.inj (missing.symm.trans found)
  rfl

end Zones

/-- The code refers to a variable that nothing declares. -/
theorem undeclared_reference : Zones.catalog.NamesNoVariable ∧
    ∃ r after, build Zones.catalog "listed" Zones.listed Zones.pool = (.ok r, after) ∧
      r.code = "zones = [var.zone]\n" ∧ r.declaredNames = [] := by
  have outcome : (build Zones.catalog "listed" Zones.listed Zones.pool).1.map
      (fun r => (r.code, r.declaredNames)) = .ok ("zones = [var.zone]\n", []) := by
    decide +kernel
  obtain ⟨r, built, same⟩ := Except.map_eq_ok_iff.mp outcome
  exact ⟨Zones.namesNoVariable, r, _, Prod.ext built rfl, congrArg Prod.fst same,
    congrArg Prod.snd same⟩

/-- A field of its own with the same name declares what the list refers to. -/
theorem references_declared_housed :
    ∃ r after, build Zones.catalog "housed" Zones.housed Zones.pool = (.ok r, after) ∧
      r.code = "zones = [var.zone]\nhome = var.zone\n" ∧ r.declaredNames = ["zone"] ∧
      ∀ b : Build, r ∈ b.resources → ∃ m ∈ b.assemble.modules, m.name = r.moduleName ∧
        r ∈ m.resources ∧ ∀ name, m.Declares name ↔ ∃ o ∈ m.resources, name ∈ o.declaredNames := by
  have outcome : (build Zones.catalog "housed" Zones.housed Zones.pool).1.map
      (fun r => (r.code, r.declaredNames)) =
        .ok ("zones = [var.zone]\nhome = var.zone\n", ["zone"]) := by
    decide +kernel
  obtain ⟨r, built, same⟩ := Except.map_eq_ok_iff.mp outcome
  have success : build Zones.catalog "housed" Zones.housed Zones.pool =
      (.ok r, (build Zones.catalog "housed" Zones.housed Zones.pool).2) := Prod.ext built rfl
  exact ⟨r, _, success, congrArg Prod.fst same, congrArg Prod.snd same,
    (references_declared Zones.namesNoVariable success).2⟩

end Resource

end Groundwork
