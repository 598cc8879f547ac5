import Groundwork.Proofs.Legible
import Groundwork.Proofs.Lookup
import Groundwork.Proofs.Rebuilding
import Groundwork.Proofs.StarterCode
import Groundwork.Proofs.Unresolved

set_option autoImplicit false

/- Declared names and the names in references. In a project that has the starter's templates, a
reference is to the name of a variable as it stands, while the label of the variable's declaration
is the literal of that name. The two agree unless the name starts with an underscore, for then the
literal is no text in quotes but the rest of the name, and the label is another name than the one
referred to. -/
namespace Groundwork

namespace Placeholder

theorem isName_of_chars {name : String} {c : Char} {rest : List Char}
    (whole : name.toList = c :: rest) (starts : isNameStart c = true)
    (chars : rest.all isNameChar = true) : IsName name :=
  ⟨c, rest, whole, (isNameStart_iff c).mp starts,
    fun d member => (isNameChar_iff d).mp (List.all_eq_true.mp chars d member)⟩

theorem split_append_written {front : List Char} {name : String} (noOpen : '<' ∉ front)
    (named : IsName name) (rest : List Char) :
    split (front ++ (written name ++ rest)) =
      ⟨front, (name, (split rest).lead) :: (split rest).parts⟩ := by
  have behind := divides_split rest
  refine (eq_split_of_divides ⟨?_, ?_, plain_of_noOpen noOpen, ?_⟩).symm
  · simp only [Split.fillWith, List.flatMap_cons, List.append_assoc]
    exact congrArg (fun cs => front ++ (written name ++ cs)) behind.whole
  · exact List.forall_mem_cons.mpr ⟨named, behind.names⟩
  · exact List.forall_mem_cons.mpr ⟨behind.lead, behind.parts⟩

/-- What stands in front of a placeholder is kept, and so is what stands behind it once it is filled too. -/
theorem fillWith_append_written {front : List Char} {name : String} (noOpen : '<' ∉ front)
    (named : IsName name) (rest : List Char) (r : String → List Char) :
    (split (front ++ (written name ++ rest))).fillWith r =
      front ++ (r name ++ (split rest).fillWith r) := by
  rw [split_append_written noOpen named]
  simp only [Split.fillWith, List.flatMap_cons, List.append_assoc]

end Placeholder

namespace Libraries

theorem render_own_eq_ok_iff {fields : Fields} {text rendered : String} :
    own.render fields text = .ok rendered ↔ Jinja.render fields text = .ok rendered :=
  Except.mapError_eq_ok_iff

theorem renders_own (text : String) : own.Renders text := fun _ _ => render_own_eq_ok_iff.mp

end Libraries

namespace Variable

open Placeholder (standIn)

/-- The code declares a variable with this label. -/
def Labels (declaration label : String) : Prop :=
  ∃ rest, declaration = "variable " ++ label ++ " \x7b\n" ++ rest

/-- The label of a declaration that is made with the starter's template is the literal of the name. -/
theorem labels_ofString {catalog : Catalog} {target : String} {config : Fields} {v : Variable}
    (starter : catalog.template template = .ok Starter.Templates.configVariable)
    (engine : catalog.libraries.Renders Starter.Templates.configVariable)
    (declared : declare catalog target config = .ok v) :
    Labels v.declaration (Literal.ofString v.name) := by
  obtain ⟨merged, declares⟩ := declare_ok declared
  obtain ⟨source, found, rendered⟩ := Except.bind_eq_ok_iff.mp declares.rendered
  cases Except.ok.inj ((ofTemplates_eq_ok_iff.mp found).symm.trans starter)
  obtain ⟨text, rendered, filled⟩ := Except.bind_eq_ok_iff.mp rendered
  have success := Except.mapError_eq_ok_iff.mp (ofTemplates_eq_ok_iff.mp rendered)
  obtain ⟨tail, rfl⟩ := rendered_of_configVariable (engine _ _ success)
  have whole := (Placeholder.fill_eq_ok_iff.mp
    (ofTemplates_eq_ok_iff.mp (Except.mapError_eq_ok_iff.mp filled))).2
  have name : standIn v.config "name" = (Literal.ofString v.name).toList := by
    have found := get?_name_complete target merged
    rw [← declares.reference, ← declares.config_eq] at found
    exact Placeholder.standIn_of_literal (congrArg (Literal.ofField? "name") found)
  have lines : (Starter.Templates.variableHead ++ tail).toList =
      "variable ".toList ++ (Placeholder.written "name" ++ (" \x7b\n  type = ".toList ++
        (Placeholder.written "type" ++ tail.toList))) := by
    rw [String.toList_append]
    rfl
  have named : Placeholder.IsName "name" := Placeholder.isName_of_chars rfl rfl rfl
  have typed : Placeholder.IsName "type" := Placeholder.isName_of_chars rfl rfl rfl
  rw [lines, Placeholder.fillWith_append_written (by decide) named,
    Placeholder.fillWith_append_written (by decide) typed, name] at whole
  refine ⟨"  type = " ++ String.ofList (standIn v.config "type" ++
    (Placeholder.split tail.toList).fillWith (standIn v.config)), String.toList_inj.mp ?_⟩
  rw [whole]
  simp only [String.toList_append, String.toList_ofList, List.append_assoc]
  rfl

end Variable

namespace Literal

/-- Of an expression, the literal is the text behind the underscore. -/
theorem eq_underscore_append {s : String} (expression : IsExpression s) : s = "_" ++ ofString s := by
  obtain ⟨raw, chars⟩ := expression
  rw [ofString_of_expression chars, ← String.toList_inj, chars]
  simp only [String.toList_append, String.toList_ofList]
  rfl

/-- The literal of a string stands for it unless the string is an expression: that literal is too short. -/
theorem spells_ofString_iff (s : String) : Spells (ofString s).toList s ↔ ¬ IsExpression s := by
  constructor
  · rintro ⟨body, encloses, meaning⟩ ⟨raw, chars⟩
    have shorter := length_unescape_le body
    rw [ofString_of_expression chars, String.toList_ofList] at encloses
    rw [meaning, chars, encloses.whole] at shorter
    simp only [List.length_cons, List.length_append, List.length_nil] at shorter
    omega
  · intro other
    rw [ofString_of_not_expression other]
    exact spells_quote s

end Literal

namespace Starter

/-- The starter's template of declarations, with its defaults, and the starter's root code, and an
engine that renders the two. -/
structure Ships (catalog : Catalog) : Prop where
  declarations : catalog.template Variable.template = .ok Templates.configVariable
  defaults : ∃ path, catalog.defaults Variable.template = Fields.ofText Defaults.configVariable path
  rootCode : catalog.template Environment.templateName = .ok Templates.configEnvironment
  rendersDeclarations : catalog.libraries.Renders Templates.configVariable
  rendersRootCode : catalog.libraries.Renders Templates.configEnvironment

theorem Ships.namesNoVariable {catalog : Catalog} (ships : Ships catalog) :
    catalog.NamesNoVariable := by
  intro defaults found
  obtain ⟨path, shipped⟩ := ships.defaults
  rw [shipped, Starter.ofText_configVariable] at found
  cases found
  rfl

end Starter

namespace Variable

open Starter (Ships)

/-- With the starter's templates, a variable is referred to by its name as it stands, both in the code of a
resource, before its fields are written back as well as behind that, and in a root code. The label of its
declaration stands for this very name unless the name starts with an underscore; then the label is what follows
the underscore. -/
theorem spells_label_iff {catalog : Catalog} (ships : Ships catalog) :
    (∀ target config v, declare catalog target config = .ok v → ∃ label,
      Labels v.declaration label ∧
      (Literal.Spells label.toList v.name ↔ ¬ Literal.IsExpression v.name) ∧
      (Literal.IsExpression v.name → v.name = "_" ++ label) ∧
      Literal.ofField? target (some (.variable config)) = .ok (some (Literal.referTo v.name)) ∧
      Literal.ofField? target (some v.toValue) = .ok (some (Literal.referTo v.name))) ∧
    ∀ name config e, Environment.build catalog name config = .ok e →
      ∀ providers modules extended, e.extend catalog providers modules = .ok extended →
        ∃ front, extended.mainCode =
          front ++ String.join (modules.map (Environment.moduleBlock e.variableNames)) := by
  constructor
  · intro target config v declared
    obtain ⟨merged, declares⟩ := declare_ok declared
    refine ⟨Literal.ofString v.name, labels_ofString ships.declarations
      ships.rendersDeclarations declared,
      Literal.spells_ofString_iff v.name, Literal.eq_underscore_append, ?_, ?_⟩
    · rw [Literal.ofField?_variable, ← declares.name_eq ships.namesNoVariable]
    · rw [toValue, Literal.ofField?_variable, declares.config_eq, ← declares.reference]
  · intro name config e built providers modules extended success
    exact Environment.mainCode_of_extend ships.rootCode ships.rendersRootCode built success

namespace Shipped

/-- The files of the starter that are rendered for every project. -/
def catalog : Catalog where
  disk :=
    { workingDirectory := []
      entries :=
        [(["root"], .directory), (["root", "infra_templates"], .directory),
          (["root", "infra_defaults"], .directory),
          (["root", "infra_templates", "_config_variable.tf"],
            .file Starter.Templates.configVariable.toUTF8),
          (["root", "infra_templates", "_config_environment.tf"],
            .file Starter.Templates.configEnvironment.toUTF8),
          (["root", "infra_defaults", "_config_variable.yaml"],
            .file Starter.Defaults.configVariable.toUTF8)] }
  root := "root"
  libraries := .own

theorem at?_of_names {path : String} {names : List String} {s : Disk.Spot}
    (plain : Path.endsWithSlash path = false ∧ Path.isAbsolute path = false ∧
      '\x00' ∉ path.toList ∧ path ≠ "" ∧ path.utf8ByteSize ≤ Disk.pathLimit)
    (same : Path.names path = names) (found : catalog.disk.walk [] names = .ok s) :
    catalog.disk.at? path = s.standing? := by
  obtain ⟨ends, relative, valid⟩ := plain
  refine Disk.at?_of_walk ends valid ?_
  have start : catalog.disk.origin path = [] := by
    unfold Disk.origin
    rw [relative]
    rfl
  rw [start, same, found]

theorem ships : Ships catalog where
  declarations := Catalog.template_of_text (by decide) (at?_of_names (by decide +kernel)
    (by decide +kernel :
      Path.names _ = ["root", "infra_templates", "_config_variable.tf"]) rfl)
  defaults := ⟨_, Catalog.defaults_of_text (by decide) (at?_of_names (by decide +kernel)
    (by decide +kernel :
      Path.names _ = ["root", "infra_defaults", "_config_variable.yaml"]) rfl)⟩
  rootCode := Catalog.template_of_text (by decide) (at?_of_names (by decide +kernel)
    (by decide +kernel :
      Path.names _ = ["root", "infra_templates", "_config_environment.tf"]) rfl)
  rendersDeclarations := Libraries.renders_own _
  rendersRootCode := Libraries.renders_own _

def zone (name : String) : Fields :=
  [("is_variable", .bool true), ("type", .string "string"), ("name", .string name)]

def merged (name : String) : Fields :=
  zone name ++ [("default_value", .null), ("description", .string "")]

theorem withDefaults_zone (name : String) :
    catalog.withDefaults template (zone name) = .ok (merged name) := by
  obtain ⟨path, shipped⟩ := ships.defaults
  rw [Starter.ofText_configVariable] at shipped
  exact Catalog.withDefaults_eq_ok_iff.mpr ⟨_, shipped, rfl⟩

/-- There is neither a description nor a default value to write. -/
theorem render_zone (name : String) :
    Jinja.render (complete "zone" (merged name)) Starter.Templates.configVariable =
      .ok "variable <name> \x7b\n  type = <type>\n\x7d" := by
  let scopes : List Jinja.Scope :=
    [⟨(complete "zone" (merged name)).map fun e => (e.1, Jinja.Value.ofConfig e.2), none⟩]
  have written : Jinja.Render.WritesAll scopes
      (.text Starter.Templates.variableHead :: Starter.Templates.variableTail) _ :=
    (Jinja.Render.writes_text _ _).cons
      ((Jinja.Render.writes_choose (v := .text "") rfl (Jinja.Render.writesAll_nil _)).cons
        ((Jinja.Render.writes_choose (v := .bool false) rfl (Jinja.Render.writesAll_nil _)).cons
          ((Jinja.Render.writes_text _ _).cons (Jinja.Render.writesAll_nil _))))
  exact (Jinja.renderIn_eq_ok_iff Starter.Templates.parse_configVariable).mpr ⟨scopes, written ""⟩

theorem declare_zone {name declaration : String}
    (filled : Placeholder.fill "variable <name> \x7b\n  type = <type>\n\x7d"
      (complete "zone" (merged name)) = .ok declaration) :
    declare catalog "zone" (zone name) =
      .ok (ofComplete "zone" "string" (complete "zone" (merged name)) declaration) := by
  refine declare_eq_ok_iff.mpr ⟨_, _, _, rfl, withDefaults_zone name, ?_, rfl⟩
  have template := ofTemplates_eq_ok_iff.mpr ships.declarations
  have rendered : ofTemplates (catalog.render Variable.template Starter.Templates.configVariable
      (complete "zone" (merged name))) = .ok "variable <name> \x7b\n  type = <type>\n\x7d" :=
    ofTemplates_eq_ok_iff.mpr (Except.mapError_eq_ok_iff.mpr
      (Libraries.render_own_eq_ok_iff.mpr (render_zone name)))
  exact Except.bind_eq_ok_iff.mpr ⟨_, template, Except.bind_eq_ok_iff.mpr
    ⟨_, rendered, Except.mapError_eq_ok_iff.mpr (ofTemplates_eq_ok_iff.mpr filled)⟩⟩

end Shipped

/-- The declaration is of a zone, but the references are to a variable that nothing declares. -/
theorem label_of_underscore : ∃ v, declare Shipped.catalog "zone" (Shipped.zone "_zone") = .ok v ∧
    v.name = "_zone" ∧ v.declaration = "variable zone \x7b\n  type = string\n\x7d" ∧
    Literal.ofField? "zone" (some v.toValue) = .ok (some "var._zone") ∧
    ¬ ∃ label, Labels v.declaration label ∧ Literal.Spells label.toList v.name := by
  have filled : Placeholder.fill "variable <name> \x7b\n  type = <type>\n\x7d"
      (complete "zone" (Shipped.merged "_zone")) =
        .ok "variable zone \x7b\n  type = string\n\x7d" := by
    decide +kernel
  refine ⟨_, Shipped.declare_zone filled, by decide +kernel, rfl, by decide +kernel, ?_⟩
  rintro ⟨label, ⟨rest, declared⟩, body, encloses, -⟩
  have apart : "variable zone \x7b\n  type = string\n\x7d".toList =
      "variable ".toList ++ "zone \x7b\n  type = string\n\x7d".toList := by decide
  have chars := apart.symm.trans (congrArg String.toList declared)
  rw [String.toList_append, String.toList_append, String.toList_append, List.append_assoc,
    List.append_assoc] at chars
  have behind := List.append_cancel_left chars
  -- A text in quotes would start where the name of the zone does.
  rw [encloses.whole] at behind
  exact absurd (List.cons.inj behind).1 (by decide)

namespace Shipped

def west : Variable :=
  ofComplete "zone" "string" (complete "zone" (merged "eu \"west\""))
    "variable \"eu \\\"west\\\"\" \x7b\n  type = string\n\x7d"

theorem declare_west : declare catalog "zone" (zone "eu \"west\"") = .ok west :=
  declare_zone (by decide +kernel)

def fields : Fields := [("zone", .variable (zone "eu \"west\""))]

def dev : Environment :=
  Environment.refresh ⟨"dev", fields, [west], Starter.Templates.configEnvironment, "", ""⟩

def net : Module := ⟨"net", [], "", "", [], [west]⟩

theorem build_dev : Environment.build catalog "dev" fields = .ok dev := by
  have bare : catalog.defaults Environment.templateName = .ok [] :=
    Catalog.defaults_of_missing (by decide) (by decide +kernel)
  have completed : catalog.withDefaults Environment.templateName fields = .ok fields :=
    Catalog.withDefaults_eq_ok_iff.mpr ⟨[], bare, rfl⟩
  have extracted : extract catalog fields = .ok [west] := by
    rw [fields, extract, declare_west]
    rfl
  refine Except.bind_eq_ok_iff.mpr ⟨_, ofTemplates_eq_ok_iff.mpr completed, ?_⟩
  refine Except.bind_eq_ok_iff.mpr ⟨[], rfl, ?_⟩
  refine Except.bind_eq_ok_iff.mpr ⟨_, Except.mapError_eq_ok_iff.mpr extracted, ?_⟩
  exact Except.bind_eq_ok_iff.mpr ⟨_, ofTemplates_eq_ok_iff.mpr ships.rootCode, rfl⟩

theorem extend_dev : ∃ extended, dev.extend catalog [] [net] = .ok extended := by
  let scopes : List Jinja.Scope :=
    [⟨(dev.context [] [net]).map fun f => (f.1, Jinja.Value.ofConfig f.2), none⟩]
  have outcome : ((Jinja.Render.all (Starter.Templates.environmentHead ++
      [Starter.Templates.moduleLoop])).run ⟨scopes, ""⟩).map (fun p => p.2.output.isEmpty) =
        .ok false := by
    decide +kernel
  obtain ⟨⟨_, r⟩, run, -⟩ := Except.map_eq_ok_iff.mp outcome
  have rendered : catalog.render Environment.templateName dev.template (dev.context [] [net]) =
      .ok r.output := Except.mapError_eq_ok_iff.mpr (Libraries.render_own_eq_ok_iff.mpr
    ((Jinja.renderIn_eq_ok_iff Starter.Templates.parse_configEnvironment).mpr ⟨r.scopes, run⟩))
  exact ⟨_, Environment.extend_eq_ok_iff.mpr ⟨_, rendered, rfl⟩⟩

end Shipped

/-- Quotes in a name are escaped in the label and nowhere else. -/
theorem spells_label_iff_west :
    (∃ label, Labels Shipped.west.declaration label ∧
      Literal.Spells label.toList "eu \"west\"" ∧
      Literal.ofField? "zone" (some Shipped.west.toValue) = .ok (some "var.eu \"west\"")) ∧
    ∃ extended front, Shipped.dev.extend Shipped.catalog [] [Shipped.net] = .ok extended ∧
      extended.mainCode = front ++ "\nmodule \"net\" \x7b\n  source = \"../modules/net\"" ++
        "\n  eu \"west\" = var.eu \"west\"\n\x7d\n" := by
  obtain ⟨declarations, rootCodes⟩ := spells_label_iff Shipped.ships
  have name : Shipped.west.name = "eu \"west\"" := by decide +kernel
  constructor
  · obtain ⟨label, labels, spells, -, -, reference⟩ := declarations _ _ _ Shipped.declare_west
    rw [name] at spells reference
    exact ⟨label, labels, spells.mpr (by decide +kernel), reference⟩
  · obtain ⟨extended, success⟩ := Shipped.extend_dev
    obtain ⟨front, code⟩ := rootCodes _ _ _ Shipped.build_dev _ _ _ success
    refine ⟨extended, front, success, ?_⟩
    have blocks : String.join ([Shipped.net].map
        (Environment.moduleBlock Shipped.dev.variableNames)) =
          "\nmodule \"net\" \x7b\n  source = \"../modules/net\"" ++
            "\n  eu \"west\" = var.eu \"west\"\n\x7d\n" := by
      decide +kernel
    rw [code, blocks, String.append_assoc]

end Variable

end Groundwork
