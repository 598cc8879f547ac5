import Groundwork.Proofs.Environment
import Groundwork.Proofs.Reference
import Groundwork.Proofs.Rendering
import Groundwork.Starter

set_option autoImplicit false

/- The two starter templates that are rendered for every project: the declaration of a variable and
the root code of an environment. Their trees are written out here, and from them follows what any
rendering of them consists of. -/
namespace Groundwork

open Jinja (Expr Node)

namespace Starter

theorem toList_textOf (lines : List String) :
    (textOf lines).toList = lines.flatMap fun line => line.toList ++ ['\n'] := by
  induction lines with
  | nil => rfl
  | cons line rest ih =>
      unfold textOf at ih ⊢
      rw [List.map_cons, String.join_cons, String.toList_append, ih, List.flatMap_cons,
        String.toList_append]
      rfl

/-- A template is read off its characters, without a line's end behind the last line. -/
theorem parse_textOf (lines : List String) :
    Node.parse (textOf lines) = Jinja.Read.template.run'
      ⟨Jinja.lexemes ((Jinja.dropFinalBreak (lines.flatMap fun l => l.toList ++ ['\n'])).length + 1)
        (.text false) 1 (Jinja.dropFinalBreak (lines.flatMap fun l => l.toList ++ ['\n'])), 1⟩ := by
  rw [Node.parse, Jinja.lexemesOf, toList_textOf]

end Starter

namespace Starter.Templates

def variableTail : List Node :=
  [.choose (.var "description" 3) [.text "\n  description = <description>"] [],
    .choose (.both (.test (.var "default_value" 6) "defined" [])
        (.not (.test (.var "default_value" 6) "none" [])))
      [.text "\n  default = <default_value>"] [],
    .text "\n\x7d"]

def variableHead : String := "variable <name> \x7b\n  type = <type>"

set_option maxRecDepth 1000000 in
theorem parse_configVariable :
    Node.parse configVariable = .ok (.text variableHead :: variableTail) := by
  rw [configVariable, parse_textOf]
  simp only [List.flatMap_cons, List.flatMap_nil, String.reduceToList]
  with_unfolding_all rfl

def backendBlock : Node :=
  .choose (.both (.attribute (.var "env" 2) "backend")
      (.binary (.compare .eq) (.attribute (.attribute (.var "env" 2) "backend") "type")
        (.literal (.text "s3") 2)))
    [.text "\n  backend \"s3\" \x7b\n    bucket = \"",
      .output (.attribute (.attribute (.var "env" 4) "backend") "bucket"),
      .text "\"\n    key    = \"",
      .output (.filter (.attribute (.attribute (.var "env" 5) "backend") "key") "default"
        [.binary .concat (.attribute (.var "env" 5) "name")
          (.literal (.text "/terraform.tfstate") 5)]),
      .text "\"\n    region = \"",
      .output (.attribute (.attribute (.var "env" 6) "backend") "region"),
      .text "\"\n  \x7d"]
    [.text "\n  backend \"local\" \x7b\x7d"]

def providerLoop : Node :=
  .each ["provider"] (.var "providers" 12)
    [.each ["name", "params"] (.filter (.var "provider" 12) "items" [])
      [.text "\nprovider \"", .output (.var "name" 13), .text "\" \x7b",
        .each ["key", "value"] (.filter (.var "params" 14) "items" [])
          [.text "\n  ", .output (.var "key" 15), .text " = ",
            .output (.filter (.var "value" 15) "tojson" [])] [],
        .text "\n\x7d\n"] []] []

def referenceBody : List Node :=
  [.choose (.binary .contains (.var "var" 22) (.attribute (.var "env" 22) "variables_names"))
    [.text "\n  ", .output (.var "var" 23), .text " = var.", .output (.var "var" 23)] []]

def referenceLoop : Node :=
  .each ["var"] (.attribute (.var "module" 22) "variables_names") referenceBody []

def moduleBody : List Node :=
  [.text "\nmodule \"", .output (.var "name" 20), .text "\" \x7b\n  source = \"../modules/",
    .output (.var "name" 21), .text "\"", referenceLoop, .text "\n\x7d\n"]

def moduleLoop : Node :=
  .each ["name", "module"] (.filter (.var "modules" 19) "items" []) moduleBody []

def environmentHead : List Node :=
  [.text "terraform \x7b", backendBlock, .text "\n\x7d\n", providerLoop]

set_option maxRecDepth 1000000 in
theorem parse_configEnvironment :
    Node.parse configEnvironment = .ok (environmentHead ++ [moduleLoop]) := by
  rw [configEnvironment, parse_textOf]
  simp only [List.flatMap_cons, List.flatMap_nil, String.reduceToList]
  with_unfolding_all rfl

end Starter.Templates

/-- What a fault calls the text has no part in the fields that are read from it. -/
theorem Fields.ofText_path {text path other : String} {fields : Fields}
    (read : Fields.ofText text path = .ok fields) : Fields.ofText text other = .ok fields := by
  unfold Fields.ofText at read ⊢
  split at read
  · rename_i blank
    rwa [if_pos blank]
  · rename_i given
    rw [if_neg given]
    split at read
    · cases read
    · exact Except.mapError_eq_ok_iff.mpr (Except.mapError_eq_ok_iff.mp read)

theorem Starter.ofText_configVariable (path : String) :
    Fields.ofText Starter.Defaults.configVariable path =
      .ok [("name", .null), ("default_value", .null), ("description", .string "")] := by
  have outcome : (Fields.ofText Starter.Defaults.configVariable "").map
      (fun fields => fields.map fun e => (e.1, e.2.isNull, e.2.string?)) =
        .ok [("name", true, none), ("default_value", true, none), ("description", false, some "")] := by
    decide +kernel
  obtain ⟨fields, read, view⟩ := Except.map_eq_ok_iff.mp outcome
  have null {key : String} {e : String × Value}
      (same : (e.1, e.2.isNull, e.2.string?) = (key, true, none)) : e = (key, .null) := by
    obtain ⟨name, v⟩ := e
    cases v <;> cases same
    rfl
  have text {key : String} {e : String × Value}
      (same : (e.1, e.2.isNull, e.2.string?) = (key, false, some "")) : e = (key, .string "") := by
    obtain ⟨name, v⟩ := e
    cases v <;> cases same
    rfl
  obtain ⟨name, _, rfl, first, view⟩ := List.map_eq_cons_iff.mp view
  obtain ⟨default, _, rfl, second, view⟩ := List.map_eq_cons_iff.mp view
  obtain ⟨description, _, rfl, third, view⟩ := List.map_eq_cons_iff.mp view
  rw [List.map_eq_nil_iff.mp view, null first, null second, text third] at read
  exact Fields.ofText_path read

/-- Whatever the fields are, a declaration's first two lines have the two placeholders in front. -/
theorem Variable.rendered_of_configVariable {fields : Fields} {rendered : String}
    (success : Jinja.render fields Starter.Templates.configVariable = .ok rendered) :
    ∃ rest, rendered = Starter.Templates.variableHead ++ rest := by
  obtain ⟨scopes, run⟩ :=
    (Jinja.renderIn_eq_ok_iff Starter.Templates.parse_configVariable).mp success
  obtain ⟨_, now, first, run⟩ := Jinja.Render.run_bind_eq_ok_iff.mp run
  cases first
  obtain ⟨rest, same⟩ := Jinja.Render.keeps_all Starter.Templates.variableTail rfl _ _ _ _ run
  exact ⟨rest, (congrArg Jinja.Rendering.output same).trans (by rw [String.empty_append])⟩

namespace Environment

open Jinja Starter.Templates

/-- How a root code passes a variable on to a module. -/
def argument (name : String) : String := "\n  " ++ name ++ " = " ++ Literal.referTo name

/-- What a root code has for a module: its source, and the variables that both have. -/
def moduleBlock (known : List String) (m : Module) : String :=
  "\nmodule \"" ++ m.name ++ "\" \x7b\n  source = \"../modules/" ++ m.name ++ "\"" ++
    String.join ((m.variableNames.filter (· ∈ known)).map argument) ++ "\n\x7d\n"

theorem join_arguments (names known : List String) :
    String.join (names.map fun n => if n ∈ known then argument n else "") =
      String.join ((names.filter (· ∈ known)).map argument) := by
  induction names with
  | nil => rfl
  | cons n rest ih =>
      rw [List.map_cons, String.join_cons, ih]
      by_cases present : n ∈ known
      · rw [if_pos present, List.filter_cons_of_pos (by simpa using present), List.map_cons,
          String.join_cons]
      · rw [if_neg present, List.filter_cons_of_neg (by simpa using present), String.empty_append]

theorem writesAll_referenceBody {scopes : List Scope} {name : String} {known : List String}
    (target : Scope.lookup scopes "var" = some (.text name))
    (names : (Expr.attribute (.var "env" 22) "variables_names").eval scopes =
      .ok (.list (known.map .text))) :
    Render.WritesAll scopes referenceBody (if name ∈ known then argument name else "") := by
  have condition := Expr.eval_contains (Expr.eval_var target 22) names (containedIn_texts name known)
  have branch : Render.WritesAll scopes
      (if (Jinja.Value.bool (decide (name ∈ known))).isTrue then
        [.text "\n  ", .output (.var "var" 23), .text " = var.", .output (.var "var" 23)] else [])
      (if name ∈ known then argument name else "") := by
    by_cases present : name ∈ known
    · have printed := Render.writes_output (Expr.eval_var target 23)
      have body := (Render.writes_text scopes "\n  ").cons
        (printed.cons ((Render.writes_text scopes " = var.").cons
          (printed.cons (Render.writesAll_nil scopes))))
      have text : "\n  " ++ (name ++ (" = var." ++ (name ++ ""))) = argument name := by
        have dotted : " = var." = " = " ++ "var." := rfl
        rw [argument, Literal.referTo, dotted]
        simp only [String.append_assoc, String.append_empty]
      rw [if_pos present, decide_eq_true present, ← text]
      exact body
    · rw [if_neg present, decide_eq_false present]
      exact Render.writesAll_nil scopes
  have whole := (Render.writes_choose condition branch).cons (Render.writesAll_nil scopes)
  rwa [String.append_empty] at whole

/-- The two names that the root code reads from outside of its loops. -/
structure Sees (scopes : List Scope) (modules : List Module) (known : List String) : Prop where
  modules : Scope.lookup scopes "modules" = some
    (.map (Value.ofConfigFields (modules.map fun m => (m.name, .map m.summary.toFields))))
  env : ∃ fields, Scope.lookup scopes "env" = some (.map fields) ∧
    Value.entry? fields (.text "variables_names") = some (.list (known.map .text))

theorem writes_referenceLoop {s : Scope} {outer : List Scope} {modules : List Module}
    {known : List String} {m : Module} (sees : Sees outer modules known)
    (holds : s.Holds
      [("name", .text m.name), ("module", .map (Value.ofConfigFields m.summary.toFields))]) :
    Render.Writes (s :: outer) referenceLoop
      (String.join ((m.variableNames.filter (· ∈ known)).map argument)) := by
  have module := Scope.lookup_of_some
    (holds.found _ (List.mem_cons_of_mem _ List.mem_cons_self)) outer
  have own : Value.entry? (Value.ofConfigFields m.summary.toFields) (.text "variables_names") =
      some (.list (m.variableNames.map .text)) := by
    rw [Value.entry?_ofConfigFields]
    exact congrArg some (Value.ofConfig_ofNames m.variableNames)
  obtain ⟨fields, env, names⟩ := sees.env
  rw [← join_arguments]
  refine Render.writes_each (List.pairwise_singleton _ _)
    (Expr.eval_attribute (Expr.eval_var module 22) own) rfl fun n _ => ⟨_, rfl, fun inner bound => ?_⟩
  -- Neither loop has a name for the environment.
  have seen : Scope.lookup (inner :: s :: outer) "env" = some (.map fields) := by
    have inside : "env" ∉ ["var"] := by decide
    have outside : "env" ∉ ["name", "module"] := by decide
    rw [Scope.lookup_of_none (bound.others _ (by decide) inside),
      Scope.lookup_of_none (holds.others _ (by decide) outside), env]
  exact writesAll_referenceBody (Scope.lookup_of_some (bound.found _ List.mem_cons_self) _)
    (Expr.eval_attribute (Expr.eval_var seen 22) names)

theorem writes_moduleLoop {scopes : List Scope} {modules : List Module} {known : List String}
    (sees : Sees scopes modules known) :
    Render.Writes scopes moduleLoop (String.join (modules.map (moduleBlock known))) := by
  let pair (m : Module) : Jinja.Value :=
    .list [.text m.name, .map (Value.ofConfigFields m.summary.toFields)]
  have pairs : (Expr.filter (.var "modules" 19) "items" []).eval scopes =
      .ok (.list (modules.map pair)) := by
    rw [Expr.eval_items (Expr.eval_var sees.modules 19), Value.ofConfigFields_eq_map, List.map_map,
      List.map_map]
    rfl
  refine Render.writes_each (by decide) pairs rfl fun m _ => ⟨_, rfl, fun s holds => ?_⟩
  have name := Render.writes_output
    (Expr.eval_var (Scope.lookup_of_some (holds.found _ List.mem_cons_self) scopes) 20)
  have again := Render.writes_output
    (Expr.eval_var (Scope.lookup_of_some (holds.found _ List.mem_cons_self) scopes) 21)
  have body := (Render.writes_text _ "\nmodule \"").cons (name.cons
    ((Render.writes_text _ "\" \x7b\n  source = \"../modules/").cons (again.cons
      ((Render.writes_text _ "\"").cons ((writes_referenceLoop sees holds).cons
        ((Render.writes_text _ "\n\x7d\n").cons (Render.writesAll_nil _)))))))
  simp only [String.append_empty, ← String.append_assoc] at body
  exact body

/-- What a build leaves is up to date, and has the template of root codes. -/
theorem refreshed_of_build {catalog : Catalog} {name : String} {config : Fields} {e : Environment}
    (built : build catalog name config = .ok e) :
    ∃ before, e = refresh before ∧ catalog.template templateName = .ok e.template := by
  obtain ⟨merged, -, built⟩ := Except.bind_eq_ok_iff.mp built
  obtain ⟨declared, -, built⟩ := Except.bind_eq_ok_iff.mp built
  obtain ⟨marked, -, built⟩ := Except.bind_eq_ok_iff.mp built
  obtain ⟨template, found, rfl⟩ := Except.bind_pure_eq_ok_iff.mp built
  exact ⟨_, rfl, ofTemplates_eq_ok_iff.mp found⟩

theorem get?_variableNames_refresh (e : Environment) :
    e.refresh.config.get? "variables_names" = some (.ofNames e.variableNames) := by
  unfold refresh
  dsimp only
  rw [Dict.get?_insert_of_ne _ _ (by decide), Dict.get?_insert_self]

theorem sees_context (e : Environment) (providers : List Provider) (modules : List Module) :
    Sees [⟨(e.refresh.context providers modules).map fun f => (f.1, Value.ofConfig f.2), none⟩]
      modules e.variableNames := by
  refine ⟨rfl, Value.ofConfigFields e.refresh.config, rfl, ?_⟩
  rw [Value.entry?_ofConfigFields, get?_variableNames_refresh]
  exact congrArg some (Value.ofConfig_ofNames e.variableNames)

/-- The root code ends with one block for each module. It passes on the variables of the module that the
environment has too, each by its name. -/
theorem mainCode_of_extend {catalog : Catalog} {name : String} {config : Fields}
    {e extended : Environment} {providers : List Provider} {modules : List Module}
    (starter : catalog.template templateName = .ok configEnvironment)
    (engine : catalog.libraries.Renders configEnvironment)
    (built : build catalog name config = .ok e)
    (success : e.extend catalog providers modules = .ok extended) :
    ∃ front, extended.mainCode = front ++ String.join (modules.map (moduleBlock e.variableNames)) := by
  obtain ⟨before, rfl, found⟩ := refreshed_of_build built
  have template := Except.ok.inj (found.symm.trans starter)
  obtain ⟨mainCode, rendered, rfl⟩ := extend_eq_ok_iff.mp success
  have code := Except.mapError_eq_ok_iff.mp rendered
  rw [template] at code
  obtain ⟨scopes, run⟩ := (renderIn_eq_ok_iff parse_configEnvironment).mp (engine _ _ code)
  obtain ⟨now, first, run⟩ := Render.run_all_append_eq_ok_iff.mp run
  obtain ⟨front, rfl⟩ := Render.keeps_all environmentHead rfl _ _ _ _ first
  have blocks := (writes_moduleLoop (sees_context before providers modules)).cons
    (Render.writesAll_nil _) ("" ++ front)
  rw [String.append_empty, String.empty_append] at blocks
  rw [String.empty_append] at run
  have last := congrArg Prod.snd (Except.ok.inj (blocks.symm.trans run))
  exact ⟨front, (congrArg Rendering.output last).symm⟩

end Environment

end Groundwork
