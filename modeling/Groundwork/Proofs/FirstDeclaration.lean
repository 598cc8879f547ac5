import Groundwork.Proofs.Environment
import Groundwork.Proofs.Selection
import Mathlib.Data.List.Nodup
import Mathlib.Data.List.Induction

set_option autoImplicit false

/- Modules that grow call by call. Resources bring variables along, repeated names among them, and a
module keeps those variables whose name it meets for the first time. However adding resources and
writing the declarations alternate, it ends up with the first variable of every name, in the order
in which the names turned up. -/
namespace Groundwork.Module

/-- The variables whose name stands neither among the known ones nor in front of them. -/
def unseen (known vs : List Variable) : List Variable :=
  (vs.zipIdx.filter fun v => v.1.name ∉ (known ++ vs.take v.2).map (·.name)).map (·.1)

theorem unseen_eq_select (known vs : List Variable) :
    unseen known vs = select (fun front v => v.name ∉ (known ++ front).map (·.name)) vs := rfl

theorem unseen_append_singleton (known vs : List Variable) (v : Variable) :
    unseen known (vs ++ [v]) =
      unseen known vs ++ if v.name ∈ (known ++ vs).map (·.name) then [] else [v] := by
  rw [unseen_eq_select, select_concat, ← unseen_eq_select]
  simp only [decide_eq_true_eq, ite_not]

theorem addVariables_append (known vs ws : List Variable) :
    addVariables known (vs ++ ws) = addVariables (addVariables known vs) ws := List.foldl_append

theorem addVariables_eq_unseen (known vs : List Variable) :
    addVariables known vs = known ++ unseen known vs := by
  induction vs using List.reverseRecOn with
  | nil => exact (List.append_nil known).symm
  | append_singleton vs v ih =>
      have names : v.name ∈ (known ++ unseen known vs).map (·.name) ↔
          v.name ∈ (known ++ vs).map (·.name) := by
        rw [← ih, mem_names_addVariables, List.map_append, List.mem_append]
      have step : addVariables (known ++ unseen known vs) [v] =
          addVariable (known ++ unseen known vs) v := rfl
      rw [addVariables_append, ih, unseen_append_singleton, step, addVariable_eq]
      by_cases present : v.name ∈ (known ++ vs).map (·.name)
      · rw [if_pos present, if_pos (names.mpr present), List.append_nil]
      · rw [if_neg present, if_neg (names.not.mpr present), List.append_assoc]

theorem unseen_sublist (known vs : List Variable) : (unseen known vs).Sublist vs := by
  rw [unseen_eq_select]
  exact select_sublist _ vs

theorem name_of_mem_unseen {known vs : List Variable} {v : Variable}
    (member : v ∈ unseen known vs) : v.name ∉ known.map (·.name) := by
  obtain ⟨w, inside, rfl⟩ := List.mem_map.mp member
  intro present
  have new := of_decide_eq_true (List.mem_filter.mp inside).2
  rw [List.map_append] at new
  exact new (List.mem_append_left _ present)

theorem find?_addVariable (known : List Variable) (v : Variable) (name : String) :
    (addVariable known v).find? (·.name = name) = (known ++ [v]).find? (·.name = name) := by
  rw [addVariable_eq]
  by_cases present : v.name ∈ known.map (·.name)
  · obtain ⟨w, member, same⟩ := List.mem_map.mp present
    rw [if_pos present, List.find?_append]
    by_cases here : v.name = name
    · have found : (known.find? (·.name = name)).isSome := by
        rw [List.find?_isSome]
        exact ⟨w, member, by simp [same, here]⟩
      rw [Option.or_of_isSome found]
    · simp [here]
  · rw [if_neg present]

/-- Of every name the first variable is there. -/
theorem find?_addVariables (known vs : List Variable) (name : String) :
    (addVariables known vs).find? (·.name = name) = (known ++ vs).find? (·.name = name) := by
  induction vs generalizing known with
  | nil => rw [List.append_nil]; rfl
  | cons v rest ih =>
      have step : addVariables known (v :: rest) = addVariables (addVariable known v) rest := rfl
      rw [step, ih, List.find?_append, find?_addVariable, ← List.find?_append, List.append_assoc,
        List.singleton_append]

/-- What is done to a module: it gets a resource, or its declarations are written. -/
inductive Edit where
  | add (r : Resource)
  | finish

def Edit.resource? : Edit → Option Resource
  | .add r => some r
  | .finish => none

def edit (m : Module) : Edit → Module
  | .add r => m.add r
  | .finish => m.finish

def edited (m : Module) (edits : List Edit) : Module := edits.foldl edit m

/-- The resources that the edits bring, in order. -/
def added (edits : List Edit) : List Resource := edits.filterMap Edit.resource?

theorem edited_append (m : Module) (edits more : List Edit) :
    m.edited (edits ++ more) = (m.edited edits).edited more := List.foldl_append

/-- Of the variables that were offered, the module has the first of every name, in the order in which the
names turned up. -/
structure DeclaresFirst (m : Module) (offered : List Variable) : Prop where
  vars : m.vars = unseen [] offered
  distinct : m.variableNames.Nodup
  first : ∀ name, m.vars.find? (·.name = name) = offered.find? (·.name = name)

theorem declaresFirst_of_vars {m : Module} {offered : List Variable}
    (vars : m.vars = addVariables [] offered) : m.DeclaresFirst offered := by
  refine ⟨?_, ?_, fun name => ?_⟩
  · rw [vars, addVariables_eq_unseen, List.nil_append]
  · have distinct := (nodup_addVariables_iff [] offered).mpr List.nodup_nil
    rwa [variableNames, vars]
  · rw [vars, find?_addVariables, List.nil_append]

/-- The module holds these resources, and has taken its variables from them one by one. -/
structure Holding (m : Module) (rs : List Resource) : Prop where
  resources : m.resources = rs
  vars : m.vars = addVariables [] (rs.flatMap (·.vars))

theorem holding_empty (name : String) (config : Fields) : (empty name config).Holding [] := ⟨rfl, rfl⟩

theorem Holding.edit {m : Module} {rs : List Resource} (holding : m.Holding rs) (e : Edit) :
    (m.edit e).Holding (rs ++ added [e]) := by
  cases e with
  | add r =>
      have resources : (m.edit (.add r)).resources = m.resources ++ [r] := rfl
      have vars : (m.edit (.add r)).vars = addVariables m.vars r.vars := rfl
      have offered : (rs ++ [r]).flatMap (·.vars) = rs.flatMap (·.vars) ++ r.vars := by simp
      refine ⟨?_, ?_⟩
      · rw [resources, holding.resources]
        rfl
      · show _ = addVariables [] ((rs ++ [r]).flatMap (·.vars))
        rw [vars, holding.vars, offered, addVariables_append]
  | finish =>
      have none : added [.finish] = [] := rfl
      rw [none, List.append_nil]
      exact ⟨holding.resources, holding.vars⟩

theorem Holding.edited {m : Module} {rs : List Resource} (holding : m.Holding rs)
    (edits : List Edit) : (m.edited edits).Holding (rs ++ added edits) := by
  induction edits generalizing m rs with
  | nil =>
      have none : added [] = [] := rfl
      rw [none, List.append_nil]
      exact holding
  | cons e rest ih =>
      have split : added (e :: rest) = added [e] ++ added rest := List.filterMap_append (l := [e])
      rw [split, ← List.append_assoc]
      exact ih (holding.edit e)

/-- The variables with a default value and those without share out the names between them. -/
structure Summary.SplitsByDefault (s : Summary) (vars : List Variable) : Prop where
  disjoint : s.withDefault.Disjoint s.withoutDefault
  all : (s.withDefault ++ s.withoutDefault).Perm s.variableNames
  ordered : s.withDefault.Sublist s.variableNames ∧ s.withoutDefault.Sublist s.variableNames
  default : ∀ v ∈ vars, v.name ∈ s.withDefault ↔ v.hasDefault = true
  counts : Variable.defaultCounts vars = (s.withDefault.length, s.withoutDefault.length)

/-- A name that stands for one variable only is on one side only. -/
theorem splitsByDefault_summary {m : Module} (distinct : m.variableNames.Nodup) :
    m.summary.SplitsByDefault m.vars := by
  have parts := (List.filter_append_perm (·.hasDefault) m.vars).map (·.name)
  rw [List.map_append] at parts
  have apart := List.nodup_append.mp (parts.nodup_iff.mpr distinct)
  have disjoint : m.summary.withDefault.Disjoint m.summary.withoutDefault :=
    fun name left right => apart.2.2 name left name right rfl
  refine ⟨disjoint, parts, ⟨List.filter_sublist.map _, List.filter_sublist.map _⟩, ?_, ?_⟩
  · intro v member
    constructor
    · intro listed
      by_contra missing
      have other : v.name ∈ m.summary.withoutDefault :=
        List.mem_map_of_mem (List.mem_filter.mpr ⟨member, by simpa using missing⟩)
      exact disjoint listed other
    · intro given
      exact List.mem_map_of_mem (List.mem_filter.mpr ⟨member, given⟩)
  · simp [Variable.defaultCounts, summary]

theorem edited_finish_finish (m : Module) (times : Nat) :
    m.finish.edited (List.replicate times .finish) = m.finish := by
  induction times with
  | zero => rfl
  | succ times ih => exact ih

/-- However a module was edited, its variables are the first ones of every name among those of the
resources that were added; its summary shares their names out by whether there is a default value. Once
they are written, the declarations are those of just these variables, and they stay so until a resource
is added. -/
theorem declaresFirst_edited (name : String) (config : Fields) (edits : List Edit) :
    let m := (empty name config).edited edits
    m.resources = added edits ∧ m.DeclaresFirst ((added edits).flatMap (·.vars)) ∧
      m.summary.SplitsByDefault m.vars ∧
      m.finish.variableCode = String.join (m.vars.map fun v => v.declaration ++ "\n\n") ∧
      ∀ times, (empty name config).edited (edits ++ .finish :: List.replicate times .finish) =
        m.finish := by
  have holding := (holding_empty name config).edited edits
  rw [List.nil_append] at holding
  have first := declaresFirst_of_vars holding.vars
  refine ⟨holding.resources, first, splitsByDefault_summary first.distinct, rfl, fun times => ?_⟩
  rw [edited_append]
  exact edited_finish_finish _ times

end Groundwork.Module
