import Groundwork.Build
import Groundwork.Proofs.Dict

set_option autoImplicit false

/- Modules and the resources placed in them. A module has variables of exactly the names that its
resources' variables have, whatever the order in which resources were placed, and every resource
ends up in a module of the name it asks for. -/
namespace Groundwork

namespace Module

theorem addVariable_eq (known : List Variable) (v : Variable) :
    addVariable known v = if v.name ∈ known.map (·.name) then known else known ++ [v] := by
  simp [addVariable]

theorem mem_names_addVariable (known : List Variable) (v : Variable) (name : String) :
    name ∈ (addVariable known v).map (·.name) ↔ name ∈ known.map (·.name) ∨ name = v.name := by
  unfold addVariable
  split
  · rename_i present
    obtain ⟨w, member, same⟩ := List.any_eq_true.mp present
    refine ⟨.inl, ?_⟩
    rintro (member | rfl)
    · exact member
    · exact of_decide_eq_true same ▸ List.mem_map_of_mem member
  · rw [List.map_append, List.mem_append, List.map_singleton, List.mem_singleton]

/-- A name that is there already keeps out later variables, but no name gets lost. -/
theorem mem_names_addVariables (known vs : List Variable) (name : String) :
    name ∈ (addVariables known vs).map (·.name) ↔
      name ∈ known.map (·.name) ∨ name ∈ vs.map (·.name) := by
  induction vs generalizing known with
  | nil => simp only [addVariables, List.foldl_nil, List.map_nil, List.not_mem_nil, or_false]
  | cons v rest ih =>
      change name ∈ (addVariables (addVariable known v) rest).map _ ↔ _
      rw [ih, mem_names_addVariable, List.map_cons, List.mem_cons, or_assoc]

theorem mem_addVariables {known vs : List Variable} {v : Variable}
    (member : v ∈ addVariables known vs) : v ∈ known ∨ v ∈ vs := by
  induction vs generalizing known with
  | nil => exact .inl member
  | cons first rest ih =>
      have step : v ∈ addVariable known first ∨ v ∈ rest := ih member
      rcases step with found | later
      · unfold addVariable at found
        split at found
        · exact .inl found
        · rcases List.mem_append.mp found with old | new
          · exact .inl old
          · exact .inr (List.mem_singleton.mp new ▸ List.mem_cons_self)
      · exact .inr (List.mem_cons_of_mem first later)

/-- A variable's name is there exactly if a resource of the module declares it. -/
def Covers (m : Module) : Prop :=
  ∀ name, name ∈ m.variableNames ↔ ∃ r ∈ m.resources, name ∈ r.vars.map (·.name)

theorem covers_empty (name : String) (config : Fields) : (empty name config).Covers := by
  intro declared
  constructor
  · intro member
    cases member
  · rintro ⟨r, member, -⟩
    cases member

theorem Covers.add {m : Module} (covers : m.Covers) (r : Resource) : (m.add r).Covers := by
  intro name
  change name ∈ (addVariables m.vars r.vars).map _ ↔ ∃ o ∈ m.resources ++ [r], _
  rw [mem_names_addVariables]
  refine (or_congr_left (covers name)).trans ?_
  constructor
  · rintro (⟨o, member, declared⟩ | declared)
    · exact ⟨o, List.mem_append_left [r] member, declared⟩
    · exact ⟨r, List.mem_append_right _ (List.mem_singleton_self r), declared⟩
  · rintro ⟨o, member, declared⟩
    rcases List.mem_append.mp member with member | here
    · exact .inl ⟨o, member, declared⟩
    · exact .inr (List.mem_singleton.mp here ▸ declared)

theorem Covers.finish {m : Module} (covers : m.Covers) : m.finish.Covers := covers

theorem mem_add_resources (m : Module) (r : Resource) : r ∈ (m.add r).resources :=
  List.mem_append_right _ (List.mem_singleton_self r)

/-- The declaration stands in the module's code, a blank line behind it. -/
theorem exists_declaration {m : Module} {v : Variable} (member : v ∈ m.vars) :
    ∃ before behind, m.finish.variableCode = before ++ (v.declaration ++ "\n\n") ++ behind := by
  obtain ⟨front, back, split⟩ := List.append_of_mem member
  refine ⟨String.join (front.map fun w => w.declaration ++ "\n\n"),
    String.join (back.map fun w => w.declaration ++ "\n\n"), ?_⟩
  change String.join (m.vars.map _) = _
  rw [split, List.map_append, List.map_cons, String.join_append, String.join_cons]
  exact (String.append_assoc ..).symm

end Module

namespace Build

theorem mem_place {ms : List Module} {r : Resource} {m : Module} (member : m ∈ place ms r) :
    m ∈ ms ∨ ∃ base, (base ∈ ms ∨ base = Module.empty r.moduleName []) ∧
      base.name = r.moduleName ∧ m = base.add r := by
  induction ms with
  | nil => exact .inr ⟨_, .inr rfl, rfl, List.mem_singleton.mp member⟩
  | cons first rest ih =>
      simp only [place] at member
      split at member
      · rename_i same
        rcases List.mem_cons.mp member with rfl | member
        · exact .inr ⟨first, .inl List.mem_cons_self, same, rfl⟩
        · exact .inl (List.mem_cons_of_mem first member)
      · rcases List.mem_cons.mp member with rfl | member
        · exact .inl List.mem_cons_self
        · rcases ih member with known | ⟨base, origin, same, rfl⟩
          · exact .inl (List.mem_cons_of_mem first known)
          · exact .inr ⟨base, origin.imp_left (List.mem_cons_of_mem first), same, rfl⟩

/-- What holds of bare modules and stays true as resources of a list are added. -/
structure Placeable (rs : List Resource) (P : Module → Prop) : Prop where
  bare : ∀ r ∈ rs, P (Module.empty r.moduleName [])
  add : ∀ m r, r ∈ rs → P m → P (m.add r)

theorem Placeable.foldl {rs : List Resource} {P : Module → Prop} (placeable : Placeable rs P)
    {ms : List Module} (holds : ∀ m ∈ ms, P m) : ∀ m ∈ rs.foldl place ms, P m := by
  refine List.foldlRecOn (motive := fun ms => ∀ m ∈ ms, P m) rs place holds ?_
  intro ms holds r listed m member
  rcases mem_place member with known | ⟨base, known | rfl, -, rfl⟩
  · exact holds m known
  · exact placeable.add base r listed (holds base known)
  · exact placeable.add _ r listed (placeable.bare r listed)

/-- A module named like this holds the resource. -/
def Holds (ms : List Module) (name : String) (r : Resource) : Prop :=
  ∃ m ∈ ms, m.name = name ∧ r ∈ m.resources

theorem holds_place (ms : List Module) (r : Resource) : Holds (place ms r) r.moduleName r := by
  induction ms with
  | nil => exact ⟨_, List.mem_singleton_self _, rfl, Module.mem_add_resources _ r⟩
  | cons first rest ih =>
      simp only [place]
      split
      · rename_i same
        exact ⟨first.add r, List.mem_cons_self, same, Module.mem_add_resources first r⟩
      · obtain ⟨m, member, holds⟩ := ih
        exact ⟨m, List.mem_cons_of_mem first member, holds⟩

theorem Holds.place {ms : List Module} {name : String} {r : Resource} (holds : Holds ms name r)
    (other : Resource) : Holds (place ms other) name r := by
  induction ms with
  | nil =>
      obtain ⟨m, member, -⟩ := holds
      cases member
  | cons first rest ih =>
      obtain ⟨m, member, same, inside⟩ := holds
      simp only [Build.place]
      split
      · rcases List.mem_cons.mp member with rfl | member
        · exact ⟨m.add other, List.mem_cons_self, same, List.mem_append_left _ inside⟩
        · exact ⟨m, List.mem_cons_of_mem _ member, same, inside⟩
      · rcases List.mem_cons.mp member with rfl | member
        · exact ⟨m, List.mem_cons_self, same, inside⟩
        · obtain ⟨grown, there, holds⟩ := ih ⟨m, member, same, inside⟩
          exact ⟨grown, List.mem_cons_of_mem first there, holds⟩

theorem Holds.foldl {ms : List Module} {name : String} {r : Resource} (holds : Holds ms name r)
    (rs : List Resource) : Holds (rs.foldl Build.place ms) name r := by
  induction rs generalizing ms with
  | nil => exact holds
  | cons other rest ih => exact ih (holds.place other)

theorem holds_foldl_place {rs : List Resource} {r : Resource} (member : r ∈ rs)
    (ms : List Module) : Holds (rs.foldl place ms) r.moduleName r := by
  induction rs generalizing ms with
  | nil => cases member
  | cons first rest ih =>
      rcases List.mem_cons.mp member with rfl | member
      · exact (holds_place ms r).foldl rest
      · exact ih member (place ms first)

theorem names_place (ms : List Module) (r : Resource) :
    (place ms r).map (·.name) =
      if r.moduleName ∈ ms.map (·.name) then ms.map (·.name)
      else ms.map (·.name) ++ [r.moduleName] := by
  induction ms with
  | nil => rfl
  | cons m rest ih =>
      by_cases same : m.name = r.moduleName
      · have kept : (m.add r).name = m.name := rfl
        simp [place, same, kept]
      · have other : r.moduleName ≠ m.name := fun eq => same eq.symm
        simp only [place, if_neg same, List.map_cons, ih, List.mem_cons, other, false_or]
        split
        · rfl
        · rw [List.cons_append]

theorem distinct_names_place {ms : List Module} (distinct : (ms.map (·.name)).Nodup)
    (r : Resource) : ((place ms r).map (·.name)).Nodup := by
  rw [names_place]
  split
  · exact distinct
  · rename_i absent
    rw [List.perm_append_comm.nodup_iff]
    exact List.nodup_cons.mpr ⟨absent, distinct⟩

theorem mem_names_place {ms : List Module} {r : Resource} {name : String}
    (member : name ∈ (place ms r).map (·.name)) :
    name ∈ ms.map (·.name) ∨ name = r.moduleName := by
  rw [names_place] at member
  split at member
  · exact .inl member
  · exact (List.mem_append.mp member).imp_right List.mem_singleton.mp

/-- Placing resources adds only modules that resources ask for, each of them once. -/
theorem names_foldl_place (rs : List Resource) {ms : List Module}
    (distinct : (ms.map (·.name)).Nodup) :
    ((rs.foldl place ms).map (·.name)).Nodup ∧
      ∀ name ∈ (rs.foldl place ms).map (·.name),
        name ∈ ms.map (·.name) ∨ ∃ r ∈ rs, r.moduleName = name := by
  induction rs generalizing ms with
  | nil => exact ⟨distinct, fun _ member => .inl member⟩
  | cons r rest ih =>
      obtain ⟨placed, origins⟩ := ih (distinct_names_place distinct r)
      refine ⟨placed, ?_⟩
      intro name member
      rcases origins name member with known | ⟨other, later, named⟩
      · exact (mem_names_place known).imp_right fun same => ⟨r, List.mem_cons_self, same.symm⟩
      · exact .inr ⟨other, List.mem_cons_of_mem r later, named⟩

theorem names_declared (p : Platform) :
    (p.modules.map fun m => Module.empty m.1 m.2.fields).map (·.name) = Dict.keys p.modules := by
  rw [List.map_map]
  rfl

theorem names_map_finish (ms : List Module) :
    (ms.map Module.finish).map (·.name) = ms.map (·.name) := by
  rw [List.map_map]
  rfl

theorem names_assembled {p : Platform} (distinct : Dict.Distinct p.modules) (rs : List Resource) :
    ((assembled p rs).map (·.name)).Nodup ∧
      ∀ name ∈ (assembled p rs).map (·.name),
        name ∈ Dict.keys p.modules ∨ ∃ r ∈ rs, r.moduleName = name := by
  have start : ((p.modules.map fun m => Module.empty m.1 m.2.fields).map (·.name)).Nodup := by
    rw [names_declared]
    exact distinct
  rw [assembled, names_map_finish, ← names_declared]
  exact names_foldl_place rs start

theorem Placeable.assembled {p : Platform} {rs : List Resource} {P : Module → Prop}
    (placeable : Placeable rs P) (declared : ∀ e ∈ p.modules, P (Module.empty e.1 e.2.fields))
    (finish : ∀ m : Module, P m → P m.finish) : ∀ m ∈ assembled p rs, P m := by
  intro m member
  obtain ⟨base, placed, rfl⟩ := List.mem_map.mp member
  apply finish
  refine placeable.foldl ?_ base placed
  intro bare listed
  obtain ⟨entry, known, rfl⟩ := List.mem_map.mp listed
  exact declared entry known

theorem covers_assembled (p : Platform) (rs : List Resource) :
    ∀ m ∈ assembled p rs, m.Covers := by
  have placeable : Placeable rs Module.Covers :=
    ⟨fun _ _ => Module.covers_empty _ _, fun _ r _ covers => covers.add r⟩
  exact placeable.assembled (fun _ _ => Module.covers_empty _ _) fun _ covers => covers.finish

theorem holds_assembled (p : Platform) {rs : List Resource} {r : Resource} (member : r ∈ rs) :
    Holds (assembled p rs) r.moduleName r := by
  obtain ⟨m, placed, same, inside⟩ := holds_foldl_place member
    (p.modules.map fun m => Module.empty m.1 m.2.fields)
  exact ⟨m.finish, List.mem_map_of_mem placed, same, inside⟩

/-- Where a variable's declaration stands once its module is assembled. -/
theorem exists_declaration_assembled {p : Platform} {rs : List Resource} {m : Module}
    {v : Variable} (placed : m ∈ assembled p rs) (member : v ∈ m.vars) :
    ∃ before behind, m.variableCode = before ++ (v.declaration ++ "\n\n") ++ behind := by
  obtain ⟨base, -, rfl⟩ := List.mem_map.mp placed
  exact Module.exists_declaration (m := base) member

end Build

end Groundwork
