import Groundwork.Proofs.Resource

set_option autoImplicit false

/- Resources with what they were built from. A list of declarations is built in order, and a
sequential pool in which every declared name is reserved gives each nameless resource a name of its
own: no other resource of the list has it, and the pool had not taken it before. -/
namespace Groundwork.Resource

/-- A resource together with the declaration it was built from, over the files of then. -/
structure Creation where
  catalog : Catalog
  type : String
  config : Fields
  resource : Resource
  built : ∃ pool after, build catalog type config pool = (.ok resource, after)

namespace Creation

/-- The declaration. -/
def entry (c : Creation) : String × Fields := (c.type, c.config)

def name (c : Creation) : String := c.resource.instanceName

/-- The resource's name was generated: neither its declaration nor the defaults of its type gave one. -/
def Generated (c : Creation) : Prop :=
  ∃ merged, c.catalog.withDefaults c.type c.config = .ok merged ∧ Nameless merged

theorem plain_moduleName (c : Creation) : isPlainName c.resource.moduleName = true := by
  obtain ⟨pool, after, success⟩ := c.built
  exact Resource.plain_moduleName success

theorem type_eq (c : Creation) : c.resource.type = c.type := by
  obtain ⟨pool, after, success⟩ := c.built
  obtain ⟨merged, -, -, assembles⟩ := build_ok success
  exact assembles.type_eq

/-- A name that was not generated is the declared one, if there is any. -/
theorem declared_or_unnamed (c : Creation) (nameless : NamesNoInstance c.catalog c.type)
    (kept : ¬ c.Generated) : givenName? c.config = some c.name ∨ c.name = "" := by
  obtain ⟨pool, after, success⟩ := c.built
  obtain ⟨merged, completed, -, -⟩ := build_ok success
  exact (build_declared success nameless completed fun missing =>
    kept ⟨merged, completed, missing⟩).2

end Creation

/-- Every resource of a list comes from the declaration at its place. -/
theorem exists_creations {catalog : Catalog} {entries : List (String × Fields)}
    {pool last : NamePool} {rs : List Resource}
    (success : buildAll catalog entries pool = (.ok rs, last)) :
    ∃ cs : List Creation, cs.map (·.resource) = rs ∧ cs.map (·.entry) = entries ∧
      ∀ c ∈ cs, c.catalog = catalog := by
  induction entries generalizing pool rs with
  | nil =>
      cases success
      exact ⟨[], rfl, rfl, fun _ member => nomatch member⟩
  | cons entry rest ih =>
      obtain ⟨r, others, after, rfl, built, more⟩ := buildAll_cons_ok success
      obtain ⟨cs, resources, declared, catalogs⟩ := ih more
      refine ⟨⟨catalog, entry.1, entry.2, r, pool, after, built⟩ :: cs, ?_, ?_, ?_⟩
      · rw [List.map_cons, resources]
      · rw [List.map_cons, declared]
        rfl
      · intro c member
        rcases List.mem_cons.mp member with rfl | later
        · rfl
        · exact catalogs c later

/-- Every generated name has the shape that its type asks for, is none of the taken names, and belongs to
no other resource. -/
structure NamesApart (taken : List String) (cs : List Creation) : Prop where
  numbered : ∀ c ∈ cs, c.Generated → ∃ k, 1 ≤ k ∧ c.name = NamePool.nameOf c.type k
  untaken : ∀ c ∈ cs, c.Generated → c.name ∉ taken
  distinct : cs.Pairwise fun x y => x.Generated ∨ y.Generated → x.name ≠ y.name

theorem namesApart_nil (taken : List String) : NamesApart taken [] :=
  ⟨fun _ member => (nomatch member), fun _ member => (nomatch member), .nil⟩

theorem NamesApart.mono {taken fewer : List String} {cs : List Creation}
    (apart : NamesApart taken cs) (known : ∀ name ∈ fewer, name ∈ taken) :
    NamesApart fewer cs :=
  ⟨apart.numbered,
    fun c member generated inside => apart.untaken c member generated (known _ inside),
    apart.distinct⟩

theorem NamesApart.ne_empty {taken : List String} {cs : List Creation}
    (apart : NamesApart taken cs) {c : Creation} (member : c ∈ cs) (generated : c.Generated) :
    c.name ≠ "" := by
  obtain ⟨k, -, same⟩ := apart.numbered c member generated
  rw [same]
  exact NamePool.nameOf_ne_empty c.type k

/-- Lists that were named one after the other: the second took no name of the first. -/
theorem NamesApart.append {taken more : List String} {first second : List Creation}
    (apart : NamesApart taken first) (further : NamesApart more second)
    (wider : ∀ name ∈ taken, name ∈ more)
    (known : ∀ c ∈ first, c.name ∈ more ∨ c.name = "")
    (kept : ∀ c ∈ second, ¬ c.Generated → c.name ∈ taken ∨ c.name = "") :
    NamesApart taken (first ++ second) := by
  refine ⟨?_, ?_, List.pairwise_append.mpr ⟨apart.distinct, further.distinct, ?_⟩⟩
  · intro c member
    exact (List.mem_append.mp member).elim (apart.numbered c) (further.numbered c)
  · intro c member generated
    rcases List.mem_append.mp member with early | late
    · exact apart.untaken c early generated
    · exact fun inside => further.untaken c late generated (wider _ inside)
  · intro x early y late generated same
    by_cases new : y.Generated
    · rcases known x early with inside | unnamed
      · exact further.untaken y late new (same ▸ inside)
      · exact further.ne_empty late new (same ▸ unnamed)
    · have old := generated.resolve_right new
      rcases kept y late new with inside | unnamed
      · exact apart.untaken x early old (same ▸ inside)
      · exact apart.ne_empty early old (same.trans unnamed)

/-- What one resource does to a sequential pool in which its declared name is reserved: a generated name
is new and taken from then on. -/
theorem namesApart_of_build {c : Creation} {pool after : NamePool}
    (built : build c.catalog c.type c.config pool = (.ok c.resource, after))
    (sequential : pool.naming = .sequential) (distinct : c.config.Distinct)
    (nameless : NamesNoInstance c.catalog c.type)
    (reserved : ∀ name, givenName? c.config = some name → name ∈ pool.taken) :
    NamesApart pool.taken [c] ∧ (∀ name ∈ pool.taken, name ∈ after.taken) ∧
      after.naming = .sequential ∧ (c.name ∈ after.taken ∨ c.name = "") := by
  obtain ⟨merged, completed, -, -⟩ := build_ok built
  have single : ∀ d, d ∈ [c] → d = c := fun d => List.mem_singleton.mp
  by_cases missing : Nameless merged
  · obtain ⟨name, rfl⟩ := build_nameless built distinct completed missing
    have free := NamePool.number_sequential pool c.type sequential
    have called : c.name = NamePool.nameOf c.type (pool.number c.type) := name
    refine ⟨⟨?_, ?_, List.pairwise_singleton _ c⟩, ?_, ?_, .inl ?_⟩
    · intro d member _
      rw [single d member]
      exact ⟨_, free.positive, called⟩
    · intro d member _
      rw [single d member, called]
      exact free.free
    · intro other inside
      rw [NamePool.mem_taken_fresh]
      exact .inr inside
    · rw [NamePool.fresh_naming, sequential]
    · rw [NamePool.mem_taken_fresh]
      exact .inl name
  · have kept : ¬ c.Generated := by
      rintro ⟨again, found, nameless⟩
      cases Except.ok.inj (completed.symm.trans found)
      exact missing nameless
    obtain ⟨rfl, -⟩ := build_declared built nameless completed missing
    refine ⟨⟨?_, ?_, List.pairwise_singleton _ c⟩, fun _ => id, sequential, ?_⟩
    · intro d member generated
      exact absurd (single d member ▸ generated) kept
    · intro d member generated
      exact absurd (single d member ▸ generated) kept
    · exact (c.declared_or_unnamed nameless kept).imp_left (reserved c.name)

/-- Whatever is built with a sequential pool in which the declared names are reserved has its generated
names apart from one another and from what the pool had taken. -/
theorem namesApart_of_buildAll {catalog : Catalog} {cs : List Creation} {pool last : NamePool}
    (success : buildAll catalog (cs.map (·.entry)) pool = (.ok (cs.map (·.resource)), last))
    (sequential : pool.naming = .sequential) (catalogs : ∀ c ∈ cs, c.catalog = catalog)
    (distinct : ∀ c ∈ cs, c.config.Distinct)
    (nameless : ∀ c ∈ cs, NamesNoInstance catalog c.type)
    (reserved : ∀ c ∈ cs, ∀ name, givenName? c.config = some name → name ∈ pool.taken) :
    NamesApart pool.taken cs := by
  -- The pool is general: what the first resource takes is reserved for the rest of the list.
  induction cs generalizing pool with
  | nil => exact namesApart_nil pool.taken
  | cons c rest ih =>
      obtain ⟨r, others, after, same, built, more⟩ := buildAll_cons_ok success
      obtain ⟨rfl, rfl⟩ := List.cons.inj same
      have silent : ∀ d ∈ c :: rest, NamesNoInstance d.catalog d.type := by
        intro d member
        rw [catalogs d member]
        exact nameless d member
      have own : c.catalog = catalog := catalogs c List.mem_cons_self
      rw [← own] at built
      obtain ⟨alone, grown, still, known⟩ := namesApart_of_build built sequential
        (distinct c List.mem_cons_self) (silent c List.mem_cons_self)
        (reserved c List.mem_cons_self)
      have later := ih more still (fun d member => catalogs d (List.mem_cons_of_mem c member))
        (fun d member => distinct d (List.mem_cons_of_mem c member))
        (fun d member => nameless d (List.mem_cons_of_mem c member))
        fun d member name given =>
          grown name (reserved d (List.mem_cons_of_mem c member) name given)
      refine alone.append later grown (fun d member => List.mem_singleton.mp member ▸ known) ?_
      intro d member kept
      have listed := List.mem_cons_of_mem c member
      exact (d.declared_or_unnamed (silent d listed) kept).imp_left (reserved d listed d.name)

end Groundwork.Resource
