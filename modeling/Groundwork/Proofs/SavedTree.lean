import Groundwork.Proofs.Tree

set_option autoImplicit false

/- What a save that succeeds has written. Below the destination stands its directory of modules with
a directory of code for each module, a directory of code for each environment, the document if it
was built, and a copy of each source directory; and nothing else. -/
namespace Groundwork

namespace Output

open Disk (Under Grows Hangs)
open Disk.Change (Ends)

variable {destination : String} {l : Location} {d now : Disk}
variable {written : List (Location × Entry)}

theorem mem_codeTree {steps : List String} {mainCode variableCode : String}
    {entry : Location × Entry} :
    entry ∈ codeTree steps mainCode variableCode ↔
      entry = (steps, .directory) ∨ entry = (steps ++ [mainFile], .file mainCode.toUTF8) ∨
        variableCode ≠ "" ∧ entry = (steps ++ [variablesFile], .file variableCode.toUTF8) := by
  unfold codeTree
  split
  · rename_i some
    simp [some]
  · rename_i none
    simp [Classical.not_not.mp none]

theorem hangs_codeTree (steps : List String) (mainCode variableCode : String) :
    Hangs steps (codeTree steps mainCode variableCode) := by
  refine ⟨?_, ?_, ?_⟩
  · have files : mainFile ≠ variablesFile := by decide
    unfold codeTree
    split <;> simp [files]
  · intro entry member
    rcases mem_codeTree.mp member with rfl | rfl | ⟨-, rfl⟩
    · exact List.prefix_refl steps
    · exact List.prefix_append steps [mainFile]
    · exact List.prefix_append steps [variablesFile]
  · intro rel name e member
    have inside : ∀ file, rel ++ [name] = steps ++ [file] →
        (rel, .directory) ∈ codeTree steps mainCode variableCode := by
      intro file same
      obtain ⟨rfl, -⟩ := List.append_inj' same rfl
      exact mem_codeTree.mpr (.inl rfl)
    rcases mem_codeTree.mp member with root | main | ⟨-, declared⟩
    · exact .inl (congrArg Prod.fst root)
    · exact .inr (inside mainFile (congrArg Prod.fst main))
    · exact .inr (inside variablesFile (congrArg Prod.fst declared))

/-- The only directory among code is the one it is in. -/
theorem directory_of_mem_codeTree {steps rel : List String} {mainCode variableCode : String}
    (member : (rel, .directory) ∈ codeTree steps mainCode variableCode) : rel = steps := by
  rcases mem_codeTree.mp member with root | main | ⟨-, declared⟩
  · exact congrArg Prod.fst root
  · cases main
  · cases declared

theorem hangs_single (name : String) (e : Entry) : Hangs [name] [([name], e)] := by
  refine ⟨List.pairwise_singleton _ _, ?_, ?_⟩
  · intro entry member
    obtain rfl := List.mem_singleton.mp member
    exact List.prefix_refl [name]
  · intro rel last e member
    exact .inl (congrArg Prod.fst (List.mem_singleton.mp member))

/-- The destination leads to this directory, and exactly this stands below it. -/
structure Filled (destination : String) (l : Location) (written : List (Location × Entry))
    (now : Disk) : Prop where
  placed : Placed destination l now
  wellFormed : now.WellFormed
  distinct : now.Distinct
  root : now.entry? l = some .directory
  exact : ∀ rel e, rel ≠ [] → ((rel, e) ∈ written ↔ now.entry? (l ++ rel) = some e)

theorem Filled.congr (filled : Filled destination l written now)
    {other : List (Location × Entry)} (same : ∀ entry, entry ∈ written ↔ entry ∈ other) :
    Filled destination l other now :=
  ⟨filled.placed, filled.wellFormed, filled.distinct, filled.root,
    fun rel e proper => (same (rel, e)).symm.trans (filled.exact rel e proper)⟩

/-- A tree is written where nothing stood. -/
theorem Filled.grow (filled : Filled destination l written d) {steps : List String}
    {tree : List (Location × Entry)} (hangs : Hangs steps tree) (down : steps ≠ [])
    (adds : Adds (l ++ steps) d now) (laid : now = d.putAll l tree)
    (directory : d.entry? (l ++ steps.dropLast) = some .directory) :
    Filled destination l (written ++ tree) now ∧ Grows d now := by
  have fresh := hangs.vacant filled.wellFormed adds.vacant
  have grows := Disk.grows_putAll fresh
  have placed := filled.placed.adds down adds
  subst laid
  refine ⟨⟨placed, filled.wellFormed.putAll hangs down adds.vacant directory,
    filled.distinct.putAll l tree, grows.kept _ _ filled.root, ?_⟩, grows⟩
  intro rel e proper
  have below : l ++ rel ≠ [] := List.append_ne_nil_of_right_ne_nil l proper
  rw [List.mem_append, filled.exact rel e proper]
  by_cases inside : ∃ entry ∈ tree, rel = entry.1
  · obtain ⟨entry, member, rfl⟩ := inside
    have stands := Disk.entry?_putAll_of_mem hangs.distinct member below d
    rw [stands, fresh entry member]
    constructor
    · rintro (absent | other)
      · cases absent
      · have again := Disk.entry?_putAll_of_mem hangs.distinct other below d
        exact stands.symm.trans again
    · intro same
      exact .inr (Option.some.inj same ▸ member)
  · have apart : ∀ entry ∈ tree, l ++ rel ≠ l ++ entry.1 := fun entry member same =>
      inside ⟨entry, member, List.append_cancel_left same⟩
    rw [Disk.entry?_putAll_of_ne apart]
    exact ⟨fun either => either.resolve_right fun member => inside ⟨(rel, e), member, rfl⟩, .inl⟩

/-- Where more has been written below a place and nothing has changed outside of it, everything is
kept. -/
theorem Filled.grows (filled : Filled destination l written d) {more : List (Location × Entry)}
    (further : Filled destination l (written ++ more) now) (under : Under l d now) :
    Grows d now := by
  refine ⟨under.workingDirectory, fun k e stands => ?_⟩
  by_cases inside : l <+: k
  · obtain ⟨rel, rfl⟩ := inside
    by_cases here : rel = []
    · rw [here, List.append_nil] at stands ⊢
      rw [further.root, ← filled.root, stands]
    · rw [← further.exact rel e here]
      exact List.mem_append_left more ((filled.exact rel e here).mpr stands)
  · rw [under.frame k inside, stands]

/-- Targets that each write a tree write all their trees. -/
theorem ends_forM_trees {α : Type} {save : α → Writing Unit}
    {treeOf : α → List (Location × Entry)} {I : List (Location × Entry) → Disk → Prop} {xs : List α}
    (step : ∀ x ∈ xs, ∀ written d, I written d →
      Ends (save x) d (fun _ now => I (written ++ treeOf x) now) (fun _ _ => True))
    (holds : I written d) :
    Ends (xs.forM save) d (fun _ now => I (written ++ xs.flatMap treeOf) now)
      (fun _ _ => True) := by
  induction xs generalizing written d with
  | nil =>
      apply Disk.Change.ends_pure
      rw [List.flatMap_nil, List.append_nil]
      exact holds
  | cons x rest ih =>
      rw [List.flatMap_cons, ← List.append_assoc]
      show Ends (save x >>= fun _ => rest.forM save) d _ _
      apply Disk.Change.ends_bind
      apply (step x List.mem_cons_self written d holds).mono ?_ fun _ _ _ => True.intro
      exact fun _ _ more => ih (fun y member => step y (List.mem_cons_of_mem x member)) more

theorem ends_moduleTrees {ms : List Module} (single : ∀ m ∈ ms, Path.Single m.name)
    (modules : ([modulesDirectory], .directory) ∈ written)
    (filled : Filled destination l written d) :
    Ends (ms.forM (saveModule destination)) d
      (fun _ now => Filled destination l (written ++ ms.flatMap moduleTree) now)
      (fun _ _ => True) := by
  let holds : List (Location × Entry) → Disk → Prop := fun seen now =>
    ([modulesDirectory], .directory) ∈ seen ∧ Filled destination l seen now
  have step : ∀ m ∈ ms, ∀ seen now, holds seen now → Ends (saveModule destination m) now
      (fun _ next => holds (seen ++ moduleTree m) next) (fun _ _ => True) := by
    rintro m member seen now ⟨present, reached⟩
    apply (ends_saveModule reached.placed (single m member)).mono ?_ fun _ _ _ => True.intro
    rintro _ next ⟨adds, laid⟩
    have above := (reached.exact _ _ (List.cons_ne_nil modulesDirectory [])).mp present
    have grown := (reached.grow (hangs_codeTree _ _ _) (List.cons_ne_nil _ _) adds laid above).1
    exact ⟨List.mem_append_left _ present, grown⟩
  exact (ends_forM_trees step ⟨modules, filled⟩).mono (fun _ _ done => done.2)
    fun _ _ _ => True.intro

theorem ends_environmentTrees {es : List Environment} (single : ∀ e ∈ es, Path.Single e.name)
    (filled : Filled destination l written d) :
    Ends (es.forM (saveEnvironment destination)) d
      (fun _ now => Filled destination l (written ++ es.flatMap environmentTree) now)
      (fun _ _ => True) := by
  refine ends_forM_trees ?_ filled
  intro e member seen now reached
  apply (ends_saveEnvironment reached.placed (single e member)).mono ?_ fun _ _ _ => True.intro
  rintro _ next ⟨adds, laid⟩
  have above : now.entry? (l ++ [e.name].dropLast) = some .directory := by
    rw [List.dropLast_singleton, List.append_nil]
    exact reached.root
  exact (reached.grow (hangs_codeTree _ _ _) (List.cons_ne_nil _ _) adds laid above).1

/-- The directory that a template root keeps its assets in. -/
def sourcesPath (root : String) : String := Path.joinAll root [Catalog.assetsDirectory]

/-- The sources of assets are not below the place, or nothing below it looks like them. -/
def SourcesApart (root : String) (l : Location) (d : Disk) : Prop :=
  (∃ home, d.Leads (sourcesPath root) home ∧ ¬ l <+: home) ∨
    ∀ y name, d.entry? (l ++ y ++ [Catalog.assetsDirectory, name]) ≠ some .directory

/-- A source directory that is copied to a place below the destination is not there itself. -/
theorem SourcesApart.of_copy {root name : String} (sources : SourcesApart root l d)
    (single : Path.Single name) {origin : Location}
    (located : d.spot (Path.join (sourcesPath root) name) = .ok (.directory origin))
    (vacant : d.entry? (l ++ [name]) = none) :
    ∃ home, d.Leads (sourcesPath root) home ∧ origin = home ++ [name] ∧ ¬ l <+: home := by
  have below := single.below.base (sourcesPath root)
  have leads : d.Leads (Path.join (sourcesPath root) name) origin :=
    Disk.walk_of_spot below.ends located
  obtain ⟨home, toHome, rfl, stands⟩ := leads.of_join single
  have single : Path.Single Catalog.assetsDirectory := Catalog.single_directory _ (by decide)
  obtain ⟨outer, -, inOuter, -⟩ := Disk.Leads.of_join single toHome
  refine ⟨home, toHome, rfl, ?_⟩
  -- Before the first copy the destination holds no directory that the path of a source can end in,
  -- unless sources are looked for in the destination itself; but there the target is still vacant.
  rcases sources with ⟨other, elsewhere, apart⟩ | nowhere
  · rw [toHome.unique elsewhere]
    exact apart
  · rintro ⟨x, whole⟩
    rcases List.eq_nil_or_concat' x with rfl | ⟨y, last, rfl⟩
    · rw [← whole, List.append_nil, vacant] at stands
      cases stands
    · rw [← List.append_assoc, inOuter] at whole
      obtain ⟨front, final⟩ := List.append_inj' whole rfl
      apply nowhere y name
      rw [← stands, inOuter, ← front]
      simp

/-- Before anything is copied, the destination holds no directory that sources could be in. -/
theorem sourcesApart_of_code {ms : List Module} {es : List Environment} (root : String)
    (filled : Filled destination l ([([modulesDirectory], .directory)] ++ ms.flatMap moduleTree ++
      es.flatMap environmentTree) d) : SourcesApart root l d := by
  refine .inr fun y name stands => ?_
  rw [List.append_assoc] at stands
  have proper : y ++ [Catalog.assetsDirectory, name] ≠ [] := by simp
  have member := (filled.exact _ _ proper).mpr stands
  have assets : Catalog.assetsDirectory ≠ modulesDirectory := by decide
  rcases List.mem_append.mp member with early | environment
  · rcases List.mem_append.mp early with first | module
    · have same := congrArg Prod.fst (List.mem_singleton.mp first)
      simpa using congrArg List.length same
    · obtain ⟨m, -, inside⟩ := List.mem_flatMap.mp module
      have same : y ++ [Catalog.assetsDirectory, name] = [] ++ [modulesDirectory, m.name] :=
        directory_of_mem_codeTree inside
      exact assets (List.cons.inj (List.append_inj' same rfl).2).1
  · obtain ⟨e, -, inside⟩ := List.mem_flatMap.mp environment
    simpa using congrArg List.length (directory_of_mem_codeTree inside)

/-- What is copied was there. -/
theorem located_of_adds {name source : String}
    (adds : Adds (l ++ [name]) d (d.putAll l (assetTree d (.staticCopy name source)))) :
    ∃ origin, d.spot source = .ok (.directory origin) := by
  have present := adds.present
  rw [assetTree] at present
  split at present
  · rename_i origin located
    exact ⟨origin, located⟩
  · exact absurd adds.vacant present

section Assets

variable {root : String} {a : Asset}

theorem Filled.addAsset (filled : Filled destination l written d) (stored : a.Stored root)
    (sources : SourcesApart root l d) (adds : Adds (l ++ [a.targetName]) d now)
    (laid : now = d.putAll l (assetTree d a)) :
    Filled destination l (written ++ assetTree d a) now ∧ SourcesApart root l now := by
  have above : d.entry? (l ++ [a.targetName].dropLast) = some .directory := by
    rw [List.dropLast_singleton, List.append_nil]
    exact filled.root
  cases a with
  | actionRequired rendered =>
      have hangs : Hangs [Asset.actionRequiredFile] (assetTree d (.actionRequired rendered)) :=
        hangs_single _ _
      obtain ⟨grown, grows⟩ := filled.grow hangs (List.cons_ne_nil _ _) adds laid above
      refine ⟨grown, ?_⟩
      rcases sources with ⟨home, leads, apart⟩ | nowhere
      · exact .inl ⟨home, grows.leads leads, apart⟩
      · refine .inr fun y name => ?_
        rw [laid, Disk.entry?_putAll_of_ne]
        · exact nowhere y name
        · intro entry member same
          rw [List.mem_singleton.mp member, List.append_assoc] at same
          simpa using congrArg List.length (List.append_cancel_left same)
  | staticCopy name source =>
      have single : Path.Single name := stored.single
      subst laid
      obtain ⟨origin, located⟩ := located_of_adds adds
      have hangs : Hangs [name] (assetTree d (.staticCopy name source)) := by
        rw [assetTree_static located]
        exact Disk.hangs_copy filled.wellFormed filled.distinct origin name
      obtain ⟨grown, grows⟩ := filled.grow hangs (List.cons_ne_nil _ _) adds rfl above
      obtain ⟨-, rfl⟩ := stored
      obtain ⟨home, leads, -, apart⟩ := sources.of_copy single located adds.vacant
      exact ⟨grown, .inl ⟨home, grows.leads leads, apart⟩⟩

/-- The destination is not inside the directory of a template root's assets. -/
def OutsideSources (root destination : String) (d : Disk) : Prop :=
  ∀ home place, d.Leads (sourcesPath root) home → d.Leads destination place →
    ¬ (home <+: place ∧ home ≠ place)

/-- Of paths that never go up, the steps tell whether the destination is outside. -/
theorem outsideSources_of_steps {root : String} (wellFormed : d.WellFormed) (grows : Grows d now)
    (sourcesDown : ".." ∉ Path.steps (sourcesPath root)) (down : ".." ∉ Path.steps destination)
    (apart : ¬ (d.origin (sourcesPath root) ++ Path.steps (sourcesPath root) <+:
          d.origin destination ++ Path.steps destination ∧
        d.origin (sourcesPath root) ++ Path.steps (sourcesPath root) ≠
          d.origin destination ++ Path.steps destination)) :
    OutsideSources root destination now := by
  have along : ∀ path place, ".." ∉ Path.steps path → now.Leads path place →
      place = d.origin path ++ Path.steps path := by
    intro path place noAbove leads
    have start : now.origin path = d.origin path := by
      unfold Disk.origin
      rw [grows.workingDirectory]
    rw [Disk.Leads, start] at leads
    exact (Disk.walk_steps noAbove (grows.kept _ _ (wellFormed.origin path)) leads).1
  intro home place toHome toPlace
  rw [along _ home sourcesDown toHome, along _ place down toPlace]
  exact apart

/-- A source that is apart from the destination holds in the end what it held when it was copied. -/
theorem mem_assetTree_iff {last : Disk} (filled : Filled destination l written d)
    (stored : a.Stored root) (sources : SourcesApart root l d)
    (adds : Adds (l ++ [a.targetName]) d (d.putAll l (assetTree d a)))
    (distinct : last.Distinct) (grows : Grows d last) (under : Under l d last)
    (outside : OutsideSources root destination last) (entry : Location × Entry) :
    entry ∈ assetTree d a ↔ entry ∈ assetTree last a := by
  cases a with
  | actionRequired rendered => exact Iff.rfl
  | staticCopy name source =>
      have single : Path.Single name := stored.single
      obtain ⟨origin, located⟩ := located_of_adds adds
      obtain ⟨-, rfl⟩ := stored
      rw [assetTree_static located, assetTree_static (grows.spot located)]
      obtain ⟨home, leads, rfl, notBelow⟩ := sources.of_copy single located adds.vacant
      -- A source at or above the destination has the destination inside the directory of assets.
      have notAbove : ∀ more, l ≠ home ++ [name] ++ more := by
        rintro more rfl
        refine outside home _ (grows.leads leads) (grows.leads filled.placed.leads) ⟨?_, ?_⟩
        · rw [List.append_assoc]
          exact List.prefix_append home _
        · simp
      have apart : ∀ rel, ¬ l <+: (home ++ [name]) ++ rel := by
        intro rel inside
        rcases List.prefix_or_prefix_of_prefix inside (List.prefix_append _ rel) with
          above | ⟨more, same⟩
        · rcases List.prefix_concat_iff.mp above with same | further
          · exact notAbove [] (by rw [List.append_nil, same])
          · exact notBelow further
        · exact notAbove more same.symm
      have same : ∀ e, e ∈ d.below (home ++ [name]) ↔ e ∈ last.below (home ++ [name]) := by
        rintro ⟨rel, e⟩
        rw [filled.distinct.mem_below_iff, distinct.mem_below_iff, under.frame _ (apart rel)]
      simp only [List.mem_cons, List.mem_map, same]

/-- Assets that are all saved are all there in the end. -/
theorem filled_assets {as : List Asset} {last : Disk} (stored : ∀ a ∈ as, a.Stored root)
    (outside : OutsideSources root destination last) (filled : Filled destination l written d)
    (sources : SourcesApart root l d)
    (ran : (as.forM (saveAsset destination)).run d = (.ok (), last)) :
    Filled destination l (written ++ as.flatMap (assetTree last)) last := by
  induction as generalizing written d with
  | nil =>
      obtain rfl : d = last := congrArg Prod.snd ran
      rw [List.flatMap_nil, List.append_nil]
      exact filled
  | cons a rest ih =>
      -- `last` stays fixed through the induction; sources are compared with what they hold there.
      have under : Under l d last := by
        have kept := Disk.Change.preserves_forM (fun a member =>
          (staysOpen_under destination l d).saveAsset (stored a member).single) d
          ⟨filled.placed, Under.refl l d⟩
        rw [ran] at kept
        exact kept.2
      have first := stored a List.mem_cons_self
      have steps : (saveAsset destination a >>= fun _ => rest.forM (saveAsset destination)).run d =
          (.ok (), last) := ran
      have outcome := (ends_saveAsset filled.placed first.single).outcome
      rw [Disk.Change.run_bind] at steps
      rcases saved : (saveAsset destination a).run d with ⟨e | ⟨⟩, middle⟩
      · rw [saved] at steps
        cases steps
      · rw [saved] at steps outcome
        obtain ⟨adds, rfl⟩ := outcome
        obtain ⟨grown, further⟩ := filled.addAsset first sources adds rfl
        have done := ih (fun b member => stored b (List.mem_cons_of_mem a member)) grown further
          steps
        have grows : Grows d last := by
          rw [List.append_assoc] at done
          exact filled.grows done under
        have same := mem_assetTree_iff filled first sources adds done.distinct grows under outside
        refine done.congr fun entry => ?_
        simp only [List.flatMap_cons, List.mem_append, same, or_assoc]

end Assets

/-- A destination that has just been opened holds its directory of modules. -/
theorem filled_opened {base : Disk} (wellFormed : base.WellFormed) (distinct : base.Distinct)
    (reached : base.walk (base.origin destination) (Path.names destination) = .ok (.vacant l)) :
    Filled destination l [([modulesDirectory], .directory)]
      ((base.put l .directory).put (l ++ [modulesDirectory]) .directory) := by
  have vacant := (Disk.walk_vacant reached).1
  obtain ⟨placed, bare⟩ := placed_put wellFormed reached
  obtain ⟨parent, name, rfl, directory⟩ :=
    wellFormed.walk_vacant (wellFormed.origin destination) reached
  have root : Disk.entry? (base.put (parent ++ [name]) .directory) (parent ++ [name]) =
      some .directory := Disk.entry?_put_self base .directory (by simp)
  have empty : Filled destination (parent ++ [name]) [] (base.put (parent ++ [name]) .directory) := by
    refine ⟨placed, wellFormed.put directory vacant _, distinct.put _ _, root, ?_⟩
    intro rel e proper
    obtain ⟨first, more, rfl⟩ := List.exists_cons_of_ne_nil proper
    rw [bare first more]
    simp
  have above : Disk.entry? (base.put (parent ++ [name]) .directory)
      ((parent ++ [name]) ++ [modulesDirectory].dropLast) = some .directory := by
    rw [List.dropLast_singleton, List.append_nil]
    exact root
  exact (empty.grow (hangs_single _ _) (List.cons_ne_nil _ _)
    (adds_put (bare modulesDirectory []) .directory) rfl above).1

theorem distinct_createAbove (destination : String) :
    Disk.Change.Preserves Disk.Distinct (createAbove destination) :=
  preserves_createAbove (fun path (_ : True) => Disk.preserves_distinct path)
    (fun _ _ _ _ _ => True.intro) fun _ _ _ => True.intro

end Output

namespace Build

open Output
open Disk.Change (Ends)

/-- Everything below the destination of a saved run, by the steps that lead there. -/
def tree (b : Build) (d : Disk) : List (Location × Entry) :=
  [([modulesDirectory], .directory)] ++ b.modules.flatMap moduleTree ++
    b.environments.flatMap environmentTree ++ b.assets.flatMap (assetTree d)

/-- A save that succeeds has written its tree. -/
theorem ends_saveTree {b : Build} {d : Disk} {root : String} (single : b.SingleTargets)
    (stored : ∀ a ∈ b.assets, a.Stored root) (wellFormed : d.WellFormed)
    (distinct : d.Distinct) :
    Ends b.save d
      (fun _ now => OutsideSources root b.destination now →
        ∃ l, Filled b.destination l (b.tree now) now)
      (fun _ _ => True) := by
  have treeAbove := wellFormed_createAbove b.destination d wellFormed
  have distinctAbove := distinct_createAbove b.destination d distinct
  unfold save
  apply Disk.Change.ends_bind
  apply (ends_opening b.destination d rfl treeAbove).mono ?_ fun _ _ _ => True.intro
  rintro _ _ ⟨-, l, reached, rfl⟩
  have opened := filled_opened treeAbove distinctAbove reached
  apply Disk.Change.ends_bind
  apply (ends_moduleTrees single.modules (List.mem_singleton_self _) opened).mono ?_
    fun _ _ _ => True.intro
  intro _ _ withModules
  apply Disk.Change.ends_bind
  apply (ends_environmentTrees single.environments withModules).mono ?_ fun _ _ _ => True.intro
  intro _ middle withEnvironments
  apply (Disk.Change.ends_run _ middle).mono ?_ fun _ _ _ => True.intro
  intro _ now ran outside
  exact ⟨l, filled_assets stored outside withEnvironments
    (sourcesApart_of_code root withEnvironments) ran⟩

/-- The destination is a directory, and exactly this stands below it. -/
def HoldsExactly (destination : String) (now : Disk) (entries : List (Location × Entry)) : Prop :=
  ∃ place, now.Leads destination place ∧
    ∀ rel e, rel ≠ [] → ((rel, e) ∈ entries ↔ now.entry? (place ++ rel) = some e)

/-- Whatever the phases have built: when saving it succeeds, the destination is a directory below which
exactly its tree stands, unless the destination is inside the directory that assets are copied from. -/
theorem tree_progress {raw : Fields} {destination : String} {context : Context}
    {generatedAt : String} {start : Build} {d : Disk} (keyed : raw.WellKeyed)
    (started : ofConfig raw destination context generatedAt = .ok start) (calls : List Call)
    (wellFormed : d.WellFormed) (distinct : d.Distinct)
    (success : ((start.progress calls).state.save.run d).1 = .ok ())
    (outside : OutsideSources context.catalog.root destination
      ((start.progress calls).state.save.run d).2) :
    HoldsExactly destination ((start.progress calls).state.save.run d).2
      ((start.progress calls).state.tree ((start.progress calls).state.save.run d).2) := by
  have single := singleTargets_progress keyed started calls
  have results := results_progress started calls
  obtain ⟨platform, -, rfl⟩ := ofConfig_eq_ok_iff.mp started
  have same := (continues_progress (ofPlatform platform destination context generatedAt)
    calls).destination
  have outcome := (ends_saveTree single results.assets wellFormed distinct).outcome
  rw [same] at outcome
  rcases ran : ((ofPlatform platform destination context generatedAt).progress
    calls).state.save.run d with ⟨e | ⟨⟩, now⟩
  · rw [ran] at success
    cases success
  · rw [ran] at outcome outside
    obtain ⟨place, filled⟩ := outcome outside
    exact ⟨place, filled.placed.leads, filled.exact⟩

namespace Sample

/-- The template root with a directory of assets that can be copied. -/
def stocked : Disk :=
  { disk with entries := disk.entries ++
      [(["root", "extra_assets", "airflow_local"], .directory),
        (["root", "extra_assets", "airflow_local", "daily.py"], .file "run()".toUTF8)] }

theorem wellFormed_stocked : stocked.WellFormed := by
  refine Disk.wellFormed_of_entries rfl ?_
  intro e member
  simp only [stocked, disk, List.cons_append, List.nil_append, List.mem_cons, List.not_mem_nil,
    or_false] at member
  rcases member with rfl | rfl | rfl | rfl | rfl | rfl | rfl | rfl | rfl <;> rfl

theorem distinct_stocked : stocked.Distinct := by
  unfold Disk.Distinct
  decide

/-- An empty module, an environment and a directory to copy. -/
def stockedRaw : Fields :=
  [("modules", .map [("storage", .null)]), ("environments", .map [("dev", .null)]),
    ("extra_assets", .map [("airflow_local", .null)])]

theorem wellKeyed_stockedRaw : stockedRaw.WellKeyed := by
  have only : ∀ name, Value.WellKeyed (.map [(name, .null)]) := by
    intro name
    have inner : Fields.WellKeyed [(name, .null)] := Fields.wellKeyed_singleton .null
    exact inner.map
  have behind : Fields.WellKeyed [("extra_assets", .map [("airflow_local", .null)])] :=
    Fields.wellKeyed_singleton (only "airflow_local")
  exact (behind.cons (by decide) (only "dev")).cons (by decide) (only "storage")

def stockedStart : Build :=
  ofPlatform ⟨[], [], [("storage", ⟨[], []⟩)], [("dev", [])], [("airflow_local", [])], []⟩ "out"
    (context 0) "now"

def stockedCalls : List Call :=
  [⟨.modules, stocked⟩, ⟨.environments, stocked⟩, ⟨.extraAssets, stocked⟩]

end Sample

/-- The module has no declarations, so it has no file for them. -/
theorem tree_progress_stocked :
    ((Sample.stockedStart.progress Sample.stockedCalls).state.tree
        ((Sample.stockedStart.progress Sample.stockedCalls).state.save.run Sample.stocked).2).map
      (·.1) = [["modules"], ["modules", "storage"], ["modules", "storage", "main.tf"], ["dev"],
        ["dev", "main.tf"], ["airflow_local"], ["airflow_local", "daily.py"],
        ["action_required.md"]] ∧
    HoldsExactly "out"
      ((Sample.stockedStart.progress Sample.stockedCalls).state.save.run Sample.stocked).2
      ((Sample.stockedStart.progress Sample.stockedCalls).state.tree
        ((Sample.stockedStart.progress Sample.stockedCalls).state.save.run Sample.stocked).2) := by
  have started : ofConfig Sample.stockedRaw "out" (Sample.context 0) "now" =
      .ok Sample.stockedStart := Sample.ofConfig_of_ofFields rfl "out" 0
  have single := singleTargets_progress Sample.wellKeyed_stockedRaw started Sample.stockedCalls
  have grows := (confined_save single Sample.wellFormed_stocked).grows
  have outside : OutsideSources "root" "out"
      ((Sample.stockedStart.progress Sample.stockedCalls).state.save.run Sample.stocked).2 :=
    outsideSources_of_steps Sample.wellFormed_stocked grows (by decide +kernel) (by decide +kernel)
      (by decide +kernel)
  have ran :
      ((Sample.stockedStart.progress Sample.stockedCalls).state.save.run Sample.stocked).1 =
        .ok () ∧
      ((Sample.stockedStart.progress Sample.stockedCalls).state.tree
        ((Sample.stockedStart.progress Sample.stockedCalls).state.save.run Sample.stocked).2).map
      (·.1) = [["modules"], ["modules", "storage"], ["modules", "storage", "main.tf"], ["dev"],
        ["dev", "main.tf"], ["airflow_local"], ["airflow_local", "daily.py"],
        ["action_required.md"]] := by
    decide +kernel
  exact ⟨ran.2, tree_progress Sample.wellKeyed_stockedRaw started Sample.stockedCalls
    Sample.wellFormed_stocked Sample.distinct_stocked ran.1 outside⟩

end Build

end Groundwork
