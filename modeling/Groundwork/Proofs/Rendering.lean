import Groundwork.Jinja.Render
import Groundwork.Proofs.Outcome

set_option autoImplicit false

/- What running a template can touch. Whatever runs, the text only grows, and of the scopes only the
innermost one can change; nothing but an assignment changes even that one, for a loop closes the
scope that it opens. So the parts of a template that assign nothing can be run one by one, and each
loop round by round. -/
namespace Groundwork.Jinja

namespace Node

mutual

/-- Whether a name may be assigned in the scope that the node is run in. A loop's body has another one. -/
def assigns : Node → Bool
  | .text _ => false
  | .output _ => false
  | .choose _ yes no => anyAssigns yes || anyAssigns no
  | .each _ _ _ empty => anyAssigns empty
  | .assign _ _ => true

def anyAssigns : List Node → Bool
  | [] => false
  | n :: rest => assigns n || anyAssigns rest

end

end Node

namespace Render

variable {α β : Type}

theorem run_bind_eq_ok_iff {x : Render α} {f : α → Render β} {r last : Rendering} {b : β} :
    (x >>= f).run r = .ok (b, last) ↔
      ∃ a now, x.run r = .ok (a, now) ∧ (f a).run now = .ok (b, last) := by
  have steps : (x >>= f).run r = x.run r >>= fun p => (f p.1).run p.2 := rfl
  rw [steps, Except.bind_eq_ok_iff, Prod.exists]

theorem run_pure_eq_ok_iff {a b : α} {r last : Rendering} :
    (pure a : Render α).run r = .ok (b, last) ↔ b = a ∧ last = r := by
  have done : (pure a : Render α).run r = .ok (a, r) := rfl
  rw [done, Except.ok.injEq, Prod.mk.injEq, eq_comm, eq_comm (a := r)]

theorem run_write (s out : String) (scopes : List Scope) :
    (write s).run ⟨scopes, out⟩ = .ok ((), ⟨scopes, out ++ s⟩) := rfl

theorem run_evaluate (e : Expr) (r : Rendering) :
    (evaluate e).run r = (e.eval r.scopes).map (·, r) := by
  have steps : (evaluate e).run r = e.eval r.scopes >>= fun v => pure (v, r) := rfl
  rw [steps]
  cases e.eval r.scopes <;> rfl

theorem run_evaluate_eq_ok_iff {e : Expr} {r last : Rendering} {v : Value} :
    (evaluate e).run r = .ok (v, last) ↔ e.eval r.scopes = .ok v ∧ last = r := by
  rw [run_evaluate, Except.map_eq_ok_iff]
  constructor
  · rintro ⟨w, found, same⟩
    cases same
    exact ⟨found, rfl⟩
  · rintro ⟨found, rfl⟩
    exact ⟨v, found, rfl⟩

theorem run_modifyScope (f : Scope → Scope) (s : Scope) (rest : List Scope) (out : String) :
    (modifyScope f).run ⟨s :: rest, out⟩ = .ok ((), ⟨f s :: rest, out⟩) := rfl

/-- Only the innermost scope may change, and the text only grows. -/
def Frames (m : Render α) : Prop :=
  ∀ s rest out a r, m.run ⟨s :: rest, out⟩ = .ok (a, r) →
    ∃ s' text, r = ⟨s' :: rest, out ++ text⟩

/-- No scope changes, and the text only grows. -/
def Keeps (m : Render α) : Prop :=
  ∀ scopes out a r, m.run ⟨scopes, out⟩ = .ok (a, r) → ∃ text, r = ⟨scopes, out ++ text⟩

theorem Keeps.frames {m : Render α} (keeps : Keeps m) : Frames m := by
  intro s rest out a r run
  obtain ⟨text, rfl⟩ := keeps _ _ _ _ run
  exact ⟨s, text, rfl⟩

theorem Frames.bind {x : Render α} {f : α → Render β} (first : Frames x)
    (next : ∀ a, Frames (f a)) : Frames (x >>= f) := by
  intro s rest out b r run
  obtain ⟨a, now, here, run⟩ := run_bind_eq_ok_iff.mp run
  obtain ⟨s', text, rfl⟩ := first _ _ _ _ _ here
  obtain ⟨s'', more, rfl⟩ := next a _ _ _ _ _ run
  exact ⟨s'', text ++ more, by rw [String.append_assoc]⟩

theorem Keeps.bind {x : Render α} {f : α → Render β} (first : Keeps x)
    (next : ∀ a, Keeps (f a)) : Keeps (x >>= f) := by
  intro scopes out b r run
  obtain ⟨a, now, here, run⟩ := run_bind_eq_ok_iff.mp run
  obtain ⟨text, rfl⟩ := first _ _ _ _ here
  obtain ⟨more, rfl⟩ := next a _ _ _ _ run
  exact ⟨text ++ more, by rw [String.append_assoc]⟩

theorem keeps_pure (a : α) : Keeps (pure a : Render α) := by
  intro scopes out b r run
  obtain ⟨-, rfl⟩ := run_pure_eq_ok_iff.mp run
  exact ⟨"", by rw [String.append_empty]⟩

theorem keeps_throw (e : Fault) : Keeps (throw e : Render α) := by
  intro scopes out b r run
  cases run

theorem keeps_write (s : String) : Keeps (write s) := by
  intro scopes out u r run
  rw [run_write] at run
  cases run
  exact ⟨s, rfl⟩

theorem keeps_evaluate (e : Expr) : Keeps (evaluate e) := by
  intro scopes out v r run
  obtain ⟨-, rfl⟩ := run_evaluate_eq_ok_iff.mp run
  exact ⟨"", by rw [String.append_empty]⟩

theorem frames_modifyScope (f : Scope → Scope) : Frames (modifyScope f) := by
  intro s rest out u r run
  rw [run_modifyScope] at run
  cases run
  exact ⟨f s, "", by rw [String.append_empty]⟩

theorem frames_forM {γ : Type} {f : γ → Render Unit} (each : ∀ x, Frames (f x)) (xs : List γ) :
    Frames (xs.forM f) := by
  induction xs with
  | nil => exact (keeps_pure ()).frames
  | cons x rest ih => exact (each x).bind fun _ => ih

theorem frames_bind (targets : List String) (v : Value) (line : Nat) :
    Frames (Render.bind targets v line) := by
  unfold Render.bind
  split
  · exact frames_modifyScope _
  · split
    · exact (keeps_throw _).frames
    · split
      · exact frames_forM (fun p => frames_modifyScope _) _
      · exact (keeps_throw _).frames

theorem Frames.rounds {body : Render Unit} (frames : Frames body) (targets : List String)
    (line size index : Nat) (previous : Option Value) (vs : List Value) :
    Frames (rounds targets line size body index previous vs) := by
  induction vs generalizing index previous with
  | nil => exact (keeps_pure ()).frames
  | cons v rest ih =>
      refine (frames_modifyScope _).bind fun _ => (frames_bind targets v line).bind fun _ => ?_
      exact frames.bind fun _ => ih (index + 1) v

/-- A loop's scope is gone behind it. -/
theorem Frames.loop {body : Render Unit} (frames : Frames body) (targets : List String)
    (line : Nat) (vs : List Value) : Keeps (loop targets line body vs) := by
  intro scopes out u r run
  obtain ⟨_, opened, first, run⟩ := run_bind_eq_ok_iff.mp run
  cases first
  obtain ⟨_, done, visited, closed⟩ := run_bind_eq_ok_iff.mp run
  obtain ⟨s', text, rfl⟩ :=
    frames.rounds targets line vs.length 0 none vs _ _ _ _ _ visited
  cases closed
  exact ⟨text, rfl⟩

mutual

theorem frames_node (n : Node) : Frames (node n) := by
  match n with
  | .text s => exact (keeps_write s).frames
  | .output e => exact (keeps_evaluate e).frames.bind fun v => (keeps_write _).frames
  | .choose condition yes no =>
      refine (keeps_evaluate condition).frames.bind fun v => ?_
      split
      · exact frames_all yes
      · exact frames_all no
  | .each targets items body empty =>
      refine (keeps_evaluate items).frames.bind fun v => ?_
      split
      · exact (keeps_throw _).frames
      · exact frames_all empty
      · exact ((frames_all body).loop _ _ _).frames
  | .assign targets e => exact (keeps_evaluate e).frames.bind fun v => frames_bind _ _ _

theorem frames_all (nodes : List Node) : Frames (all nodes) := by
  match nodes with
  | [] => exact (keeps_pure ()).frames
  | n :: rest => exact (frames_node n).bind fun _ => frames_all rest

end

mutual

theorem keeps_node (n : Node) (plain : n.assigns = false) : Keeps (node n) := by
  match n with
  | .text s => exact keeps_write s
  | .output e => exact (keeps_evaluate e).bind fun v => keeps_write _
  | .choose condition yes no =>
      obtain ⟨first, second⟩ := Bool.or_eq_false_iff.mp plain
      refine (keeps_evaluate condition).bind fun v => ?_
      split
      · exact keeps_all yes first
      · exact keeps_all no second
  | .each targets items body empty =>
      refine (keeps_evaluate items).bind fun v => ?_
      split
      · exact keeps_throw _
      · exact keeps_all empty plain
      · exact (frames_all body).loop _ _ _

theorem keeps_all (nodes : List Node) (plain : Node.anyAssigns nodes = false) :
    Keeps (all nodes) := by
  match nodes with
  | [] => exact keeps_pure ()
  | n :: rest =>
      obtain ⟨first, others⟩ := Bool.or_eq_false_iff.mp plain
      exact (keeps_node n first).bind fun _ => keeps_all rest others

end

theorem run_all_append_eq_ok_iff {front back : List Node} {r last : Rendering} :
    (all (front ++ back)).run r = .ok ((), last) ↔
      ∃ now, (all front).run r = .ok ((), now) ∧ (all back).run now = .ok ((), last) := by
  induction front generalizing r with
  | nil =>
      constructor
      · exact fun run => ⟨r, rfl, run⟩
      · rintro ⟨now, first, run⟩
        cases first
        exact run
  | cons n rest ih =>
      have single {nodes : List Node} {last : Rendering} :
          (all (n :: nodes)).run r = .ok ((), last) ↔
            ∃ now, (node n).run r = .ok ((), now) ∧ (all nodes).run now = .ok ((), last) := by
        rw [all, run_bind_eq_ok_iff]
        exact ⟨fun ⟨_, steps⟩ => steps, fun steps => ⟨(), steps⟩⟩
      rw [List.cons_append, single]
      constructor
      · rintro ⟨now, first, run⟩
        obtain ⟨middle, others, run⟩ := ih.mp run
        exact ⟨middle, single.mpr ⟨now, first, others⟩, run⟩
      · rintro ⟨middle, run, behind⟩
        obtain ⟨now, first, others⟩ := single.mp run
        exact ⟨now, first, ih.mpr ⟨middle, others, behind⟩⟩

end Render

theorem renderIn_eq_ok_iff {context : List (String × Value)} {source text : String}
    {nodes : List Node} (parsed : Node.parse source = .ok nodes) :
    renderIn context source = .ok text ↔
      ∃ scopes, (Render.all nodes).run ⟨[⟨context, none⟩], ""⟩ = .ok ((), ⟨scopes, text⟩) := by
  unfold renderIn
  rw [parsed, Except.bind_eq_ok_iff]
  constructor
  · rintro ⟨_, same, success⟩
    cases same
    obtain ⟨⟨_, r⟩, run, rfl⟩ := Except.bind_pure_eq_ok_iff.mp success
    exact ⟨r.scopes, run⟩
  · rintro ⟨scopes, run⟩
    exact ⟨nodes, rfl, Except.bind_pure_eq_ok_iff.mpr ⟨_, run, rfl⟩⟩

namespace Scope

theorem get?_set_self (s : Scope) (name : String) (v : Value) :
    (s.set name v).get? name = some v := by
  unfold get? set
  rw [List.lookup_cons_self]
  rfl

theorem get?_set_of_ne (s : Scope) {name other : String} (v : Value) (apart : name ≠ other) :
    (s.set name v).get? other = s.get? other := by
  have kept : List.lookup other (s.locals.filter (·.1 ≠ name)) = List.lookup other s.locals := by
    induction s.locals with
    | nil => rfl
    | cons entry rest ih =>
        by_cases same : entry.1 = name
        · have passed : (other == entry.1) = false := by
            rw [same]
            exact beq_false_of_ne (Ne.symm apart)
          rw [List.filter_cons_of_neg (by simpa using same), List.lookup_cons, passed, ih]
        · rw [List.filter_cons_of_pos (by simpa using same), List.lookup_cons, List.lookup_cons, ih]
  have passed : (other == name) = false := beq_false_of_ne (Ne.symm apart)
  unfold get? set
  rw [List.lookup_cons, passed, kept]

/-- Assigns names in order. -/
def assign (s : Scope) (entries : List (String × Value)) : Scope :=
  entries.foldl (fun s p => s.set p.1 p.2) s

theorem get?_assign_of_absent (s : Scope) {entries : List (String × Value)} {name : String}
    (absent : name ∉ entries.map (·.1)) : (s.assign entries).get? name = s.get? name := by
  induction entries generalizing s with
  | nil => rfl
  | cons p rest ih =>
      have first : name ≠ p.1 := List.ne_of_not_mem_cons absent
      have others := List.not_mem_of_not_mem_cons absent
      exact (ih (s.set p.1 p.2) others).trans (get?_set_of_ne s p.2 (Ne.symm first))

theorem get?_assign_of_mem (s : Scope) {entries : List (String × Value)}
    (distinct : (entries.map (·.1)).Nodup) {p : String × Value} (member : p ∈ entries) :
    (s.assign entries).get? p.1 = some p.2 := by
  induction entries generalizing s with
  | nil => cases member
  | cons q rest ih =>
      obtain ⟨single, later⟩ := List.nodup_cons.mp distinct
      rcases List.mem_cons.mp member with rfl | member
      · exact (get?_assign_of_absent (s.set p.1 p.2) single).trans (get?_set_self s p.1 p.2)
      · exact ih (s.set q.1 q.2) later member

/-- The names of a scope, up to `loop`, and what they stand for. -/
structure Holds (s : Scope) (entries : List (String × Value)) : Prop where
  found : ∀ p ∈ entries, s.get? p.1 = some p.2
  others : ∀ name, name ≠ "loop" → name ∉ entries.map (·.1) → s.get? name = none

theorem lookup_of_some {s : Scope} {name : String} {v : Value} (found : s.get? name = some v)
    (rest : List Scope) : lookup (s :: rest) name = some v := by
  rw [lookup, List.findSome?_cons, found]

theorem lookup_of_none {s : Scope} {name : String} (absent : s.get? name = none)
    (rest : List Scope) : lookup (s :: rest) name = lookup rest name := by
  rw [lookup, List.findSome?_cons, absent]
  rfl

end Scope

namespace Expr

variable {scopes : List Scope} {base : Expr}

theorem eval_var {name : String} {v : Value} (found : Scope.lookup scopes name = some v)
    (line : Nat) : (Expr.var name line).eval scopes = .ok v := by
  rw [eval, found, Option.getD_some]

theorem eval_attribute {entries : List (Value × Value)} {name : String} {v : Value}
    (mapping : base.eval scopes = .ok (.map entries))
    (found : Value.entry? entries (.text name) = some v) :
    (Expr.attribute base name).eval scopes = .ok v := by
  rw [eval, mapping]
  have answer : attributeOf (.map entries) name = .ok v := by
    rw [attributeOf, found, Option.getD_some]
  exact congrArg (onLine (lastLine base)) answer

theorem eval_items {entries : List (Value × Value)} (mapping : base.eval scopes = .ok (.map entries)) :
    (Expr.filter base "items" []).eval scopes =
      .ok (.list (entries.map fun e => .list [e.1, e.2])) := by
  rw [eval, mapping]
  rfl

theorem eval_contains {item container : Expr} {v w : Value} {b : Bool}
    (first : item.eval scopes = .ok v) (second : container.eval scopes = .ok w)
    (answer : containedIn v w = .ok b) :
    (Expr.binary .contains item container).eval scopes = .ok (.bool b) := by
  rw [eval, first, second]
  have applied : BinaryOp.contains.apply v w = .ok (.bool b) := by
    rw [BinaryOp.apply, answer]
    rfl
  exact congrArg (onLine (lastLine container)) applied

end Expr

namespace Render

/-- The names that a loop binds in a round, if the visited value has as many parts as it has targets. -/
def bound? (targets : List String) (v : Value) : Option (List (String × Value)) :=
  match targets with
  | [name] => some [(name, v)]
  | names => v.parts?.bind fun parts =>
      if parts.length = names.length then some (names.zip parts) else none

theorem names_bound {targets : List String} {v : Value} {entries : List (String × Value)}
    (bound : bound? targets v = some entries) : entries.map (·.1) = targets := by
  unfold bound? at bound
  split at bound
  · cases bound
    rfl
  · obtain ⟨parts, -, paired⟩ := Option.bind_eq_some_iff.mp bound
    split at paired
    · rename_i same
      cases paired
      exact List.map_fst_zip (Nat.le_of_eq same.symm)
    · cases paired

theorem run_forM_set (entries : List (String × Value)) (s : Scope) (rest : List Scope)
    (out : String) :
    (entries.forM fun p => modifyScope (·.set p.1 p.2)).run ⟨s :: rest, out⟩ =
      .ok ((), ⟨s.assign entries :: rest, out⟩) := by
  induction entries generalizing s with
  | nil => rfl
  | cons p others ih => exact ih (s.set p.1 p.2)

theorem run_bind_of_bound {targets : List String} {v : Value} {entries : List (String × Value)}
    (bound : bound? targets v = some entries) (line : Nat) (s : Scope) (rest : List Scope)
    (out : String) :
    (Render.bind targets v line).run ⟨s :: rest, out⟩ =
      .ok ((), ⟨s.assign entries :: rest, out⟩) := by
  unfold bound? at bound
  unfold Render.bind
  split at bound
  · cases bound
    rfl
  · obtain ⟨parts, found, paired⟩ := Option.bind_eq_some_iff.mp bound
    split at paired
    · rename_i same
      cases paired
      simp only [found, if_pos same]
      exact run_forM_set _ s rest out
    · cases paired

/-- Run in these scopes, the node writes this text and does nothing else. -/
def Writes (scopes : List Scope) (n : Node) (text : String) : Prop :=
  ∀ out, (node n).run ⟨scopes, out⟩ = .ok ((), ⟨scopes, out ++ text⟩)

def WritesAll (scopes : List Scope) (nodes : List Node) (text : String) : Prop :=
  ∀ out, (all nodes).run ⟨scopes, out⟩ = .ok ((), ⟨scopes, out ++ text⟩)

theorem writesAll_nil (scopes : List Scope) : WritesAll scopes [] "" := by
  intro out
  rw [String.append_empty]
  rfl

theorem Writes.cons {scopes : List Scope} {n : Node} {rest : List Node} {text more : String}
    (first : Writes scopes n text) (others : WritesAll scopes rest more) :
    WritesAll scopes (n :: rest) (text ++ more) := by
  intro out
  rw [← String.append_assoc]
  exact run_bind_eq_ok_iff.mpr ⟨(), _, first out, others _⟩

theorem writes_text (scopes : List Scope) (s : String) : Writes scopes (.text s) s :=
  fun _ => rfl

theorem writes_output {scopes : List Scope} {e : Expr} {v : Value} (found : e.eval scopes = .ok v) :
    Writes scopes (.output e) v.printed := fun out =>
  run_bind_eq_ok_iff.mpr ⟨v, _, run_evaluate_eq_ok_iff.mpr ⟨found, rfl⟩, run_write _ out scopes⟩

theorem writes_choose {scopes : List Scope} {condition : Expr} {yes no : List Node} {v : Value}
    {text : String} (found : condition.eval scopes = .ok v)
    (chosen : WritesAll scopes (if v.isTrue then yes else no) text) :
    Writes scopes (.choose condition yes no) text := by
  intro out
  refine run_bind_eq_ok_iff.mpr ⟨v, _, run_evaluate_eq_ok_iff.mpr ⟨found, rfl⟩, ?_⟩
  have run := chosen out
  split at run
  · rename_i holds
    rw [if_pos holds]
    exact run
  · rename_i fails
    rw [if_neg fails]
    exact run

section Loop

variable {γ : Type} {targets : List String} {body : List Node} {scopes : List Scope}
  {visited : γ → Value} {text : γ → String} {xs : List γ}

/-- In each round the scope of a loop has the names that this round binds, whatever an earlier one left. -/
theorem run_rounds (distinct : targets.Nodup)
    (round : ∀ x ∈ xs, ∃ entries, bound? targets (visited x) = some entries ∧
      ∀ s, Scope.Holds s entries → WritesAll (s :: scopes) body (text x))
    (line size index : Nat) (previous : Option Value) {s : Scope} (out : String)
    (clean : ∀ name, name ≠ "loop" → name ∉ targets → s.get? name = none) :
    ∃ s', (rounds targets line size (all body) index previous (xs.map visited)).run ⟨s :: scopes, out⟩ =
      .ok ((), ⟨s' :: scopes, out ++ String.join (xs.map text)⟩) := by
  induction xs generalizing index previous s out with
  | nil => exact ⟨s, by rw [List.map_nil, List.map_nil, String.join_nil, String.append_empty]; rfl⟩
  | cons x others ih =>
      obtain ⟨first, later⟩ := List.forall_mem_cons.mp round
      obtain ⟨entries, bound, run⟩ := first
      have names := names_bound bound
      let looped : Scope :=
        { s with loop := some (loopValue index size previous (others.map visited).head?) }
      have still : ∀ name, name ≠ "loop" → looped.get? name = s.get? name := by
        intro name other
        unfold Scope.get?
        rw [if_neg other, if_neg other]
      have holds : Scope.Holds (looped.assign entries) entries := by
        refine ⟨fun p => Scope.get?_assign_of_mem looped (names ▸ distinct), fun name other absent => ?_⟩
        rw [Scope.get?_assign_of_absent looped absent, still name other]
        exact clean name other (names ▸ absent)
      obtain ⟨s', more⟩ := ih later (index + 1) (visited x) (out ++ text x) fun name other absent =>
        holds.others name other (names ▸ absent)
      refine ⟨s', ?_⟩
      rw [List.map_cons, List.map_cons, String.join_cons, ← String.append_assoc]
      refine run_bind_eq_ok_iff.mpr ⟨(), _, run_modifyScope _ s scopes out, ?_⟩
      refine run_bind_eq_ok_iff.mpr ⟨(), _, run_bind_of_bound bound line looped scopes out, ?_⟩
      exact run_bind_eq_ok_iff.mpr ⟨(), _, run _ holds out, more⟩

/-- A loop writes what its rounds write. -/
theorem writes_each {items : Expr} {v : Value} (distinct : targets.Nodup)
    (found : items.eval scopes = .ok v) (visits : v.visits? = some (xs.map visited))
    (round : ∀ x ∈ xs, ∃ entries, bound? targets (visited x) = some entries ∧
      ∀ s, Scope.Holds s entries → WritesAll (s :: scopes) body (text x)) :
    Writes scopes (.each targets items body []) (String.join (xs.map text)) := by
  intro out
  refine run_bind_eq_ok_iff.mpr ⟨v, _, run_evaluate_eq_ok_iff.mpr ⟨found, rfl⟩, ?_⟩
  rw [visits]
  cases xs with
  | nil =>
      rw [List.map_nil, List.map_nil, String.join_nil, String.append_empty]
      rfl
  | cons first rest =>
      have clean : ∀ name, name ≠ "loop" → name ∉ targets →
          Scope.get? ⟨[], none⟩ name = none := by
        intro name other _
        unfold Scope.get?
        rw [if_neg other]
        rfl
      obtain ⟨s', run⟩ := run_rounds distinct round items.lastLine
        ((first :: rest).map visited).length 0 none out clean
      refine run_bind_eq_ok_iff.mpr ⟨(), ⟨⟨[], none⟩ :: scopes, out⟩, rfl, ?_⟩
      exact run_bind_eq_ok_iff.mpr ⟨(), _, run, rfl⟩

end Loop

end Render

namespace Value

theorem eqv_text (s t : String) : eqv (.text s) (.text t) = decide (s = t) := by
  rw [eqv]

theorem ofConfigFields_eq_map (fields : Fields) :
    ofConfigFields fields = fields.map fun e => (.text e.1, ofConfig e.2) := by
  induction fields with
  | nil => rfl
  | cons e rest ih => rw [ofConfigFields, ih, List.map_cons]

theorem ofConfigItems_eq_map (items : List Groundwork.Value) :
    ofConfigItems items = items.map ofConfig := by
  induction items with
  | nil => rfl
  | cons v rest ih => rw [ofConfigItems, ih, List.map_cons]

theorem entry?_ofConfigFields (fields : Fields) (key : String) :
    entry? (ofConfigFields fields) (.text key) = (fields.get? key).map ofConfig := by
  induction fields with
  | nil => rfl
  | cons e rest ih =>
      unfold entry? at ih ⊢
      rw [ofConfigFields, List.find?_cons, eqv_text, Dict.get?]
      by_cases same : e.1 = key
      · rw [decide_eq_true same, if_pos same]
        rfl
      · rw [decide_eq_false same, if_neg same]
        exact ih

theorem ofConfig_ofNames (names : List String) :
    ofConfig (.list (names.map .string)) = .list (names.map .text) := by
  rw [ofConfig, ofConfigItems_eq_map, List.map_map]
  exact congrArg Value.list (List.map_congr_left fun name _ => rfl)

end Value

theorem containedIn_texts (name : String) (names : List String) :
    containedIn (.text name) (.list (names.map .text)) = .ok (decide (name ∈ names)) := by
  have same : (names.map Value.text).any (·.eqv (.text name)) = decide (name ∈ names) := by
    induction names with
    | nil => rfl
    | cons first rest ih =>
        rw [List.map_cons, List.any_cons, ih, Value.eqv_text, ← Bool.decide_or]
        exact decide_eq_decide.mpr ((or_congr_left eq_comm).trans List.mem_cons.symm)
  rw [containedIn, same]

end Groundwork.Jinja
