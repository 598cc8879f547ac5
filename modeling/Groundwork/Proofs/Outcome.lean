set_option autoImplicit false

/- Chains of steps that may fail. A chain succeeds exactly when each of its steps does. -/
namespace Except

variable {ε δ α β : Type}

theorem bind_eq_ok_iff {x : Except ε α} {f : α → Except ε β} {b : β} :
    (x >>= f) = .ok b ↔ ∃ a, x = .ok a ∧ f a = .ok b := by
  constructor
  · intro success
    cases x with
    | error e => cases success
    | ok a => exact ⟨a, rfl, success⟩
  · rintro ⟨a, rfl, success⟩
    exact success

/-- A chain fails with the failure of its first step that has one. -/
theorem bind_eq_error_iff {x : Except ε α} {f : α → Except ε β} {e : ε} :
    (x >>= f) = .error e ↔ x = .error e ∨ ∃ a, x = .ok a ∧ f a = .error e := by
  cases x with
  | error d =>
      constructor
      · intro failed
        exact .inl (congrArg Except.error (Except.error.inj failed))
      · rintro (failed | ⟨a, success, -⟩)
        · exact congrArg Except.error (Except.error.inj failed)
        · cases success
  | ok a =>
      constructor
      · intro failed
        exact .inr ⟨a, rfl, failed⟩
      · rintro (failed | ⟨b, success, failed⟩)
        · cases failed
        · cases success
          exact failed

/-- A step followed by a computation that cannot fail. -/
theorem bind_pure_eq_ok_iff {x : Except ε α} {f : α → β} {b : β} :
    (x >>= fun a => pure (f a)) = .ok b ↔ ∃ a, x = .ok a ∧ f a = b := by
  rw [bind_eq_ok_iff]
  constructor
  · rintro ⟨a, found, same⟩
    exact ⟨a, found, Except.ok.inj same⟩
  · rintro ⟨a, found, rfl⟩
    exact ⟨a, found, rfl⟩

theorem map_eq_ok_iff {x : Except ε α} {f : α → β} {b : β} :
    x.map f = .ok b ↔ ∃ a, x = .ok a ∧ f a = b := by
  constructor
  · intro success
    cases x with
    | error e => cases success
    | ok a => exact ⟨a, rfl, Except.ok.inj success⟩
  · rintro ⟨a, rfl, rfl⟩
    rfl

/-- Renaming failures turns none of them into a success. -/
theorem mapError_eq_ok_iff {x : Except ε α} {f : ε → δ} {a : α} :
    x.mapError f = .ok a ↔ x = .ok a := by
  constructor
  · intro success
    cases x with
    | error e => cases success
    | ok b => exact congrArg Except.ok (Except.ok.inj success)
  · rintro rfl
    rfl

/-- Every element of a list that is gone through has its result among the results. -/
theorem exists_of_mapM_eq_ok {f : α → Except ε β} {xs : List α} {ys : List β}
    (success : xs.mapM f = .ok ys) {x : α} (member : x ∈ xs) : ∃ y ∈ ys, f x = .ok y := by
  induction xs generalizing ys with
  | nil => cases member
  | cons first rest ih =>
      rw [List.mapM_cons] at success
      obtain ⟨y, found, success⟩ := bind_eq_ok_iff.mp success
      obtain ⟨others, more, rfl⟩ := bind_pure_eq_ok_iff.mp success
      rcases List.mem_cons.mp member with rfl | member
      · exact ⟨y, List.mem_cons_self, found⟩
      · obtain ⟨z, there, known⟩ := ih more member
        exact ⟨z, List.mem_cons_of_mem y there, known⟩

theorem bind_pure_eq_error_iff {x : Except ε α} {f : α → β} {e : ε} :
    (x >>= fun a => pure (f a)) = .error e ↔ x = .error e := by
  cases x with
  | error d => exact ⟨fun failed => congrArg Except.error (Except.error.inj failed),
      fun failed => congrArg Except.error (Except.error.inj failed)⟩
  | ok a => exact ⟨fun failed => (nomatch failed), fun failed => nomatch failed⟩

theorem map_eq_error_iff {x : Except ε α} {f : α → β} {e : ε} :
    x.map f = .error e ↔ x = .error e := by
  cases x with
  | error d => exact ⟨fun failed => congrArg Except.error (Except.error.inj failed),
      fun failed => congrArg Except.error (Except.error.inj failed)⟩
  | ok a => exact ⟨fun failed => (nomatch failed), fun failed => nomatch failed⟩

theorem map_bind_pure {γ : Type} (x : Except ε α) (f : α → β) (g : β → γ) :
    (x >>= fun a => pure (f a)).map g = x >>= fun a => pure (g (f a)) := by
  cases x <;> rfl

theorem mapM_eq_ok_of_forall {f : α → Except ε β} {g : α → β} {xs : List α}
    (each : ∀ x ∈ xs, f x = .ok (g x)) : xs.mapM f = .ok (xs.map g) := by
  induction xs with
  | nil => rfl
  | cons first rest ih =>
      obtain ⟨here, later⟩ := List.forall_mem_cons.mp each
      rw [List.mapM_cons, here, ih later]
      rfl

theorem mapM_congr {f g : α → Except ε β} {xs : List α} (same : ∀ x ∈ xs, f x = g x) :
    xs.mapM f = xs.mapM g := by
  induction xs with
  | nil => rfl
  | cons first rest ih =>
      obtain ⟨here, later⟩ := List.forall_mem_cons.mp same
      rw [List.mapM_cons, List.mapM_cons, here, ih later]

/-- Going through a list fails with the failure of the first element that has one. -/
theorem mapM_eq_error_iff {f : α → Except ε β} {xs : List α} {e : ε} :
    xs.mapM f = .error e ↔ ∃ before x after, xs = before ++ x :: after ∧
      (∀ y ∈ before, ∃ b, f y = .ok b) ∧ f x = .error e := by
  induction xs with
  | nil =>
      refine ⟨fun failed => (nomatch failed), ?_⟩
      rintro ⟨before, x, after, whole, -⟩
      exact absurd whole.symm (List.append_ne_nil_of_right_ne_nil before (List.cons_ne_nil x after))
  | cons first rest ih =>
      rw [List.mapM_cons]
      rcases here : f first with d | b
      · constructor
        · intro failed
          cases failed
          exact ⟨[], first, rest, rfl, fun _ member => (nomatch member), here⟩
        · rintro ⟨before, x, after, whole, passed, failed⟩
          cases before with
          | nil =>
              rw [List.nil_append] at whole
              rw [← (List.cons.inj whole).1, here] at failed
              exact congrArg Except.error (Except.error.inj failed)
          | cons y before =>
              obtain ⟨b, success⟩ := passed y List.mem_cons_self
              rw [← (List.cons.inj whole).1, here] at success
              cases success
      · have step : ((.ok b : Except ε β) >>= fun y => rest.mapM f >>= fun ys => pure (y :: ys)) =
            (rest.mapM f >>= fun ys => pure (b :: ys)) := rfl
        rw [step, bind_pure_eq_error_iff, ih]
        constructor
        · rintro ⟨before, x, after, rfl, passed, failed⟩
          exact ⟨first :: before, x, after, rfl,
            List.forall_mem_cons.mpr ⟨⟨b, here⟩, passed⟩, failed⟩
        · rintro ⟨before, x, after, whole, passed, failed⟩
          cases before with
          | nil =>
              rw [List.nil_append] at whole
              rw [← (List.cons.inj whole).1, here] at failed
              cases failed
          | cons y before =>
              exact ⟨before, x, after, (List.cons.inj whole).2,
                (List.forall_mem_cons.mp passed).2, failed⟩

/-- If it fails, then in one of these ways. -/
def FailsOnly (P : ε → Prop) (x : Except ε α) : Prop := ∀ e, x = .error e → P e

variable {P : ε → Prop}

theorem failsOnly_ok (a : α) : FailsOnly P (.ok a : Except ε α) := fun _ failed => nomatch failed

theorem failsOnly_error {e : ε} (reason : P e) : FailsOnly P (.error e : Except ε α) :=
  fun _ failed => Except.error.inj failed ▸ reason

theorem failsOnly_mapError {f : δ → ε} (each : ∀ e, P (f e)) (x : Except δ α) :
    FailsOnly P (x.mapError f) := by
  cases x with
  | error e => exact failsOnly_error (each e)
  | ok a => exact failsOnly_ok a

theorem FailsOnly.bind {x : Except ε α} {f : α → Except ε β} (first : FailsOnly P x)
    (next : ∀ a, FailsOnly P (f a)) : FailsOnly P (x >>= f) := by
  cases x with
  | error e => exact failsOnly_error (first e rfl)
  | ok a => exact next a

theorem FailsOnly.bind_pure {x : Except ε α} (first : FailsOnly P x) (f : α → β) :
    FailsOnly P (x >>= fun a => pure (f a)) := first.bind fun a => failsOnly_ok (f a)

end Except

namespace ExceptT

variable {ε σ α β : Type}

/-- Over a state, the second step starts where the first one ended, and a failure keeps the state that
it was met in. -/
theorem run_bind_apply (x : ExceptT ε (StateM σ) α) (next : α → ExceptT ε (StateM σ) β) (s : σ) :
    (x >>= next).run s =
      match x.run s with
      | (.ok a, now) => (next a).run now
      | (.error e, now) => (.error e, now) := by
  have unfolded : (x >>= next).run s = ExceptT.bindCont next (x.run s).1 (x.run s).2 := rfl
  rw [unfolded]
  rcases x.run s with ⟨_ | a, now⟩ <;> rfl

end ExceptT
