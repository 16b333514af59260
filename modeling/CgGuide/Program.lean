/-
Programs that mutate a state and may throw.

`EStateM ε σ` is the core library's monad for them: an exception leaves the
state as the program had it at the throw, so a program's effect is visible
whether it returned or not. This file adds the two readings a verification
needs of such a program, its outcome and the state it leaves, and the rules for
proving something about *every* way it can end: `Triple P x Q E` says that `x`,
run from a state with `P`, ends with `Q` when it returns and with `E` when it
throws. Each construct has its rule; the one for a loop over a list
(`Triple.forM`) speaks of the elements that are left.
-/
set_option autoImplicit false

namespace CgGuide.Program

variable {ε σ α β : Type}

/-! ## Running -/

@[simp] theorem run_map (f : α → β) (x : EStateM ε σ α) (s : σ) :
    (f <$> x).run s = match x.run s with
      | .ok a s' => .ok (f a) s'
      | .error e s' => .error e s' := rfl

@[simp] theorem run_throw (e : ε) (s : σ) : (throw e : EStateM ε σ α).run s = .error e s := rfl

/-- `run` passes through a test. -/
@[simp] theorem run_ite (p : Prop) [Decidable p] (x y : EStateM ε σ α) (s : σ) :
    (if p then x else y).run s = if p then x.run s else y.run s := by
  split <;> rfl

/-- The outcome of a run: what the caller gets, and the state left behind. -/
def outcome (x : EStateM ε σ α) (s : σ) : Except ε α × σ :=
  match x.run s with
  | .ok a s' => (.ok a, s')
  | .error e s' => (.error e, s')

theorem outcome_eq_of_run_ok {x : EStateM ε σ α} {s s' : σ} {a : α} (h : x.run s = .ok a s') :
    outcome x s = (.ok a, s') := by
  simp only [outcome, h]

theorem outcome_eq_of_run_error {x : EStateM ε σ α} {s s' : σ} {e : ε}
    (h : x.run s = .error e s') : outcome x s = (.error e, s') := by
  simp only [outcome, h]

/-- A program that ends normally hands its state to the next one. -/
theorem outcome_bind_ok {x : EStateM ε σ α} {f : α → EStateM ε σ β} {s s' : σ} {a : α}
    (h : x.run s = .ok a s') : outcome (x >>= f) s = outcome (f a) s' := by
  simp only [outcome, EStateM.run_bind, h]

/-- A program that throws ends the whole sequence there. -/
theorem outcome_bind_error {x : EStateM ε σ α} {f : α → EStateM ε σ β} {s s' : σ} {e : ε}
    (h : x.run s = .error e s') : outcome (x >>= f) s = (.error e, s') := by
  simp only [outcome, EStateM.run_bind, h]

/-- A sequence, by the outcome of its first part. -/
theorem outcome_bind (x : EStateM ε σ α) (f : α → EStateM ε σ β) (s : σ) :
    outcome (x >>= f) s = match outcome x s with
      | (.ok a, s') => outcome (f a) s'
      | (.error e, s') => (.error e, s') := by
  cases hx : x.run s with
  | ok a s' => rw [outcome_bind_ok hx, outcome_eq_of_run_ok hx]
  | error e s' => rw [outcome_bind_error hx, outcome_eq_of_run_error hx]

/-! ## Pre- and postconditions -/

/-- Run from a state with `P`, the program returns with `Q` or throws with `E`. -/
def Triple (P : σ → Prop) (x : EStateM ε σ α) (Q : α → σ → Prop) (E : ε → σ → Prop) : Prop :=
  ∀ s, P s → match outcome x s with
    | (.ok a, s') => Q a s'
    | (.error e, s') => E e s'

namespace Triple

variable {P P' : σ → Prop} {Q Q' : α → σ → Prop} {E E' : ε → σ → Prop} {x y : EStateM ε σ α}

/-- Reading a triple at a run that returned. -/
theorem of_ok (h : Triple P x Q E) {s s' : σ} {a : α} (hs : P s)
    (hrun : outcome x s = (.ok a, s')) : Q a s' := by
  have hend := h s hs
  rw [hrun] at hend
  exact hend

/-- Reading a triple at a run that threw. -/
theorem of_error (h : Triple P x Q E) {s s' : σ} {e : ε} (hs : P s)
    (hrun : outcome x s = (.error e, s')) : E e s' := by
  have hend := h s hs
  rw [hrun] at hend
  exact hend

/-- Consequence. -/
theorem mono (h : Triple P x Q E) (hP : ∀ s, P' s → P s) (hQ : ∀ a s, Q a s → Q' a s)
    (hE : ∀ e s, E e s → E' e s) : Triple P' x Q' E' := by
  intro s hs
  have hend := h s (hP s hs)
  rcases hrun : outcome x s with ⟨e | a, s'⟩
  · rw [hrun] at hend
    exact hE e s' hend
  · rw [hrun] at hend
    exact hQ a s' hend

theorem pure {a : α} (h : ∀ s, P s → Q a s) : Triple P (pure a : EStateM ε σ α) Q E :=
  fun s hs => h s hs

theorem throw {e : ε} (h : ∀ s, P s → E e s) : Triple P (throw e : EStateM ε σ α) Q E :=
  fun s hs => h s hs

/-- Sequencing, through what holds in between. -/
theorem bind {R : α → σ → Prop} {F : ε → σ → Prop} {f : α → EStateM ε σ β} {Q : β → σ → Prop}
    (hx : Triple P x R F) (hF : ∀ e s, F e s → E e s) (hf : ∀ a, Triple (R a) (f a) Q E) :
    Triple P (x >>= f) Q E := by
  intro s hs
  have hend := hx s hs
  rcases hrun : x.run s with ⟨a, s'⟩ | ⟨e, s'⟩
  · rw [outcome_eq_of_run_ok hrun] at hend
    rw [outcome_bind_ok hrun]
    exact hf a s' hend
  · rw [outcome_eq_of_run_error hrun] at hend
    rw [outcome_bind_error hrun]
    exact hF e s' hend

theorem ite {p : Prop} [Decidable p] (hx : p → Triple P x Q E) (hy : ¬ p → Triple P y Q E) :
    Triple P (if p then x else y) Q E := by
  split
  · next hp => exact hx hp
  · next hp => exact hy hp

/-- A handler starts in the state of the throw. -/
theorem tryCatch {F : ε → σ → Prop} {handler : ε → EStateM ε σ α} (hx : Triple P x Q F)
    (hhandler : ∀ e, Triple (F e) (handler e) Q E) : Triple P (tryCatch x handler) Q E := by
  intro s hs
  have hend := hx s hs
  rcases hrun : x.run s with ⟨a, s'⟩ | ⟨e, s'⟩
  · rw [outcome_eq_of_run_ok hrun] at hend
    have hcatch : outcome (MonadExcept.tryCatch x handler) s = (.ok a, s') := by
      apply outcome_eq_of_run_ok
      show EStateM.tryCatch x handler s = _
      delta EStateM.tryCatch
      rw [show x s = .ok a s' from hrun]
    rw [hcatch]
    exact hend
  · rw [outcome_eq_of_run_error hrun] at hend
    -- `EStateM.run` rolls no state back here: the handler gets the state of the throw
    have hcatch : outcome (MonadExcept.tryCatch x handler) s = outcome (handler e) s' := by
      have hstep : (MonadExcept.tryCatch x handler).run s = (handler e).run s' := by
        show EStateM.tryCatch x handler s = _
        delta EStateM.tryCatch
        rw [show x s = .error e s' from hrun]
        rfl
      rw [outcome, hstep, outcome]
    rw [hcatch]
    exact hhandler e s' hend

/-- **A loop over a list**: an invariant of the elements that are left. -/
theorem forM {γ : Type} {body : γ → EStateM ε σ PUnit} {I : List γ → σ → Prop}
    (hbody : ∀ a rest, Triple (I (a :: rest)) (body a) (fun _ => I rest) E) (l : List γ) :
    Triple (I l) (l.forM body) (fun _ => I []) E := by
  induction l with
  | nil => exact Triple.pure (fun _ hs => hs)
  | cons a rest ih => exact Triple.bind (hbody a rest) (fun _ _ h => h) (fun _ => ih)

end Triple

end CgGuide.Program
