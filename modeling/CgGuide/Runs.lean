/-
Runs of a system that takes one step for each event.

A run is a list of events, and the step function says what each does. What a result
assumes about the events of a run is a guard: it may speak of the state that an event
finds, so the same event may pass in one state and not in another. An invariant of
the guarded steps holds wherever a guarded run has come to (`invariant_reached`).
-/
import Mathlib.Data.List.Induction

set_option autoImplicit false

namespace CgGuide.Runs

variable {State Event : Type*} (step : State → Event → State)

/-- The state after a list of events. -/
def run (s : State) (es : List Event) : State := es.foldl step s

theorem run_append (s : State) (es es' : List Event) :
    run step s (es ++ es') = run step (run step s es) es' :=
  List.foldl_append

theorem run_cons (s : State) (e : Event) (es : List Event) :
    run step s (e :: es) = run step (step s e) es := rfl

/-- Every event of the run passes the guard, in the state it finds. -/
def Guarded (guard : State → Event → Prop) : State → List Event → Prop
  | _, [] => True
  | s, e :: es => guard s e ∧ Guarded guard (step s e) es

instance Guarded.decidable (guard : State → Event → Prop) [∀ s e, Decidable (guard s e)] :
    ∀ s es, Decidable (Guarded step guard s es)
  | _, [] => .isTrue trivial
  | s, e :: es =>
    have := Guarded.decidable guard (step s e) es
    inferInstanceAs (Decidable (guard s e ∧ Guarded step guard (step s e) es))

variable {step} {guard : State → Event → Prop} {Inv : State → Prop}

theorem Guarded.append {es es' : List Event} : ∀ {s : State},
    Guarded step guard s (es ++ es') →
      Guarded step guard s es ∧ Guarded step guard (run step s es) es' := by
  induction es with
  | nil => exact fun h => ⟨trivial, h⟩
  | cons e es ih =>
      intro s h
      obtain ⟨hes, hes'⟩ := ih h.2
      exact ⟨⟨h.1, hes⟩, hes'⟩

theorem Guarded.concat {es es' : List Event} : ∀ {s : State},
    Guarded step guard s es → Guarded step guard (run step s es) es' →
      Guarded step guard s (es ++ es') := by
  induction es with
  | nil => exact fun _ h => h
  | cons e es ih => exact fun hes hes' => ⟨hes.1, ih hes.2 hes'⟩

/-- A guard that refuses nothing guards every run. -/
theorem guarded_true (s : State) (es : List Event) : Guarded step (fun _ _ => True) s es := by
  induction es generalizing s with
  | nil => trivial
  | cons e es ih => exact ⟨trivial, ih (step s e)⟩

/-- What holds in every state of a run guards it. -/
theorem guarded_of_reached {guard : State → Event → Prop} {es : List Event} : ∀ {s : State},
    (∀ pre e post, es = pre ++ e :: post → guard (run step s pre) e) →
      Guarded step guard s es := by
  induction es with
  | nil => exact fun _ => trivial
  | cons e es ih =>
      intro s h
      refine ⟨h [] e es rfl, ih (fun pre e' post hes => ?_)⟩
      exact h (e :: pre) e' post (by rw [hes, List.cons_append])

/-- A guard that implies another one guards the same runs. -/
theorem Guarded.mono {guard' : State → Event → Prop} (h : ∀ s e, guard s e → guard' s e)
    {es : List Event} : ∀ {s : State}, Guarded step guard s es → Guarded step guard' s es := by
  induction es with
  | nil => exact fun _ => trivial
  | cons e es ih => exact fun hes => ⟨h _ e hes.1, ih hes.2⟩

/-- **An invariant of guarded steps** holds after every guarded run. -/
theorem invariant_run (hstep : ∀ s e, Inv s → guard s e → Inv (step s e)) {es : List Event} :
    ∀ {s : State}, Inv s → Guarded step guard s es → Inv (run step s es) := by
  induction es with
  | nil => exact fun h _ => h
  | cons e es ih =>
      intro s h hguarded
      exact ih (hstep s e h hguarded.1) hguarded.2

/-- ... and in every state the run passes through. -/
theorem invariant_reached (hstep : ∀ s e, Inv s → guard s e → Inv (step s e)) {s : State}
    (hs : Inv s) {es pre : List Event} (hes : Guarded step guard s es) (hpre : pre <+: es) :
    Inv (run step s pre) := by
  obtain ⟨post, rfl⟩ := hpre
  exact invariant_run hstep hs (Guarded.append hes).1

/-- **Induction on a guarded run**, event by event. -/
theorem run_induction {P : List Event → Prop} {s : State} (hnil : P [])
    (hconcat : ∀ es e, P es → guard (run step s es) e → P (es ++ [e])) {es : List Event}
    (hguarded : Guarded step guard s es) : P es := by
  induction es using List.reverseRecOn with
  | nil => exact hnil
  | append_singleton es e ih =>
      obtain ⟨hes, he⟩ := Guarded.append hguarded
      exact hconcat es e (ih hes) he.1

/-! ## Two systems in step -/

/-- **A relation that single steps keep** is kept by whole runs. -/
theorem run_related {Other : Type*} {step' : Other → Event → Other} {R : State → Other → Prop}
    (hstep : ∀ s t e, R s t → R (step s e) (step' t e)) {es : List Event} :
    ∀ {s : State} {t : Other}, R s t → R (run step s es) (run step' t es) := by
  induction es with
  | nil => exact fun h => h
  | cons e es ih =>
      intro s t h
      exact ih (hstep s t e h)

/-! ## What has happened since

The past of a run: some event was an `A`, and none after it was a `B`. As a recursion
over the run from its end (`since_concat`) this is the operator of temporal logics.
-/

/-- An event passes `A`, and no later one passes `B`; each in the state it finds. -/
def Since (step : State → Event → State) (A B : State → Event → Prop) (s : State)
    (es : List Event) : Prop :=
  ∃ pre e post, es = pre ++ e :: post ∧ A (run step s pre) e
    ∧ ∀ mid e' rest, post = mid ++ e' :: rest → ¬ B (run step s (pre ++ e :: mid)) e'

variable {A B : State → Event → Prop} {s : State}

theorem since_nil : ¬ Since step A B s [] := by
  rintro ⟨pre, e, post, hes, -⟩
  exact absurd hes.symm (List.append_ne_nil_of_right_ne_nil pre (List.cons_ne_nil e post))

/-- **The last event decides**, or it keeps what was so before. -/
theorem since_concat (es : List Event) (e : Event) :
    Since step A B s (es ++ [e])
      ↔ A (run step s es) e ∨ Since step A B s es ∧ ¬ B (run step s es) e := by
  constructor
  · rintro ⟨pre, e', post, hes, hA, hB⟩
    induction post using List.reverseRecOn with
    | nil =>
      obtain ⟨rfl, hlast⟩ := List.append_inj' hes rfl
      rw [List.head_eq_of_cons_eq hlast]
      exact Or.inl hA
    | append_singleton post last _ =>
      rw [← List.cons_append, ← List.append_assoc] at hes
      obtain ⟨rfl, hlast⟩ := List.append_inj' hes rfl
      obtain rfl := List.head_eq_of_cons_eq hlast
      refine Or.inr ⟨⟨pre, e', post, rfl, hA, ?_⟩, hB post e [] rfl⟩
      rintro mid e'' rest rfl
      exact hB mid e'' (rest ++ [e]) (List.append_assoc mid (e'' :: rest) [e])
  · rintro (hA | ⟨⟨pre, e', post, rfl, hA, hB⟩, hlast⟩)
    · refine ⟨es, e, [], rfl, hA, fun mid e' rest hnil => ?_⟩
      exact absurd hnil.symm
        (List.append_ne_nil_of_right_ne_nil mid (List.cons_ne_nil e' rest))
    · refine ⟨pre, e', post ++ [e], List.append_assoc pre (e' :: post) [e], hA, ?_⟩
      intro mid e'' rest hpost
      -- the later event is the last one, or it was there before
      induction rest using List.reverseRecOn with
      | nil =>
        obtain ⟨rfl, hsame⟩ := List.append_inj' hpost rfl
        rw [← List.head_eq_of_cons_eq hsame]
        exact hlast
      | append_singleton rest e₀ _ =>
        rw [← List.cons_append, ← List.append_assoc] at hpost
        exact hB mid e'' rest (List.append_inj' hpost rfl).1

/-- What has happened stays so while no `B` does. -/
theorem Since.append {es es' : List Event} (h : Since step A B s es)
    (hes' : ∀ e ∈ es', ∀ s, ¬ B s e) : Since step A B s (es ++ es') := by
  induction es' using List.reverseRecOn with
  | nil => rwa [List.append_nil]
  | append_singleton es' e ih =>
      rw [← List.append_assoc, since_concat]
      refine Or.inr ⟨ih (fun e' he' => hes' e' (List.mem_append_left [e] he')), ?_⟩
      exact hes' e (List.mem_append_right es' List.mem_cons_self) _

/-- A property of states that the events switch on and off tells what has happened. -/
theorem iff_since {P : State → Prop} (hs : ¬ P s)
    (hstep : ∀ s e, guard s e → (P (step s e) ↔ A s e ∨ P s ∧ ¬ B s e)) {es : List Event}
    (hguarded : Guarded step guard s es) : P (run step s es) ↔ Since step A B s es := by
  refine run_induction (P := fun es => P (run step s es) ↔ Since step A B s es) ?_ ?_ hguarded
  · exact iff_of_false hs since_nil
  · intro es e ih he
    rw [run_append, since_concat, ← ih]
    exact hstep (run step s es) e he

/-- A property that only an `A` brings about goes back to an `A` that brought it about,
and has held ever since. -/
theorem since_of_step {P : State → Prop} (hs : ¬ P s)
    (hstep : ∀ s e, guard s e → P (step s e) → A s e ∨ P s) {es : List Event}
    (hguarded : Guarded step guard s es) (h : P (run step s es)) :
    Since step (fun s e => A s e ∧ P (step s e)) (fun s e => ¬ P (step s e)) s es := by
  refine (iff_since hs (fun s e hse => ?_) hguarded).mp h
  rw [not_not]
  constructor
  · intro hP
    exact (hstep s e hse hP).imp (fun hA => ⟨hA, hP⟩) (fun hold => ⟨hold, hP⟩)
  · rintro (⟨-, hP⟩ | ⟨-, hP⟩)
    · exact hP
    · exact hP

/-- Between two events that switch a property on, which they do only while it is off,
there is one that switches it off. -/
theorem off_between {P : State → Prop} (hs : ¬ P s)
    (hstep : ∀ s e, guard s e → (P (step s e) ↔ A s e ∨ P s ∧ ¬ B s e))
    (hoff : ∀ s e, guard s e → A s e → ¬ P s) {pre mid : List Event} {e e' : Event}
    (hguarded : Guarded step guard s (pre ++ e :: mid ++ [e'])) (he : A (run step s pre) e)
    (he' : A (run step s (pre ++ e :: mid)) e') :
    ∃ mid₁ f mid₂, mid = mid₁ ++ f :: mid₂ ∧ B (run step s (pre ++ e :: mid₁)) f := by
  obtain ⟨hmid, hlast⟩ := Guarded.append hguarded
  by_contra hnone
  have hsince : Since step A B s (pre ++ e :: mid) :=
    ⟨pre, e, mid, rfl, he, fun mid₁ f mid₂ hf hB => hnone ⟨mid₁, f, mid₂, hf, hB⟩⟩
  exact hoff _ e' hlast.1 he' ((iff_since hs hstep hmid).mpr hsince)

/-- An event of the past has passed `A`. -/
abbrev Once (step : State → Event → State) (A : State → Event → Prop) : State → List Event → Prop :=
  Since step A (fun _ _ => False)

theorem once_concat (es : List Event) (e : Event) :
    Once step A s (es ++ [e]) ↔ A (run step s es) e ∨ Once step A s es := by
  rw [Once, since_concat]
  exact or_congr_right (and_iff_left not_false)

/-! ## What a run puts out -/

variable {Out : Type*}

/-- All that the events of a run put out, each in the state it finds. -/
def emitted (step : State → Event → State) (out : State → Event → List Out) :
    State → List Event → List Out
  | _, [] => []
  | s, e :: es => out s e ++ emitted step out (step s e) es

theorem emitted_append (out : State → Event → List Out) {es es' : List Event} :
    ∀ (s : State), emitted step out s (es ++ es')
      = emitted step out s es ++ emitted step out (run step s es) es' := by
  induction es with
  | nil => exact fun s => rfl
  | cons e es ih =>
      intro s
      rw [List.cons_append, emitted, emitted, ih, List.append_assoc, run_cons]

/-- **Each event a run of another system**: a relation that single events keep, each with
what it puts out, is kept by whole runs. -/
theorem run_emitted {Other : Type*} {step' : Other → Out → Other} {R : State → Other → Prop}
    {out : State → Event → List Out}
    (hstep : ∀ s t e, R s t → R (step s e) (run step' t (out s e))) {es : List Event} :
    ∀ {s : State} {t : Other}, R s t →
      R (run step s es) (run step' t (emitted step out s es)) := by
  induction es with
  | nil => exact fun h => h
  | cons e es ih =>
      intro s t h
      rw [emitted, run_append, run_cons]
      exact ih (hstep s t e h)

/-- What passes a guard event by event passes it over the whole run. -/
theorem guarded_emitted {Other : Type*} {step' : Other → Out → Other} {R : State → Other → Prop}
    {out : State → Event → List Out} {guard : Other → Out → Prop}
    (hstep : ∀ s t e, R s t → R (step s e) (run step' t (out s e)))
    (hguard : ∀ s t e, R s t → Guarded step' guard t (out s e)) {es : List Event} :
    ∀ {s : State} {t : Other}, R s t → Guarded step' guard t (emitted step out s es) := by
  induction es with
  | nil => exact fun _ => trivial
  | cons e es ih =>
      intro s t h
      exact (hguard s t e h).concat (ih (hstep s t e h))

/-- What holds of every event of a run and of what came before it, event by event. -/
theorem forall_split_concat {P : List Event → Event → Prop} {es : List Event} {e : Event} :
    (∀ pre e' post, es ++ [e] = pre ++ e' :: post → P pre e')
      ↔ (∀ pre e' post, es = pre ++ e' :: post → P pre e') ∧ P es e := by
  constructor
  · refine fun h => ⟨fun pre e' post hes => ?_, h es e [] rfl⟩
    exact h pre e' (post ++ [e]) (by rw [hes, List.append_assoc, List.cons_append])
  · rintro ⟨hes, he⟩ pre e' post hsplit
    -- the event is the last one, or one before it
    induction post using List.reverseRecOn with
    | nil =>
      obtain ⟨rfl, hlast⟩ := List.append_inj' hsplit rfl
      rw [← List.head_eq_of_cons_eq hlast]
      exact he
    | append_singleton post last _ =>
      rw [← List.cons_append, ← List.append_assoc] at hsplit
      exact hes pre e' post (List.append_inj' hsplit rfl).1

end CgGuide.Runs
