/-
Processes that take turns on a shared state.

A process is what it has left to do; one turn of it reads and writes the shared
state at once and leaves either the rest of the process or nothing. Processes sit
in numbered slots. Which slot moves next is up to the scheduler: an event starts a
process in a free slot, gives a slot a turn, or stops a process where it stands,
which is what an exception, a timeout or a crash does to it. A run is a list of
events, so that "for every interleaving" is a quantifier over lists.
-/
import CgGuide.Runs
import Mathlib.Data.Nat.Notation
import Mathlib.Logic.Function.Basic

set_option autoImplicit false

namespace CgGuide.Interleaving

variable {Shared Proc : Type}

/-- The shared state, and what each slot has left to do. -/
structure Pool (Shared Proc : Type) where
  shared : Shared
  running : ℕ → Option Proc

/-- What the scheduler can do. -/
inductive Event (Proc : Type)
  | start (slot : ℕ) (p : Proc)
  | advance (slot : ℕ)
  | stop (slot : ℕ)

namespace Pool

/-- A shared state nobody is working on. -/
def idle (s : Shared) : Pool Shared Proc := ⟨s, fun _ => none⟩

/-- No process is in progress. -/
def Quiet (pool : Pool Shared Proc) : Prop := ∀ i, pool.running i = none

variable (turn : Proc → Shared → Option Proc × Shared)

/-- One event. Starting in a slot that is taken does nothing, and neither does a
turn of a free one. -/
def exec (pool : Pool Shared Proc) : Event Proc → Pool Shared Proc
  | .start i p =>
    match pool.running i with
    | none => { pool with running := Function.update pool.running i (some p) }
    | some _ => pool
  | .advance i =>
    match pool.running i with
    | none => pool
    | some p =>
      { shared := (turn p pool.shared).2
        running := Function.update pool.running i (turn p pool.shared).1 }
  | .stop i => { pool with running := Function.update pool.running i none }

variable {turn}

/-- A turn of a slot, when the slot has a process. -/
theorem exec_advance {pool : Pool Shared Proc} {i : ℕ} {p : Proc} (h : pool.running i = some p) :
    exec turn pool (.advance i)
      = ⟨(turn p pool.shared).2, Function.update pool.running i (turn p pool.shared).1⟩ := by
  simp only [exec, h]

theorem exec_advance_none {pool : Pool Shared Proc} {i : ℕ} (h : pool.running i = none) :
    exec turn pool (.advance i) = pool := by
  simp only [exec, h]

theorem exec_start_free {pool : Pool Shared Proc} {i : ℕ} (h : pool.running i = none) (p : Proc) :
    exec turn pool (.start i p)
      = { pool with running := Function.update pool.running i (some p) } := by
  simp only [exec, h]

theorem exec_start_taken {pool : Pool Shared Proc} {i : ℕ} {q : Proc}
    (h : pool.running i = some q) (p : Proc) : exec turn pool (.start i p) = pool := by
  simp only [exec, h]

/-- A start displaces nobody, and writes nothing. -/
theorem running_exec_start {pool : Pool Shared Proc} {i j : ℕ} {q : Proc} (p : Proc)
    (h : pool.running j = some q) : (exec turn pool (.start i p)).running j = some q := by
  cases hi : pool.running i with
  | none =>
    have hne : j ≠ i := by
      rintro rfl
      rw [hi] at h
      exact absurd h.symm (Option.some_ne_none q)
    rw [exec_start_free hi, ← h]
    exact Function.update_of_ne hne _ _
  | some q' =>
    rw [exec_start_taken hi]
    exact h

theorem shared_exec_start (pool : Pool Shared Proc) (i : ℕ) (p : Proc) :
    (exec turn pool (.start i p)).shared = pool.shared := by
  cases hi : pool.running i with
  | none => rw [exec_start_free hi]
  | some q => rw [exec_start_taken hi]

/-- **What an event does to the shared state** is one turn of one process, or nothing. -/
theorem shared_exec (pool : Pool Shared Proc) (e : Event Proc) :
    (∃ i p, e = .advance i ∧ pool.running i = some p
      ∧ (exec turn pool e).shared = (turn p pool.shared).2)
    ∨ (∀ i p, e = .advance i → pool.running i ≠ some p)
      ∧ (exec turn pool e).shared = pool.shared := by
  cases e with
  | start i p => exact Or.inr ⟨fun _ _ h => by simp at h, shared_exec_start pool i p⟩
  | stop i => exact Or.inr ⟨fun _ _ h => by simp at h, rfl⟩
  | advance i =>
    cases hi : pool.running i with
    | some p => exact Or.inl ⟨i, p, rfl, hi, by rw [exec_advance hi]⟩
    | none =>
      refine Or.inr ⟨fun j p hj hp => ?_, by rw [exec_advance_none hi]⟩
      obtain rfl := Event.advance.inj hj
      exact absurd (hi.symm.trans hp).symm (Option.some_ne_none p)

/-- An event that changes the shared state is a turn. -/
theorem turn_of_changed {pool : Pool Shared Proc} {e : Event Proc}
    (h : (exec turn pool e).shared ≠ pool.shared) : ∃ i p, e = .advance i
      ∧ pool.running i = some p ∧ (exec turn pool e).shared = (turn p pool.shared).2 :=
  (shared_exec pool e).resolve_right (fun hstill => h hstill.2)

/-- A turn or a stop of one slot leaves the others where they are. -/
theorem running_exec_advance {pool : Pool Shared Proc} {i j : ℕ} (h : j ≠ i) :
    (exec turn pool (.advance i)).running j = pool.running j := by
  cases hi : pool.running i with
  | none => rw [exec_advance_none hi]
  | some p =>
    rw [exec_advance hi]
    exact Function.update_of_ne h _ _

theorem running_exec_stop {pool : Pool Shared Proc} {i j : ℕ} (h : j ≠ i) :
    (exec turn pool (.stop i)).running j = pool.running j :=
  Function.update_of_ne h _ _

/-! ### One process on its own -/

/-- A shared state that one process, or none, works on. -/
def alone (s : Shared) (o : Option Proc) : Pool Shared Proc :=
  ⟨s, Function.update (fun _ => none) 0 o⟩

theorem running_alone (s : Shared) (o : Option Proc) : (alone s o).running 0 = o := by
  show Function.update (fun _ => none) 0 o 0 = o
  rw [Function.update_self]

theorem exec_idle_start (s : Shared) (p : Proc) :
    exec turn (idle s) (.start 0 p) = alone s (some p) :=
  exec_start_free rfl p

theorem exec_alone_advance (s : Shared) (p : Proc) :
    exec turn (alone s (some p)) (.advance 0) = alone (turn p s).2 (turn p s).1 := by
  rw [exec_advance (running_alone s (some p)), alone, Function.update_idem]
  rfl

theorem exec_alone_done (s : Shared) : exec turn (alone s none) (.advance 0) = alone s none :=
  exec_advance_none (running_alone s none)

/-- What is found in some slot after an update was in another slot before, or is
what was put there. -/
theorem update_eq_some {running : ℕ → Option Proc} {i j : ℕ} {o : Option Proc} {p : Proc}
    (h : Function.update running i o j = some p) :
    j = i ∧ o = some p ∨ j ≠ i ∧ running j = some p := by
  by_cases hj : j = i
  · rw [hj, Function.update_self] at h
    exact Or.inl ⟨hj, h⟩
  · rw [Function.update_of_ne hj] at h
    exact Or.inr ⟨hj, h⟩

/-- **A property of each process** is an invariant when a start brings it, the
process that moves keeps or earns it, and the others keep it under what the move
did to the shared state. -/
theorem forall_running_exec {P : Shared → Proc → Prop} {pool : Pool Shared Proc} {e : Event Proc}
    (hpool : ∀ i p, pool.running i = some p → P pool.shared p)
    (hstart : ∀ i p, e = .start i p → P pool.shared p)
    (hmove : ∀ i p p', e = .advance i → pool.running i = some p →
      (turn p pool.shared).1 = some p' → P (turn p pool.shared).2 p')
    (hother : ∀ i p j q, e = .advance i → pool.running i = some p → j ≠ i →
      pool.running j = some q → P (turn p pool.shared).2 q) :
    ∀ i p, (exec turn pool e).running i = some p → P (exec turn pool e).shared p := by
  intro j q hq
  cases e with
  | start i p =>
    cases hi : pool.running i with
    | none =>
      rw [exec_start_free hi] at hq ⊢
      rcases update_eq_some hq with ⟨-, hp⟩ | ⟨-, hq⟩
      · rw [← Option.some.inj hp]
        exact hstart i p rfl
      · exact hpool j q hq
    | some p' =>
      rw [exec_start_taken hi] at hq ⊢
      exact hpool j q hq
  | advance i =>
    cases hi : pool.running i with
    | none =>
      rw [exec_advance_none hi] at hq ⊢
      exact hpool j q hq
    | some p =>
      rw [exec_advance hi] at hq ⊢
      rcases update_eq_some hq with ⟨-, hp⟩ | ⟨hj, hq⟩
      · exact hmove i p q rfl hi hp
      · exact hother i p j q rfl hi hj hq
  | stop i =>
    rcases update_eq_some hq with ⟨-, hp⟩ | ⟨-, hq⟩
    · exact absurd hp.symm (Option.some_ne_none q)
    · exact hpool j q hq

end Pool

end CgGuide.Interleaving
