/-
Lazy initialization behind a flag and a lock.

A request that finds the flag of its process set goes on at once. One that does not takes
the lock, reads the flag again and, while it is still unset, runs a construction and sets
the flag. An exception gives the lock back and leaves the flag alone, so that the next
request tries again. The threads of a process share its flag, its lock and its statics,
which a restart forgets; all processes share one more state, to which others do things
too. A construction takes one turn for each call it makes, so the turns of several
threads and processes mix in any order, and any turn may throw.

What is proved of every run is that a process is constructed by one thread at a time
(`sound_reached`) and that the assertions of a proof outline of the construction hold
where its threads stand, as long as nobody's turn breaks them (`outline_reached`).
-/
import CgGuide.Runs
import Mathlib.Data.Nat.Notation
import Mathlib.Logic.Function.Basic

set_option autoImplicit false

namespace CgGuide.LazyInitialization

open CgGuide.Runs

variable {Statics Shared Work Other : Type}

/-! ## The system -/

/-- What a turn of a construction leaves to do. -/
inductive Stage (Work : Type)
  | more (w : Work)
  | done
  | failed

/-- A construction: the statics of a process that has just started, the turns, and what
others do to the shared state. -/
structure Construction (Statics Shared Work Other : Type) where
  fresh : Statics
  start : Work
  turn : Work → Statics → Shared → Stage Work × Statics × Shared
  other : Other → Shared → Shared

/-- Where a thread stands: it reads the flag, takes the lock and, holding it, reads the
flag again, constructs, and sets the flag. -/
inductive Phase (Work : Type)
  | read
  | lock
  | check
  | build (w : Work)
  | publish

namespace Phase

/-- The thread holds the lock. -/
def Critical : Phase Work → Prop
  | .read | .lock => False
  | .check | .build _ | .publish => True

/-- The thread has found the flag unset under the lock. -/
def Inside : Phase Work → Prop
  | .build _ | .publish => True
  | .read | .lock | .check => False

theorem Inside.critical {ph : Phase Work} (h : ph.Inside) : ph.Critical := by
  cases ph with
  | build w => trivial
  | publish => trivial
  | _ => exact h.elim

end Phase

structure Process (Statics Work : Type) where
  initialized : Bool
  holder : Option ℕ
  statics : Statics
  threads : ℕ → Option (Phase Work)

structure System (Statics Shared Work : Type) where
  shared : Shared
  processes : ℕ → Process Statics Work

/-- A request arrives at a process, a thread takes its turn or throws instead, a process
restarts, or others do something. -/
inductive Event (Other : Type)
  | arrive (p i : ℕ)
  | advance (p i : ℕ) (throws : Bool)
  | recycle (p : ℕ)
  | other (o : Other)

namespace Process

def goto (P : Process Statics Work) (i : ℕ) (ph : Phase Work) : Process Statics Work :=
  { P with threads := Function.update P.threads i (some ph) }

/-- The thread is done, or has thrown; the lock does not stay with it. -/
def leave (P : Process Statics Work) (i : ℕ) : Process Statics Work :=
  { P with
    holder := if P.holder = some i then none else P.holder
    threads := Function.update P.threads i none }

variable (C : Construction Statics Shared Work Other)

/-- A process that has just started. -/
def cold : Process Statics Work := ⟨false, none, C.fresh, fun _ => none⟩

/-- A turn of the construction. -/
def build (P : Process Statics Work) (i : ℕ) (w : Work) (s : Shared) :
    Process Statics Work × Shared :=
  match C.turn w P.statics s with
  | (.more w', l, s') => ({ P with statics := l }.goto i (.build w'), s')
  | (.done, l, s') => ({ P with statics := l }.goto i .publish, s')
  | (.failed, l, s') => ({ P with statics := l }.leave i, s')

/-- A turn of a thread. -/
def advance (P : Process Statics Work) (i : ℕ) (ph : Phase Work) (s : Shared) :
    Process Statics Work × Shared :=
  match ph with
  -- the test of the flag before the lock is an optimisation; the one under it decides
  | .read => (if P.initialized then P.leave i else P.goto i .lock, s)
  | .lock => (if P.holder.isSome then P else { P with holder := some i }.goto i .check, s)
  | .check => (if P.initialized then P.leave i else P.goto i (.build C.start), s)
  | .build w => P.build C i w s
  | .publish => ({ P with initialized := true }.leave i, s)

/-- The same for a thread that may not be there, or may throw. -/
def exec (P : Process Statics Work) (i : ℕ) (throws : Bool) (s : Shared) :
    Process Statics Work × Shared :=
  match P.threads i with
  | none => (P, s)
  | some ph => if throws then (P.leave i, s) else P.advance C i ph s

end Process

variable (C : Construction Statics Shared Work Other)

/-- One event. A request does not arrive in a slot that is taken. -/
def step (sys : System Statics Shared Work) : Event Other → System Statics Shared Work
  | .arrive p i =>
    match (sys.processes p).threads i with
    | none =>
      { sys with
        processes := Function.update sys.processes p ((sys.processes p).goto i .read) }
    | some _ => sys
  | .advance p i throws =>
    { shared := ((sys.processes p).exec C i throws sys.shared).2
      processes := Function.update sys.processes p
        ((sys.processes p).exec C i throws sys.shared).1 }
  | .recycle p =>
    { sys with processes := Function.update sys.processes p (Process.cold C) }
  | .other o => { sys with shared := C.other o sys.shared }

/-- All processes have just started. -/
def System.cold (s : Shared) : System Statics Shared Work := ⟨s, fun _ => Process.cold C⟩

/-- The event lets a request of the process go on. -/
def Passes (p : ℕ) (sys : System Statics Shared Work) (e : Event Other) : Prop :=
  ∃ i ph, e = .advance p i false ∧ (sys.processes p).threads i = some ph
    ∧ (ph = .publish ∨ (sys.processes p).initialized = true ∧ (ph = .read ∨ ph = .check))

/-- The event restarts the process. -/
def Recycles (p : ℕ) (_ : System Statics Shared Work) (e : Event Other) : Prop :=
  e = .recycle p

/-! ## What an event does to a process -/

section Steps

variable {C} {sys : System Statics Shared Work} {P : Process Statics Work} {i j : ℕ} {s : Shared}

/-- What a thread can do in its turn: nothing, as it is not there or the lock is taken;
leave, with an exception or with the flag set; or go on by one step. -/
inductive Move (C : Construction Statics Shared Work Other) (P : Process Statics Work) (i : ℕ)
    (s : Shared) : Bool → Process Statics Work × Shared → Prop
  | stays {throws : Bool} (h : ∀ ph, P.threads i = some ph → ¬ ph.Inside) :
    Move C P i s throws (P, s)
  | throws {ph : Phase Work} (hi : P.threads i = some ph) : Move C P i s true (P.leave i, s)
  | passes {ph : Phase Work} (hi : P.threads i = some ph) (hph : ¬ ph.Inside)
    (hset : P.initialized = true) : Move C P i s false (P.leave i, s)
  | reads (hi : P.threads i = some .read) : Move C P i s false (P.goto i .lock, s)
  | takes (hi : P.threads i = some .lock) (hfree : P.holder = none) :
    Move C P i s false ({ P with holder := some i }.goto i .check, s)
  | checks (hi : P.threads i = some .check) (hunset : P.initialized = false) :
    Move C P i s false (P.goto i (.build C.start), s)
  | more {w w' : Work} {l : Statics} {s' : Shared} (hi : P.threads i = some (.build w))
    (hturn : C.turn w P.statics s = (.more w', l, s')) :
    Move C P i s false ({ P with statics := l }.goto i (.build w'), s')
  | done {w : Work} {l : Statics} {s' : Shared} (hi : P.threads i = some (.build w))
    (hturn : C.turn w P.statics s = (.done, l, s')) :
    Move C P i s false ({ P with statics := l }.goto i .publish, s')
  | failed {w : Work} {l : Statics} {s' : Shared} (hi : P.threads i = some (.build w))
    (hturn : C.turn w P.statics s = (.failed, l, s')) :
    Move C P i s false ({ P with statics := l }.leave i, s')
  | publishes (hi : P.threads i = some .publish) :
    Move C P i s false ({ P with initialized := true }.leave i, s)

theorem exec_throws {ph : Phase Work} (h : P.threads i = some ph) :
    P.exec C i true s = (P.leave i, s) := by
  simp only [Process.exec, h, if_true]

theorem exec_advance {ph : Phase Work} (h : P.threads i = some ph) :
    P.exec C i false s = P.advance C i ph s := by
  simp only [Process.exec, h, Bool.false_eq_true, if_false]

theorem advance_read (h : ¬ P.initialized = true) :
    P.advance C i .read s = (P.goto i .lock, s) := by
  rw [Process.advance, if_neg h]

theorem advance_lock (h : P.holder = none) :
    P.advance C i .lock s = ({ P with holder := some i }.goto i .check, s) := by
  rw [Process.advance, if_neg (by simp [h])]

theorem advance_check (h : ¬ P.initialized = true) :
    P.advance C i .check s = (P.goto i (.build C.start), s) := by
  rw [Process.advance, if_neg h]

/-- **Every turn is one of these moves.** -/
theorem move_exec (C : Construction Statics Shared Work Other) (P : Process Statics Work) (i : ℕ)
    (throws : Bool) (s : Shared) : Move C P i s throws (P.exec C i throws s) := by
  cases hi : P.threads i with
  | none =>
    rw [show P.exec C i throws s = (P, s) by simp only [Process.exec, hi]]
    exact .stays (fun ph hph => absurd (hi.symm.trans hph).symm (Option.some_ne_none ph))
  | some ph =>
    cases throws with
    | true =>
      rw [exec_throws hi]
      exact .throws hi
    | false =>
      rw [exec_advance hi]
      cases ph with
      | read =>
        by_cases hset : P.initialized = true
        · rw [show P.advance C i .read s = (P.leave i, s) by rw [Process.advance, if_pos hset]]
          exact .passes hi not_false hset
        · rw [advance_read hset]
          exact .reads hi
      | lock =>
        by_cases htaken : P.holder.isSome = true
        · rw [show P.advance C i .lock s = (P, s) by rw [Process.advance, if_pos htaken]]
          exact .stays (fun ph hph => Option.some.inj (hi.symm.trans hph) ▸ not_false)
        · have hfree := Option.not_isSome_iff_eq_none.mp htaken
          rw [advance_lock hfree]
          exact .takes hi hfree
      | check =>
        by_cases hset : P.initialized = true
        · rw [show P.advance C i .check s = (P.leave i, s) by rw [Process.advance, if_pos hset]]
          exact .passes hi not_false hset
        · rw [advance_check hset]
          exact .checks hi (Bool.eq_false_iff.mpr hset)
      | build w =>
        show Move C P i s false (P.build C i w s)
        unfold Process.build
        rcases hturn : C.turn w P.statics s with ⟨w' | _ | _, l, s'⟩
        · exact .more hi hturn
        · exact .done hi hturn
        · exact .failed hi hturn
      | publish => exact .publishes hi

/-- Where a thread stands after one of them, or another one, has moved. -/
theorem threads_goto (ph : Phase Work) :
    (P.goto i ph).threads j = if j = i then some ph else P.threads j :=
  Function.update_apply P.threads i (some ph) j

theorem threads_leave : (P.leave i).threads j = if j = i then none else P.threads j :=
  Function.update_apply P.threads i none j

end Steps

/-! ## One thread at a time -/

/-- The thread in the critical section is the one that holds the lock, and nobody is
constructing once the flag is set. -/
structure Sound (P : Process Statics Work) : Prop where
  holds : ∀ i ph, P.threads i = some ph → ph.Critical → P.holder = some i
  present : ∀ i, P.holder = some i → ∃ ph, P.threads i = some ph ∧ ph.Critical
  unset : ∀ i ph, P.threads i = some ph → ph.Inside → P.initialized = false

namespace Sound

variable {C} {P : Process Statics Work} {i j : ℕ} {ph ph' : Phase Work}

theorem cold : Sound (Process.cold C) where
  holds := fun _ _ h => absurd h.symm (Option.some_ne_none _)
  present := fun _ h => absurd h.symm (Option.some_ne_none _)
  unset := fun _ _ h => absurd h.symm (Option.some_ne_none _)

/-- **Mutual exclusion.** -/
theorem alone (h : Sound P) (hi : P.threads i = some ph) (hph : ph.Critical)
    (hj : P.threads j = some ph') (hph' : ph'.Critical) : j = i :=
  Option.some.inj ((h.holds j ph' hj hph').symm.trans (h.holds i ph hi hph))

theorem statics (h : Sound P) (l : Statics) : Sound { P with statics := l } :=
  ⟨h.holds, h.present, h.unset⟩

/-- A thread moves without the lock. -/
theorem goto_outside (h : Sound P) (hi : ∀ ph, P.threads i = some ph → ¬ ph.Critical)
    (hph' : ¬ ph'.Critical) : Sound (P.goto i ph') where
  holds := by
    intro j ph hj hph
    rw [threads_goto] at hj
    split_ifs at hj with hji
    · exact absurd (Option.some.inj hj ▸ hph) hph'
    · exact h.holds j ph hj hph
  present := by
    intro j hj
    obtain ⟨ph, hthread, hph⟩ := h.present j hj
    have hji : j ≠ i := by
      rintro rfl
      exact hi ph hthread hph
    exact ⟨ph, by rw [threads_goto, if_neg hji, hthread], hph⟩
  unset := by
    intro j ph hj hph
    rw [threads_goto] at hj
    split_ifs at hj with hji
    · exact absurd (Option.some.inj hj ▸ hph.critical) hph'
    · exact h.unset j ph hj hph

/-- A thread moves while it holds the lock. -/
theorem goto_inside (h : Sound P) (hi : P.threads i = some ph) (hph : ph.Critical)
    (hph' : ph'.Critical) (hflag : ph'.Inside → P.initialized = false) :
    Sound (P.goto i ph') where
  holds := by
    intro j ph₀ hj hph₀
    rw [threads_goto] at hj
    split_ifs at hj with hji
    · rw [hji]
      exact h.holds i ph hi hph
    · exact h.holds j ph₀ hj hph₀
  present := by
    intro j hj
    -- the lock is held by the thread that moves
    have hji : j = i := Option.some.inj (hj.symm.trans (h.holds i ph hi hph))
    exact ⟨ph', by rw [threads_goto, if_pos hji], hph'⟩
  unset := by
    intro j ph₀ hj hph₀
    rw [threads_goto] at hj
    split_ifs at hj with hji
    · exact hflag (Option.some.inj hj ▸ hph₀)
    · exact h.unset j ph₀ hj hph₀

theorem leave (h : Sound P) : Sound (P.leave i) where
  holds := by
    intro j ph hj hph
    rw [threads_leave] at hj
    split_ifs at hj with hji
    have hholder := h.holds j ph hj hph
    -- a thread in the critical section is not the one that leaves
    show (if P.holder = some i then none else P.holder) = some j
    rw [if_neg (by rw [hholder]; exact fun heq => hji (Option.some.inj heq)), hholder]
  present := by
    intro j hj
    have hj : (if P.holder = some i then none else P.holder) = some j := hj
    split_ifs at hj with hholder
    obtain ⟨ph, hthread, hph⟩ := h.present j hj
    have hji : j ≠ i := fun heq => hholder (heq ▸ hj)
    exact ⟨ph, by rw [threads_leave, if_neg hji, hthread], hph⟩
  unset := by
    intro j ph hj hph
    rw [threads_leave] at hj
    split_ifs at hj with hji
    exact h.unset j ph hj hph

/-- The lock is taken while nobody has it. -/
theorem take (h : Sound P) (hfree : P.holder = none) :
    Sound ({ P with holder := some i }.goto i .check) where
  holds := by
    intro j ph hj hph
    rw [threads_goto] at hj
    split_ifs at hj with hji
    · rw [hji]
      rfl
    · have hholder := h.holds j ph hj hph
      rw [hfree] at hholder
      exact absurd hholder.symm (Option.some_ne_none j)
  present := by
    intro j hj
    have hji : j = i := (Option.some.inj hj).symm
    exact ⟨.check, by rw [threads_goto, if_pos hji], trivial⟩
  unset := by
    intro j ph hj hph
    rw [threads_goto] at hj
    split_ifs at hj with hji
    · rw [← Option.some.inj hj] at hph
      exact hph.elim
    · exact h.unset j ph hj hph

/-- The flag is set by the thread that holds the lock, which then leaves. -/
theorem publish (h : Sound P) (hi : P.threads i = some .publish) :
    Sound ({ P with initialized := true }.leave i) where
  holds := h.leave.holds
  present := h.leave.present
  unset := by
    intro j ph hj hph
    rw [threads_leave] at hj
    split_ifs at hj with hji
    -- another thread that found the flag unset would hold the lock too
    exact absurd (h.alone hi trivial hj hph.critical) hji

/-- **A turn keeps it**, and so does an exception. -/
theorem exec (h : Sound P) (i : ℕ) (throws : Bool) (s : Shared) :
    Sound (P.exec C i throws s).1 := by
  have hmove := move_exec C P i throws s
  generalize P.exec C i throws s = r at hmove ⊢
  cases hmove with
  | stays => exact h
  | throws => exact h.leave
  | passes => exact h.leave
  | reads hi =>
    refine h.goto_outside (fun ph hph => ?_) not_false
    rw [← Option.some.inj (hi.symm.trans hph)]
    exact not_false
  | takes hi hfree => exact h.take hfree
  | checks hi hunset => exact h.goto_inside hi trivial trivial (fun _ => hunset)
  | more hi hturn =>
    exact (h.statics _).goto_inside hi trivial trivial (fun _ => h.unset i _ hi trivial)
  | done hi hturn =>
    exact (h.statics _).goto_inside hi trivial trivial (fun _ => h.unset i _ hi trivial)
  | failed hi hturn => exact (h.statics _).leave
  | publishes hi => exact h.publish hi

theorem arrive (h : Sound P) (hi : P.threads i = none) : Sound (P.goto i .read) :=
  h.goto_outside (fun ph hph => absurd (hi.symm.trans hph).symm (Option.some_ne_none ph)) not_false

end Sound

/-! ## Invariants -/

section Runs

variable {C} {sys : System Statics Shared Work} {e : Event Other} {es : List (Event Other)}

theorem step_arrive_free {p i : ℕ} (h : (sys.processes p).threads i = none) :
    step C sys (.arrive p i) = { sys with
      processes := Function.update sys.processes p ((sys.processes p).goto i .read) } := by
  simp only [step, h]

theorem step_arrive_taken {p i : ℕ} {ph : Phase Work}
    (h : (sys.processes p).threads i = some ph) : step C sys (.arrive p i) = sys := by
  simp only [step, h]

/-- **A property of each process** is an invariant when a start and an arrival bring it,
the process that moves keeps it, and the others keep it under what the move did to the
shared state. -/
theorem forall_processes_step {I : Process Statics Work → Shared → Prop}
    (hsys : ∀ p, I (sys.processes p) sys.shared)
    (hcold : ∀ p, e = .recycle p → I (Process.cold C) sys.shared)
    (harrive : ∀ p i, e = .arrive p i → (sys.processes p).threads i = none →
      I ((sys.processes p).goto i .read) sys.shared)
    (hmove : ∀ p i throws, e = .advance p i throws →
      I ((sys.processes p).exec C i throws sys.shared).1
        ((sys.processes p).exec C i throws sys.shared).2)
    (hstable : ∀ p i throws q, e = .advance p i throws → q ≠ p →
      I (sys.processes q) ((sys.processes p).exec C i throws sys.shared).2)
    (hother : ∀ o q, e = .other o → I (sys.processes q) (C.other o sys.shared)) :
    ∀ p, I ((step C sys e).processes p) (step C sys e).shared := by
  intro q
  -- by the event; `q` is the process looked at, `p` the one that the event is about
  cases e with
  | arrive p i =>
    cases hi : (sys.processes p).threads i with
    | some ph =>
      rw [step_arrive_taken hi]
      exact hsys q
    | none =>
      rw [step_arrive_free hi]
      show I (Function.update sys.processes p _ q) _
      by_cases hq : q = p
      · rw [hq, Function.update_self]
        exact harrive p i rfl hi
      · rw [Function.update_of_ne hq]
        exact hsys q
  | advance p i throws =>
    show I (Function.update sys.processes p _ q) _
    by_cases hq : q = p
    · rw [hq, Function.update_self]
      exact hmove p i throws rfl
    · rw [Function.update_of_ne hq]
      exact hstable p i throws q rfl hq
  | recycle p =>
    show I (Function.update sys.processes p _ q) _
    by_cases hq : q = p
    · rw [hq, Function.update_self]
      exact hcold p rfl
    · rw [Function.update_of_ne hq]
      exact hsys q
  | other o => exact hother o q rfl

/-- Every process is sound. -/
def AllSound (sys : System Statics Shared Work) : Prop := ∀ p, Sound (sys.processes p)

theorem sound_step (h : AllSound sys) (e : Event Other) : AllSound (step C sys e) :=
  forall_processes_step (I := fun P _ => Sound P) h (fun _ _ => Sound.cold)
    (fun p _ _ hi => (h p).arrive hi) (fun p i throws _ => (h p).exec i throws sys.shared)
    (fun _ _ _ q _ _ => h q) (fun _ q _ => h q)

/-- **Soundness** of every process in every state reached. -/
theorem sound_reached (s : Shared) (es : List (Event Other)) :
    AllSound (run (step C) (System.cold C s) es) :=
  @invariant_run _ _ (step C) (fun _ _ => True) AllSound (fun _ e h _ => sound_step h e) es
    (System.cold C s) (fun _ => Sound.cold) (guarded_true _ es)

/-! ## Proof outlines -/

/-- A proof outline of a construction: what holds before each turn and what holds when
it is done, neither of which a turn of another process or an event of the others that is
permitted can break. -/
structure Outline (C : Construction Statics Shared Work Other) (permitted : Other → Prop)
    (before : Work → Statics → Shared → Prop) (after : Statics → Shared → Prop) : Prop where
  start : ∀ l s, before C.start l s
  more : ∀ {w l s w' l' s'}, before w l s → C.turn w l s = (.more w', l', s') → before w' l' s'
  done : ∀ {w l s l' s'}, before w l s → C.turn w l s = (.done, l', s') → after l' s'
  turn_before : ∀ {v m s}, before v m s → ∀ w l, before w l s → before w l (C.turn v m s).2.2
  turn_after : ∀ {v m s}, before v m s → ∀ l, after l s → after l (C.turn v m s).2.2
  other_before : ∀ {o}, permitted o → ∀ w l s, before w l s → before w l (C.other o s)
  other_after : ∀ {o}, permitted o → ∀ l s, after l s → after l (C.other o s)

variable {permitted : Other → Prop} {before : Work → Statics → Shared → Prop}
  {after : Statics → Shared → Prop}

/-- The assertion at a thread. -/
def Phase.Asserts (before : Work → Statics → Shared → Prop) (after : Statics → Shared → Prop)
    (l : Statics) (s : Shared) : Phase Work → Prop
  | .build w => before w l s
  | .publish => after l s
  | .read | .lock | .check => True

theorem Phase.asserts_of_not_inside {ph : Phase Work} (h : ¬ ph.Inside) (l : Statics)
    (s : Shared) : ph.Asserts before after l s := by
  cases ph with
  | build w => exact absurd trivial h
  | publish => exact absurd trivial h
  | _ => trivial

/-- The assertions hold of a process: at its threads, and once its flag is set. -/
structure Meets (before : Work → Statics → Shared → Prop) (after : Statics → Shared → Prop)
    (P : Process Statics Work) (s : Shared) : Prop where
  initialized : P.initialized = true → after P.statics s
  threads : ∀ i ph, P.threads i = some ph → ph.Asserts before after P.statics s

namespace Meets

variable {P : Process Statics Work} {s : Shared} {i : ℕ}

theorem cold (s : Shared) : Meets before after (Process.cold C) s :=
  ⟨fun h => absurd h Bool.false_ne_true, fun _ _ h => absurd h.symm (Option.some_ne_none _)⟩

theorem goto (h : Meets before after P s) {ph : Phase Work}
    (hph : ph.Asserts before after P.statics s) : Meets before after (P.goto i ph) s := by
  refine ⟨h.initialized, fun j ph' hj => ?_⟩
  rw [threads_goto] at hj
  split_ifs at hj with hji
  · rw [← Option.some.inj hj]
    exact hph
  · exact h.threads j ph' hj

theorem leave (h : Meets before after P s) : Meets before after (P.leave i) s := by
  refine ⟨h.initialized, fun j ph hj => ?_⟩
  rw [threads_leave] at hj
  split_ifs at hj with hji
  exact h.threads j ph hj

/-- After a turn of the construction, as no other thread of the process stands where
something is asserted, and the flag is unset. -/
theorem of_turn (hsound : Sound P) {w : Work} (hi : P.threads i = some (.build w))
    {Q : Process Statics Work} {s' : Shared} (hflag : Q.initialized = P.initialized)
    (hself : ∀ ph, Q.threads i = some ph → ph.Asserts before after Q.statics s')
    (hothers : ∀ j, j ≠ i → Q.threads j = P.threads j) : Meets before after Q s' := by
  refine ⟨fun hset => ?_, fun j ph hj => ?_⟩
  · rw [hflag, hsound.unset i _ hi trivial] at hset
    exact absurd hset Bool.false_ne_true
  -- any other thread stands outside the construction, where nothing is asserted
  · by_cases hji : j = i
    · exact hself ph (hji ▸ hj)
    · rw [hothers j hji] at hj
      exact Phase.asserts_of_not_inside
        (fun hph => hji (hsound.alone hi trivial hj hph.critical)) Q.statics s'

/-- **A turn keeps the assertions** of its own process. -/
theorem exec (houtline : Outline C permitted before after) (h : Meets before after P s)
    (hsound : Sound P) (i : ℕ) (throws : Bool) :
    Meets before after (P.exec C i throws s).1 (P.exec C i throws s).2 := by
  have hmove := move_exec C P i throws s
  generalize P.exec C i throws s = r at hmove ⊢
  cases hmove with
  | stays => exact h
  | throws => exact h.leave
  | passes => exact h.leave
  | reads => exact h.goto trivial
  | takes =>
    have hcheck : (Phase.check : Phase Work).Asserts before after P.statics s := trivial
    exact ⟨h.initialized, (h.goto hcheck).threads⟩
  | checks => exact h.goto (houtline.start P.statics s)
  | more hi hturn =>
    refine of_turn hsound hi rfl (fun ph hph => ?_) (fun j hji => Function.update_of_ne hji _ _)
    rw [threads_goto, if_pos rfl] at hph
    rw [← Option.some.inj hph]
    exact houtline.more (h.threads i _ hi) hturn
  | done hi hturn =>
    refine of_turn hsound hi rfl (fun ph hph => ?_) (fun j hji => Function.update_of_ne hji _ _)
    rw [threads_goto, if_pos rfl] at hph
    rw [← Option.some.inj hph]
    exact houtline.done (h.threads i _ hi) hturn
  | failed hi hturn =>
    refine of_turn hsound hi rfl (fun ph hph => ?_) (fun j hji => Function.update_of_ne hji _ _)
    rw [threads_leave, if_pos rfl] at hph
    exact absurd hph.symm (Option.some_ne_none ph)
  | publishes hi => exact ⟨fun _ => h.threads i _ hi, h.leave.threads⟩

/-- What a change of the shared state has to keep. -/
theorem mono {s' : Shared} (h : Meets before after P s)
    (hbefore : ∀ w, before w P.statics s → before w P.statics s')
    (hafter : after P.statics s → after P.statics s') : Meets before after P s' := by
  refine ⟨fun hset => hafter (h.initialized hset), fun i ph hi => ?_⟩
  have hph := h.threads i ph hi
  cases ph with
  | build w => exact hbefore w hph
  | publish => exact hafter hph
  | _ => trivial

end Meets

/-- **What a thread does** to the statics and to the shared state, it does in a turn of the
construction. -/
theorem exec_turn (P : Process Statics Work) (i : ℕ) (throws : Bool) (s : Shared) :
    ((throws = false → ∀ w, P.threads i ≠ some (.build w))
      ∧ (P.exec C i throws s).1.statics = P.statics ∧ (P.exec C i throws s).2 = s)
    ∨ ∃ w, throws = false ∧ P.threads i = some (.build w)
      ∧ (P.exec C i throws s).1.statics = (C.turn w P.statics s).2.1
      ∧ (P.exec C i throws s).2 = (C.turn w P.statics s).2.2 := by
  have hmove := move_exec C P i throws s
  generalize P.exec C i throws s = r at hmove ⊢
  cases hmove with
  | stays h => exact Or.inl ⟨fun _ w hw => h _ hw trivial, rfl, rfl⟩
  | throws => exact Or.inl ⟨fun h => absurd h Bool.false_ne_true.symm, rfl, rfl⟩
  | passes hi hph =>
    exact Or.inl ⟨fun _ w hw => hph (Option.some.inj (hi.symm.trans hw) ▸ trivial), rfl, rfl⟩
  | reads hi => exact Or.inl ⟨fun _ w => by simp [hi], rfl, rfl⟩
  | takes hi => exact Or.inl ⟨fun _ w => by simp [hi], rfl, rfl⟩
  | checks hi => exact Or.inl ⟨fun _ w => by simp [hi], rfl, rfl⟩
  | publishes hi => exact Or.inl ⟨fun _ w => by simp [hi], rfl, rfl⟩
  | more hi hturn => exact Or.inr ⟨_, rfl, hi, by rw [hturn]; exact ⟨rfl, rfl⟩⟩
  | done hi hturn => exact Or.inr ⟨_, rfl, hi, by rw [hturn]; exact ⟨rfl, rfl⟩⟩
  | failed hi hturn => exact Or.inr ⟨_, rfl, hi, by rw [hturn]; exact ⟨rfl, rfl⟩⟩

/-- The other threads of the process stand where they stood. -/
theorem threads_exec_of_ne {P : Process Statics Work} {i j : ℕ} (hji : j ≠ i) (throws : Bool)
    (s : Shared) : (P.exec C i throws s).1.threads j = P.threads j := by
  have hmove := move_exec C P i throws s
  generalize P.exec C i throws s = r at hmove ⊢
  cases hmove with
  | stays => rfl
  | _ => exact Function.update_of_ne hji _ _

/-- The events that an outline can bear. -/
def Permits (permitted : Other → Prop) (_ : System Statics Shared Work) (e : Event Other) : Prop :=
  ∀ o, e = .other o → permitted o

/-- **One event keeps the assertions** of every process. -/
theorem meets_step (houtline : Outline C permitted before after) (hsound : AllSound sys)
    (hsys : ∀ p, Meets before after (sys.processes p) sys.shared)
    (he : Permits permitted sys e) :
    ∀ p, Meets before after ((step C sys e).processes p) (step C sys e).shared := by
  refine forall_processes_step hsys (fun _ _ => Meets.cold sys.shared)
    (fun p i _ _ => (hsys p).goto trivial)
    (fun p i throws _ => (hsys p).exec houtline (hsound p) i throws) ?_ ?_
  -- a turn of another process reaches this one only through the shared state
  · intro p i throws q _ _
    rcases exec_turn (C := C) (sys.processes p) i throws sys.shared with
      ⟨-, -, hsame⟩ | ⟨w, -, hi, -, hturn⟩
    · rw [hsame]
      exact hsys q
    · have hw : before w (sys.processes p).statics sys.shared := (hsys p).threads i _ hi
      rw [hturn]
      exact (hsys q).mono (fun v => houtline.turn_before hw v _) (houtline.turn_after hw _)
  · intro o q ho
    exact (hsys q).mono (fun w => houtline.other_before (he o ho) w _ _)
      (houtline.other_after (he o ho) _ _)

/-- **A proof outline** holds along every run whose events it can bear. -/
theorem outline_reached (houtline : Outline C permitted before after) (s : Shared)
    (hes : Guarded (step C) (Permits permitted) (System.cold C s) es) :
    ∀ p, Meets before after ((run (step C) (System.cold C s) es).processes p)
      (run (step C) (System.cold C s) es).shared := by
  -- the assertions need soundness at every step, so the two are one invariant
  have hinv : AllSound (run (step C) (System.cold C s) es)
      ∧ ∀ p, Meets before after ((run (step C) (System.cold C s) es).processes p)
        (run (step C) (System.cold C s) es).shared :=
    @invariant_run _ _ (step C) (Permits permitted)
      (fun sys => AllSound sys ∧ ∀ p, Meets before after (sys.processes p) sys.shared)
      (fun sys e hsys he => ⟨sound_step hsys.1 e, meets_step houtline hsys.1 hsys.2 he⟩)
      es (System.cold C s) ⟨fun _ => Sound.cold, fun _ => Meets.cold s⟩ hes
  exact hinv.2

/-- Whoever may go on finds what the construction leaves behind. -/
theorem after_of_passes {p : ℕ} (h : Meets before after (sys.processes p) sys.shared)
    (he : Passes p sys e) : after (sys.processes p).statics sys.shared := by
  -- the thread has just constructed, or has found the flag set
  obtain ⟨i, ph, -, hi, rfl | ⟨hset, -⟩⟩ := he
  · exact h.threads i _ hi
  · exact h.initialized hset

/-! ## Once -/

/-- What an event does to one process: it restarts, a request arrives, a thread has its
turn, or the process stays as it is. -/
theorem processes_step (sys : System Statics Shared Work) (e : Event Other) (p : ℕ) :
    (e = .recycle p ∧ (step C sys e).processes p = Process.cold C)
    ∨ (∃ i, e = .arrive p i ∧ (sys.processes p).threads i = none
        ∧ (step C sys e).processes p = (sys.processes p).goto i .read)
    ∨ (∃ i throws, e = .advance p i throws
        ∧ (step C sys e).processes p = ((sys.processes p).exec C i throws sys.shared).1)
    ∨ (e ≠ .recycle p ∧ ∀ i throws, e ≠ .advance p i throws)
        ∧ (step C sys e).processes p = sys.processes p := by
  cases e with
  | other o => exact Or.inr (Or.inr (Or.inr ⟨⟨by simp, by simp⟩, rfl⟩))
  | recycle q =>
    by_cases hq : p = q
    · rw [hq]
      exact Or.inl ⟨rfl, Function.update_self q _ _⟩
    · refine Or.inr (Or.inr (Or.inr ⟨⟨?_, by simp⟩, Function.update_of_ne hq _ _⟩))
      exact fun heq => hq (Event.recycle.inj heq).symm
  | advance q i throws =>
    by_cases hq : p = q
    · rw [hq]
      exact Or.inr (Or.inr (Or.inl ⟨i, throws, rfl, Function.update_self q _ _⟩))
    · refine Or.inr (Or.inr (Or.inr ⟨⟨by simp, ?_⟩, Function.update_of_ne hq _ _⟩))
      exact fun j t heq => hq (Event.advance.inj heq).1.symm
  | arrive q i =>
    cases hi : (sys.processes q).threads i with
    | some ph =>
      rw [step_arrive_taken hi]
      exact Or.inr (Or.inr (Or.inr ⟨⟨by simp, by simp⟩, rfl⟩))
    | none =>
      rw [step_arrive_free hi]
      by_cases hq : p = q
      · rw [hq]
        exact Or.inr (Or.inl ⟨i, rfl, hi, Function.update_self q _ _⟩)
      · exact Or.inr (Or.inr (Or.inr ⟨⟨by simp, by simp⟩, Function.update_of_ne hq _ _⟩))

/-- The event completes a construction of the process. -/
def Publishes (p : ℕ) (sys : System Statics Shared Work) (e : Event Other) : Prop :=
  ∃ i, e = .advance p i false ∧ (sys.processes p).threads i = some .publish

theorem initialized_exec (P : Process Statics Work) (i : ℕ) (throws : Bool) (s : Shared) :
    (P.exec C i throws s).1.initialized = true
      ↔ (throws = false ∧ P.threads i = some .publish) ∨ P.initialized = true := by
  have hmove := move_exec C P i throws s
  generalize P.exec C i throws s = r at hmove ⊢
  cases hmove with
  | stays h =>
    refine (or_iff_right ?_).symm
    rintro ⟨-, hi⟩
    exact h _ hi trivial
  | throws hi => simp [Process.leave]
  | passes hi hph hset => simp [Process.leave, hset]
  | publishes hi => simp [Process.leave, hi]
  | reads hi => simp [Process.goto, hi]
  | takes hi => simp [Process.goto, hi]
  | checks hi => simp [Process.goto, hi]
  | more hi => simp [Process.goto, hi]
  | done hi => simp [Process.goto, hi]
  | failed hi => simp [Process.leave, hi]

/-- **The flag** is set by completing a construction and forgotten in a restart. -/
theorem initialized_step (sys : System Statics Shared Work) (e : Event Other) (p : ℕ) :
    ((step C sys e).processes p).initialized = true
      ↔ Publishes p sys e ∨ (sys.processes p).initialized = true ∧ ¬ Recycles p sys e := by
  rcases processes_step (C := C) sys e p with
    ⟨rfl, h⟩ | ⟨i, rfl, -, h⟩ | ⟨i, throws, rfl, h⟩ | ⟨⟨hrecycle, hadvance⟩, h⟩
  · simp [h, Process.cold, Publishes, Recycles]
  · simp [h, Process.goto, Publishes, Recycles]
  · rw [h, initialized_exec]
    simp [Publishes, Recycles]
  · simp [h, Publishes, Recycles, hrecycle, hadvance]

/-! ## A thread that is left alone -/

/-- In turns of its own, and without an exception, the thread gets through. -/
def GetsThrough (C : Construction Statics Shared Work Other) (p i : ℕ)
    (sys : System Statics Shared Work) : Prop :=
  ∃ n, Passes p (run (step C) sys (List.replicate n (.advance p i false)))
    (.advance p i false : Event Other)

/-- The thread goes on by one move. -/
theorem getsThrough_of_move {p i : ℕ} {P Q : Process Statics Work} {ph : Phase Work} {s : Shared}
    (hP : sys.processes p = P) (hi : P.threads i = some ph)
    (hmove : P.advance C i ph sys.shared = (Q, s))
    (h : ∀ sys' : System Statics Shared Work, sys'.processes p = Q → sys'.shared = s →
      GetsThrough C p i sys') : GetsThrough C p i sys := by
  have hstep : step C sys (.advance p i false) = ⟨s, Function.update sys.processes p Q⟩ := by
    rw [step, hP, exec_advance hi, hmove]
  have hself : Function.update sys.processes p Q p = Q := Function.update_self p Q sys.processes
  obtain ⟨n, hn⟩ := h ⟨s, Function.update sys.processes p Q⟩ hself rfl
  refine ⟨n + 1, ?_⟩
  rwa [List.replicate_succ, run_cons, hstep]

/-- It goes on by one call of the construction. -/
theorem getsThrough_more {p i : ℕ} {w w' : Work} {l : Statics} {s₀ s : Shared}
    (hi : (sys.processes p).threads i = some (.build w)) (hs : sys.shared = s₀)
    (hturn : C.turn w (sys.processes p).statics s₀ = (.more w', l, s))
    (h : ∀ sys' : System Statics Shared Work, (sys'.processes p).threads i = some (.build w') →
      (sys'.processes p).statics = l → sys'.shared = s → GetsThrough C p i sys') :
    GetsThrough C p i sys := by
  refine getsThrough_of_move (Q := { sys.processes p with statics := l }.goto i (.build w'))
    (s := s) rfl hi ?_ (fun sys' hprocess hshared => h sys' ?_ ?_ hshared)
  · simp only [Process.advance, Process.build, hs, hturn]
  · rw [hprocess, threads_goto, if_pos rfl]
  · rw [hprocess]
    rfl

/-- The construction is done, and the thread sets the flag. -/
theorem getsThrough_done {p i : ℕ} {w : Work} {l : Statics} {s₀ s : Shared}
    (hi : (sys.processes p).threads i = some (.build w)) (hs : sys.shared = s₀)
    (hturn : C.turn w (sys.processes p).statics s₀ = (.done, l, s)) :
    GetsThrough C p i sys := by
  refine getsThrough_of_move (Q := { sys.processes p with statics := l }.goto i .publish)
    (s := s) rfl hi ?_ (fun sys' hprocess _ => ⟨0, i, .publish, rfl, ?_, Or.inl rfl⟩)
  · simp only [Process.advance, Process.build, hs, hturn]
  · show (sys'.processes p).threads i = some .publish
    rw [hprocess, threads_goto, if_pos rfl]

/-- A request that finds the flag set is let through at once. -/
theorem getsThrough_set {p i : ℕ} (hset : (sys.processes p).initialized = true)
    (hi : (sys.processes p).threads i = some .read) : GetsThrough C p i sys :=
  ⟨0, i, .read, rfl, hi, Or.inr ⟨hset, Or.inl rfl⟩⟩

/-- One that finds it unset and the lock free starts the construction. -/
theorem getsThrough_unset {p i : ℕ} (hunset : (sys.processes p).initialized = false)
    (hfree : (sys.processes p).holder = none) (hi : (sys.processes p).threads i = some .read)
    (h : ∀ sys' : System Statics Shared Work,
      (sys'.processes p).threads i = some (.build C.start) →
      (sys'.processes p).statics = (sys.processes p).statics → sys'.shared = sys.shared →
      GetsThrough C p i sys') : GetsThrough C p i sys := by
  have hne : ¬ (sys.processes p).initialized = true := Bool.eq_false_iff.mp hunset
  have hgoto : ∀ (P : Process Statics Work) ph, (P.goto i ph).threads i = some ph :=
    fun P ph => by rw [threads_goto, if_pos rfl]
  -- it reads the flag, takes the lock and reads the flag again
  refine getsThrough_of_move rfl hi (advance_read hne) (fun sys₁ h₁ hs₁ => ?_)
  refine getsThrough_of_move h₁ (hgoto _ _) (advance_lock hfree) (fun sys₂ h₂ hs₂ => ?_)
  refine getsThrough_of_move h₂ (hgoto _ _) (advance_check hne) (fun sys₃ h₃ hs₃ => ?_)
  refine h sys₃ ?_ ?_ (hs₃.trans (hs₂.trans hs₁))
  · rw [h₃, hgoto]
  · rw [h₃]
    rfl

end Runs

end CgGuide.LazyInitialization
