/-
Read, change, write back, without a lock.

Several clients share one value. Each takes a copy, works on the copy, and later
writes the whole result back; nobody checks that the value is still the one that
was copied. What such a protocol guarantees is little but exact: the value after
a client's write is that client's change applied to the value *as it was when the
client read it* (`shared_after_last_write`), whatever the others wrote in between.
Two clients therefore both keep their changes when one of them reads after the
other wrote, and otherwise the last writer's copy is all that remains
(`shared_two_clients`).
-/
import CgGuide.Runs
import Mathlib.Logic.Function.Basic

set_option autoImplicit false

namespace CgGuide.ReadModifyWrite

open CgGuide.Runs

/-! ## Mixing two sequences -/

/-- `n` is a mix of `l` and `m` that keeps the order of each. -/
inductive Shuffle {α : Type*} : List α → List α → List α → Prop
  | nil : Shuffle [] [] []
  | left {l m n : List α} (a : α) (h : Shuffle l m n) : Shuffle (a :: l) m (a :: n)
  | right {l m n : List α} (a : α) (h : Shuffle l m n) : Shuffle l (a :: m) (a :: n)

theorem Shuffle.eq_of_nil_left {α : Type*} {m n : List α} (h : Shuffle [] m n) : n = m := by
  induction m generalizing n with
  | nil =>
      cases h
      rfl
  | cons a m ih =>
      cases h with
      | right _ h => rw [ih h]

theorem Shuffle.eq_of_nil_right {α : Type*} {l n : List α} (h : Shuffle l [] n) : n = l := by
  induction l generalizing n with
  | nil =>
      cases h
      rfl
  | cons a l ih =>
      cases h with
      | left _ h => rw [ih h]

/-- The six mixes of two sequences of two. -/
theorem Shuffle.two_two {α : Type*} {a b c d : α} {n : List α} (h : Shuffle [a, b] [c, d] n) :
    n = [a, b, c, d] ∨ n = [a, c, b, d] ∨ n = [a, c, d, b]
      ∨ n = [c, a, b, d] ∨ n = [c, a, d, b] ∨ n = [c, d, a, b] := by
  cases h with
  | left _ h =>
    cases h with
    | left _ h =>
      rw [h.eq_of_nil_left]
      exact Or.inl rfl
    | right _ h =>
      cases h with
      | left _ h =>
        rw [h.eq_of_nil_left]
        exact Or.inr (Or.inl rfl)
      | right _ h =>
        rw [h.eq_of_nil_right]
        exact Or.inr (Or.inr (Or.inl rfl))
  | right _ h =>
    cases h with
    | left _ h =>
      cases h with
      | left _ h =>
        rw [h.eq_of_nil_left]
        exact Or.inr (Or.inr (Or.inr (Or.inl rfl)))
      | right _ h =>
        rw [h.eq_of_nil_right]
        exact Or.inr (Or.inr (Or.inr (Or.inr (Or.inl rfl))))
    | right _ h =>
      rw [h.eq_of_nil_right]
      exact Or.inr (Or.inr (Or.inr (Or.inr (Or.inr rfl))))

/-! ## The protocol -/

section Protocol

variable {Client Value : Type*} [DecidableEq Client]

inductive Event (Client : Type*)
  | read (k : Client)
  | write (k : Client)
deriving DecidableEq

/-- The shared value, and the copies the clients hold. -/
structure State (Client Value : Type*) where
  shared : Value
  copy : Client → Option Value

/-- One event, where `f k` is the change client `k` makes to its copy. A client
without a copy has nothing to write. -/
def step (f : Client → Value → Value) (s : State Client Value) : Event Client → State Client Value
  | .read k => { s with copy := Function.update s.copy k (some s.shared) }
  | .write k =>
    match s.copy k with
    | none => s
    | some v => { s with shared := f k v }

variable (f : Client → Value → Value) (s : State Client Value)

theorem step_read (k : Client) :
    step f s (.read k) = { s with copy := Function.update s.copy k (some s.shared) } := rfl

theorem step_write {k : Client} {v : Value} (h : s.copy k = some v) :
    step f s (.write k) = { s with shared := f k v } := by
  simp only [step, h]

/-- A client's copy stays until it reads again. -/
theorem copy_run {k : Client} {es : List (Event Client)} (h : Event.read k ∉ es) :
    (run (step f) s es).copy k = s.copy k := by
  induction es generalizing s with
  | nil => rfl
  | cons e es ih =>
      have hes : Event.read k ∉ es := fun hmem => h (List.mem_cons_of_mem _ hmem)
      rw [run_cons, ih (step f s e) hes]
      cases e with
      | read j =>
        have hj : k ≠ j := by
          rintro rfl
          exact h List.mem_cons_self
        rw [step_read]
        exact Function.update_of_ne hj (some s.shared) s.copy
      | write j =>
        cases hj : s.copy j with
        | none => rw [step, hj]
        | some v => rw [step_write f s hj]

/-- Reading changes nothing that is shared. -/
theorem shared_run {es : List (Event Client)} (h : ∀ k, Event.write k ∉ es) :
    (run (step f) s es).shared = s.shared := by
  induction es generalizing s with
  | nil => rfl
  | cons e es ih =>
      rw [run_cons, ih (step f s e) (fun k hmem => h k (List.mem_cons_of_mem _ hmem))]
      cases e with
      | read j => rfl
      | write j => exact absurd List.mem_cons_self (h j)

/-- **The last write decides.** After it, the value is the writer's change to the
value the writer read, and nothing of what others wrote since. -/
theorem shared_after_last_write {k : Client} (pre : List (Event Client))
    {mid post : List (Event Client)} (hmid : Event.read k ∉ mid)
    (hpost : ∀ j, Event.write j ∉ post) :
    (run (step f) s (pre ++ .read k :: (mid ++ .write k :: post))).shared
      = f k (run (step f) s pre).shared := by
  rw [run_append, run_cons, run_append, run_cons, shared_run f _ hpost]
  -- what `k` holds when it writes is what it read
  have hcopy : (run (step f) (step f (run (step f) s pre) (.read k)) mid).copy k
      = some (run (step f) s pre).shared := by
    rw [copy_run f _ hmid, step_read]
    exact Function.update_self k (some (run (step f) s pre).shared) (run (step f) s pre).copy
  rw [step_write f _ hcopy]

/-- **Two clients.** When `k` writes last, both changes are there if `k` read
after `j` wrote; otherwise only `k`'s is. -/
theorem shared_two_clients {j k : Client} (hjk : j ≠ k) {es : List (Event Client)}
    (hes : Shuffle [.read j, .write j] [.read k, .write k] es)
    (hlast : es.getLast? = some (.write k)) :
    (run (step f) s es).shared
      = if es = [.read j, .write j, .read k, .write k] then f k (f j s.shared)
        else f k s.shared := by
  have hread : Event.read k ≠ Event.read j := fun h => hjk (Event.read.inj h).symm
  -- of the six orders three end with `k`'s write; the first of them is the serial one
  rcases hes.two_two with rfl | rfl | rfl | rfl | rfl | rfl
  · have hj := shared_after_last_write f s [] (@List.not_mem_nil _ (Event.read j))
      (fun i => @List.not_mem_nil _ (Event.write i))
    have hk := shared_after_last_write f s [.read j, .write j]
      (@List.not_mem_nil _ (Event.read k)) (fun i => @List.not_mem_nil _ (Event.write i))
    rw [if_pos rfl]
    exact hk.trans (congrArg (f k) hj)
  · rw [if_neg (by simp)]
    have hmid : Event.read k ∉ [Event.write j] := by simp
    exact shared_after_last_write f s [.read j] hmid (fun i => @List.not_mem_nil _ (Event.write i))
  · simp [hjk] at hlast
  · rw [if_neg (by simp [hread])]
    have hmid : Event.read k ∉ [Event.read j, Event.write j] := by simp [hread]
    exact shared_after_last_write f s [] hmid (fun i => @List.not_mem_nil _ (Event.write i))
  · simp [hjk] at hlast
  · simp [hjk] at hlast

end Protocol

end CgGuide.ReadModifyWrite
