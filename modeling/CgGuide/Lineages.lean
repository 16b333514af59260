/-
Copies that are written back: which changes survive.

Clients take copies of cells, change what they took and write the whole back. Nobody
checks that the cell is still what was copied, so a write puts in its place what it was
made from, with one change, and whatever others wrote meanwhile is gone.

The lineage of a cell says what is left. It is the list of the changes its value is made
of: a write puts its change behind the lineage of the copy it was made from. The value of
a cell is its lineage applied to what was there first (`cells_run`); the newest write is
always the last on it (`getLast?_lineage`); all that is on it was written at some time,
version by version (`lineage_writesOnly`); and every write is on it exactly if none came
between another one and the copy that one was made from (`lineage_eq_writes_iff`).
-/
import CgGuide.Runs
import Mathlib.Logic.Function.Basic

set_option autoImplicit false

namespace CgGuide.Lineages

open CgGuide.Runs

variable {Client Cell Change Value : Type*} [DecidableEq Client] [DecidableEq Cell]

/-! ## The protocol -/

/-- A client takes a copy of a cell, or writes its copy back with a change. -/
inductive Event (Client Cell Change : Type*)
  | read (k : Client) (i : Cell)
  | write (k : Client) (x : Change)

/-- The cells, and what each client has copied, with the cell it is from. -/
structure State (Client Cell Value : Type*) where
  cells : Cell → Value
  copy : Client → Option (Cell × Value)

/-- One event. A copy stays with its client, who may write it back again. -/
def step (apply : Value → Change → Value) (s : State Client Cell Value) :
    Event Client Cell Change → State Client Cell Value
  | .read k i => { s with copy := Function.update s.copy k (some (i, s.cells i)) }
  | .write k x =>
    match s.copy k with
    | none => s
    | some (i, v) => { s with cells := Function.update s.cells i (apply v x) }

/-- Nobody has a copy yet. -/
def start (cells : Cell → Value) : State Client Cell Value := ⟨cells, fun _ => none⟩

/-- **What an event does**: a copy is taken, a write has no copy to be made from, or one
cell is written. -/
theorem step_cases (apply : Value → Change → Value) (s : State Client Cell Value)
    (e : Event Client Cell Change) :
    (∃ k i, e = .read k i ∧ (step apply s e).cells = s.cells
        ∧ (step apply s e).copy = Function.update s.copy k (some (i, s.cells i)))
    ∨ (∃ k x, e = .write k x ∧ s.copy k = none ∧ (step apply s e).cells = s.cells
        ∧ (step apply s e).copy = s.copy)
    ∨ ∃ k x i v, e = .write k x ∧ s.copy k = some (i, v)
        ∧ (step apply s e).cells = Function.update s.cells i (apply v x)
        ∧ (step apply s e).copy = s.copy := by
  cases e with
  | read k i => exact Or.inl ⟨k, i, rfl, rfl, rfl⟩
  | write k x =>
      cases hk : s.copy k with
      | none =>
          have hstep : step apply s (.write k x) = s := by simp only [step, hk]
          exact Or.inr (Or.inl ⟨k, x, rfl, hk, by rw [hstep], by rw [hstep]⟩)
      | some c =>
          have hstep : step apply s (.write k x)
              = { s with cells := Function.update s.cells c.1 (apply c.2 x) } := by
            simp only [step, hk]
          exact Or.inr (Or.inr ⟨k, x, c.1, c.2, rfl, hk, by rw [hstep], by rw [hstep]⟩)

/-! ## Lineages -/

/-- A run on the changes alone: a cell holds those that went into it. -/
def history (es : List (Event Client Cell Change)) : State Client Cell (List Change) :=
  run (step (fun l x => l ++ [x])) (start fun _ => []) es

/-- The changes that the value of a cell is made of. -/
def lineage (es : List (Event Client Cell Change)) (i : Cell) : List Change :=
  (history es).cells i

/-- What an event writes to the cell. -/
def written (i : Cell) (s : State Client Cell (List Change)) :
    Event Client Cell Change → List Change
  | .read _ _ => []
  | .write k x =>
    match s.copy k with
    | none => []
    | some c => if c.1 = i then [x] else []

/-- All that was written to the cell. -/
def writes (es : List (Event Client Cell Change)) (i : Cell) : List Change :=
  emitted (step (fun l x => l ++ [x])) (written i) (start fun _ => []) es

/-- The client takes a copy of the cell. -/
def Reads (k : Client) (i : Cell) (_ : State Client Cell (List Change))
    (e : Event Client Cell Change) : Prop :=
  e = .read k i

/-- Somebody writes to the cell. -/
def Writes (i : Cell) (s : State Client Cell (List Change)) (e : Event Client Cell Change) :
    Prop :=
  written i s e ≠ []

/-- The client has taken a copy of the cell, and nobody has written to it since. -/
def Fresh (k : Client) (i : Cell) (es : List (Event Client Cell Change)) : Prop :=
  Since (step (fun l x => l ++ [x])) (Reads k i) (Writes i) (start fun _ => []) es

/-- Every write to the cell is made from a fresh copy. -/
def Serial (es : List (Event Client Cell Change)) (i : Cell) : Prop :=
  ∀ pre e post, es = pre ++ e :: post →
    ∀ k x, e = .write k x → Writes i (history pre) e → Fresh k i pre

section Lineage

variable {es : List (Event Client Cell Change)} {e : Event Client Cell Change} {i : Cell}

theorem history_concat (es : List (Event Client Cell Change)) (e : Event Client Cell Change) :
    history (es ++ [e]) = step (fun l x => l ++ [x]) (history es) e :=
  run_append _ _ es [e]

theorem writes_concat (es : List (Event Client Cell Change)) (e : Event Client Cell Change)
    (i : Cell) : writes (es ++ [e]) i = writes es i ++ written i (history es) e := by
  rw [writes, emitted_append, ← writes, emitted, emitted, List.append_nil, history]

theorem fresh_concat {k : Client} :
    Fresh k i (es ++ [e]) ↔ e = .read k i ∨ Fresh k i es ∧ ¬ Writes i (history es) e :=
  since_concat es e

theorem serial_concat :
    Serial (es ++ [e]) i ↔ Serial es i
      ∧ ∀ k x, e = .write k x → Writes i (history es) e → Fresh k i es :=
  forall_split_concat

omit [DecidableEq Client] in
theorem written_write {s : State Client Cell (List Change)} {k : Client} {x : Change} {j : Cell}
    {l : List Change} (h : s.copy k = some (j, l)) :
    written i s (.write k x) = if j = i then [x] else [] := by
  simp only [written, h]

omit [DecidableEq Client] in
theorem written_write_none {s : State Client Cell (List Change)} {k : Client} {x : Change}
    (h : s.copy k = none) : written i s (.write k x) = [] := by
  simp only [written, h]

end Lineage

/-! ## What a cell holds -/

/-- A state whose values are made of the changes in the other one. -/
def MadeOf (apply : Value → Change → Value) (cells : Cell → Value) (s : State Client Cell Value)
    (h : State Client Cell (List Change)) : Prop :=
  (∀ i, s.cells i = (h.cells i).foldl apply (cells i))
    ∧ ∀ k, s.copy k = (h.copy k).map (fun c => (c.1, c.2.foldl apply (cells c.1)))

theorem MadeOf.step {apply : Value → Change → Value} {cells : Cell → Value}
    {s : State Client Cell Value} {h : State Client Cell (List Change)}
    (hmade : MadeOf apply cells s h) (e : Event Client Cell Change) :
    MadeOf apply cells (step apply s e) (step (fun l x => l ++ [x]) h e) := by
  obtain ⟨hcells, hcopy⟩ := hmade
  unfold MadeOf
  rcases step_cases (fun l x => l ++ [x]) h e with
    ⟨k, i, rfl, hcells', hcopy'⟩ | ⟨k, x, rfl, hk, hcells', hcopy'⟩
      | ⟨k, x, i, l, rfl, hk, hcells', hcopy'⟩
  · rw [hcells', hcopy']
    refine ⟨hcells, fun k' => ?_⟩
    simp only [Lineages.step]
    by_cases hk' : k' = k
    · rw [hk', Function.update_self, Function.update_self, hcells, Option.map_some]
    · rw [Function.update_of_ne hk', Function.update_of_ne hk', hcopy]
  · have hnone : s.copy k = none := by rw [hcopy, hk, Option.map_none]
    rw [hcells', hcopy']
    simp only [Lineages.step, hnone]
    exact ⟨hcells, hcopy⟩
  · have hsome : s.copy k = some (i, l.foldl apply (cells i)) := by
      rw [hcopy, hk, Option.map_some]
    rw [hcells', hcopy']
    simp only [Lineages.step, hsome]
    refine ⟨fun i' => ?_, hcopy⟩
    by_cases hi' : i' = i
    · rw [hi', Function.update_self, Function.update_self, List.foldl_append]
      rfl
    · rw [Function.update_of_ne hi', Function.update_of_ne hi', hcells]

theorem madeOf_run (apply : Value → Change → Value) (cells : Cell → Value)
    (es : List (Event Client Cell Change)) :
    MadeOf apply cells (run (step apply) (start cells) es) (history es) :=
  run_related (R := MadeOf apply cells) (fun _ _ e h => h.step e) ⟨fun _ => rfl, fun _ => rfl⟩

/-- **The value of a cell** is what it was at first, with the changes of its lineage. -/
theorem cells_run (apply : Value → Change → Value) (cells : Cell → Value)
    (es : List (Event Client Cell Change)) (i : Cell) :
    (run (step apply) (start cells) es).cells i = (lineage es i).foldl apply (cells i) :=
  (madeOf_run apply cells es).1 i

/-! ## What a lineage is made of -/

/-- **The rule of versions.** What holds of an untouched cell, stays true, and is brought
by a write to what it writes, holds of the lineage of every cell and of every copy. -/
theorem version_rule {I : List (Event Client Cell Change) → Cell → List Change → Prop}
    (hnil : ∀ i, I [] i []) (hkeep : ∀ es e i l, I es i l → I (es ++ [e]) i l)
    (es : List (Event Client Cell Change))
    (hwrite : ∀ pre k x i l, pre ++ [.write k x] <+: es → (history pre).copy k = some (i, l) →
      I pre i l → I (pre ++ [.write k x]) i (l ++ [x])) :
    (∀ i, I es i (lineage es i)) ∧ ∀ k i l, (history es).copy k = some (i, l) → I es i l := by
  induction es using List.reverseRecOn with
  | nil => exact ⟨hnil, fun k i l h => absurd h.symm (Option.some_ne_none _)⟩
  | append_singleton es e ih =>
      obtain ⟨hcells, hcopy⟩ := ih (fun pre k x i l hpre =>
        hwrite pre k x i l (hpre.trans (List.prefix_append es [e])))
      unfold lineage
      rw [history_concat]
      rcases step_cases (fun l x => l ++ [x]) (history es) e with
        ⟨k, i, rfl, hcells', hcopy'⟩ | ⟨k, x, rfl, hk, hcells', hcopy'⟩
          | ⟨k, x, i, l, rfl, hk, hcells', hcopy'⟩
      · rw [hcells', hcopy']
        refine ⟨fun i' => hkeep _ _ _ _ (hcells i'), fun k' i' l' h => hkeep _ _ _ _ ?_⟩
        by_cases hk' : k' = k
        · rw [hk', Function.update_self] at h
          obtain ⟨rfl, rfl⟩ := Prod.mk.inj (Option.some.inj h)
          exact hcells i
        · rw [Function.update_of_ne hk'] at h
          exact hcopy k' i' l' h
      · rw [hcells', hcopy']
        exact ⟨fun i' => hkeep _ _ _ _ (hcells i'),
          fun k' i' l' h => hkeep _ _ _ _ (hcopy k' i' l' h)⟩
      · rw [hcells', hcopy']
        refine ⟨fun i' => ?_, fun k' i' l' h => hkeep _ _ _ _ (hcopy k' i' l' h)⟩
        by_cases hi' : i' = i
        · rw [hi', Function.update_self]
          exact hwrite es k x i l (List.prefix_refl _) hk (hcopy k i l hk)
        · rw [Function.update_of_ne hi']
          exact hkeep _ _ _ _ (hcells i')

/-- **A lineage is a part of what was written**, in the order it was written in. -/
theorem sublist_writes (es : List (Event Client Cell Change)) :
    (∀ i, (lineage es i).Sublist (writes es i))
      ∧ ∀ k i l, (history es).copy k = some (i, l) → l.Sublist (writes es i) := by
  refine version_rule (I := fun es i l => l.Sublist (writes es i))
    (fun i => List.Sublist.refl []) (fun es e i l h => ?_) es (fun pre k x i l _ hk h => ?_)
  · rw [writes_concat]
    exact h.trans (List.sublist_append_left _ _)
  · rw [writes_concat, written_write hk, if_pos rfl]
    exact h.append_right [x]

/-- **The newest write** to a cell is the last on its lineage. -/
theorem getLast?_lineage (es : List (Event Client Cell Change)) (i : Cell) :
    (lineage es i).getLast? = (writes es i).getLast? := by
  induction es using List.reverseRecOn with
  | nil => rfl
  | append_singleton es e ih =>
      rw [writes_concat, lineage, history_concat]
      rcases step_cases (fun l x => l ++ [x]) (history es) e with
        ⟨k, j, rfl, hcells, -⟩ | ⟨k, x, rfl, hk, hcells, -⟩ | ⟨k, x, j, l, rfl, hk, hcells, -⟩
      · rw [hcells, written, List.append_nil]
        exact ih
      · rw [hcells, written_write_none hk, List.append_nil]
        exact ih
      · rw [hcells, written_write hk]
        by_cases hj : j = i
        · rw [hj, Function.update_self, if_pos rfl, List.getLast?_concat, List.getLast?_concat]
        · rw [Function.update_of_ne (Ne.symm hj), if_neg hj, List.append_nil]
          exact ih

/-- What is true of all values that are written. -/
def WritesOnly (P : Value → Prop) (apply : Value → Change → Value) (s : State Client Cell Value)
    (e : Event Client Cell Change) : Prop :=
  ∀ k x i v, e = .write k x → s.copy k = some (i, v) → P (apply v x)

/-- **Every version on a lineage** was written at some time. -/
theorem lineage_writesOnly {P : Value → Prop} {apply : Value → Change → Value}
    {cells : Cell → Value} {es : List (Event Client Cell Change)}
    (hes : Guarded (step apply) (WritesOnly P apply) (start cells) es) (i : Cell)
    {l : List Change} {x : Change} (hl : l ++ [x] <+: lineage es i) :
    P (apply (l.foldl apply (cells i)) x) := by
  refine (version_rule
    (I := fun _ i (l : List Change) => ∀ (l' : List Change) x, l' ++ [x] <+: l →
      P (apply (l'.foldl apply (cells i)) x))
    (fun i l' x h => ?_) (fun _ _ _ _ h => h) es
    (fun pre k x i l hpre hk h l' x' hl' => ?_)).1 i l x hl
  · exact absurd (List.prefix_nil.mp h)
      (List.append_ne_nil_of_right_ne_nil l' (List.cons_ne_nil x []))
  · rcases List.prefix_concat_iff.mp hl' with heq | hl'
    · obtain ⟨rfl, hx⟩ := List.append_inj' heq rfl
      obtain rfl := List.head_eq_of_cons_eq hx
      obtain ⟨post, rfl⟩ := hpre
      have hwrite := (Guarded.append (Guarded.append hes).1).2.1
      refine hwrite k x' i (l'.foldl apply (cells i)) rfl ?_
      rw [(madeOf_run apply cells pre).2, hk, Option.map_some]
    · exact h l' x' hl'

/-! ## When nothing is lost -/

/-- A cell, and a copy of it, that nothing is missing in. -/
theorem complete_iff (es : List (Event Client Cell Change)) (i : Cell) :
    (lineage es i = writes es i ↔ Serial es i)
      ∧ ∀ k l, (history es).copy k = some (i, l) →
        (l = writes es i ↔ Fresh k i es ∧ Serial es i) := by
  induction es using List.reverseRecOn with
  | nil =>
      refine ⟨iff_of_true rfl ?_, fun k l h => absurd h.symm (Option.some_ne_none _)⟩
      intro pre e post hes
      exact absurd hes.symm (List.append_ne_nil_of_right_ne_nil pre (List.cons_ne_nil e post))
  | append_singleton es e ih =>
      obtain ⟨hcell, hcopy⟩ := ih
      -- where nothing is written to the cell, nothing becomes more or less serial
      have hquiet : written i (history es) e = [] →
          (Serial (es ++ [e]) i ↔ Serial es i)
            ∧ ∀ k, (Fresh k i (es ++ [e]) ↔ e = .read k i ∨ Fresh k i es) := by
        intro hnone
        have hnot : ¬ Writes i (history es) e := not_not.mpr hnone
        refine ⟨?_, fun k => ?_⟩
        · rw [serial_concat]
          exact and_iff_left (fun k x _ hwrites => absurd hwrites hnot)
        · rw [fresh_concat, and_iff_left hnot]
      rw [writes_concat, lineage, history_concat]
      rcases step_cases (fun l x => l ++ [x]) (history es) e with
        ⟨k, j, rfl, hcells', hcopy'⟩ | ⟨k, x, rfl, hk, hcells', hcopy'⟩
          | ⟨k, x, j, l, rfl, hk, hcells', hcopy'⟩
      · obtain ⟨hserial, hfresh⟩ := hquiet rfl
        rw [hcells', hcopy', hserial, written, List.append_nil]
        refine ⟨hcell, fun k' l' h => ?_⟩
        rw [hfresh]
        by_cases hk' : k' = k
        · rw [hk', Function.update_self] at h
          obtain ⟨rfl, rfl⟩ := Prod.mk.inj (Option.some.inj h)
          rw [hk', and_iff_right (Or.inl rfl)]
          exact hcell
        · rw [Function.update_of_ne hk'] at h
          rw [hcopy k' l' h, or_iff_right (fun he => hk' (Event.read.inj he).1.symm)]
      · obtain ⟨hserial, hfresh⟩ := hquiet (written_write_none hk)
        rw [hcells', hcopy', hserial, written_write_none hk, List.append_nil]
        refine ⟨hcell, fun k' l' h => ?_⟩
        rw [hfresh, hcopy k' l' h, or_iff_right (fun he => by cases he)]
      · rw [hcells', hcopy']
        by_cases hj : j = i
        · subst hj
          have hwritten : written j (history es) (.write k x) = [x] := by
            rw [written_write hk, if_pos rfl]
          have hwrites : Writes j (history es) (.write k x) := by
            rw [Writes, hwritten]
            exact List.cons_ne_nil x []
          rw [hwritten, serial_concat, Function.update_self, List.append_left_inj]
          refine ⟨?_, fun k' l' h => iff_of_false ?_ ?_⟩
          · rw [hcopy k l hk, and_comm]
            refine and_congr_right (fun _ => ⟨?_, fun h => h k x rfl hwrites⟩)
            rintro hfresh k' x' he -
            rw [(Event.write.inj he).1] at hfresh
            exact hfresh
          · -- a copy is never longer than what had been written by then
            intro hl
            have hlength := ((sublist_writes es).2 k' j l' h).length_le
            rw [hl, List.length_append, List.length_singleton] at hlength
            omega
          · rw [fresh_concat]
            rintro ⟨hread | ⟨-, hnot⟩, -⟩
            · cases hread
            · exact hnot hwrites
        · have hwritten : written i (history es) (.write k x) = [] := by
            rw [written_write hk, if_neg hj]
          obtain ⟨hserial, hfresh⟩ := hquiet hwritten
          rw [hserial, hwritten, List.append_nil, Function.update_of_ne (Ne.symm hj)]
          refine ⟨hcell, fun k' l' h => ?_⟩
          rw [hfresh, hcopy k' l' h, or_iff_right (fun he => by cases he)]

/-- **Nothing is lost** in a cell exactly if every write to it was made from a copy that
was fresh by then. -/
theorem lineage_eq_writes_iff (es : List (Event Client Cell Change)) (i : Cell) :
    lineage es i = writes es i ↔ Serial es i :=
  (complete_iff es i).1

end CgGuide.Lineages
