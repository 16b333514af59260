/-
Deferred sequences.

A deferred sequence runs its stages only while somebody asks it for elements.
Reading it therefore ends in one of two ways: it runs out, or the stage that
would have made the next element throws. `Enumerable` is that pair, the elements
in order and the exception, if any, that comes after them, and the operators
below say how each stage changes it. Two of them are the reason to keep the
exception apart from the elements: `take` stops asking, so it never meets an
exception that lies behind its last element, and `orderBy` must read everything
before it yields its first element, so it meets every one.

`Total` sequences are the ones without an exception; each operator has a lemma
that says when it keeps a sequence total and what its elements then are.
-/
import Mathlib.Data.List.Basic
import Mathlib.Data.Int.Notation

set_option autoImplicit false

namespace CgGuide.Deferred

variable {ε α β κ : Type}

/-- What reading a deferred sequence yields, and the exception it ends in. -/
structure Enumerable (ε α : Type) where
  items : List α
  ends : Option ε

namespace Enumerable

/-- A list in memory. -/
def ofList (l : List α) : Enumerable ε α := ⟨l, none⟩

/-- Apply `f` to the elements of a list until it throws. -/
def mapUntil (f : α → Except ε β) : List α → Enumerable ε β
  | [] => ⟨[], none⟩
  | a :: as =>
    match f a with
    | .error e => ⟨[], some e⟩
    | .ok b => ⟨b :: (mapUntil f as).items, (mapUntil f as).ends⟩

/-- Keep the elements of a list that pass the test, until it throws. -/
def filterUntil (p : α → Except ε Bool) : List α → Enumerable ε α
  | [] => ⟨[], none⟩
  | a :: as =>
    match p a with
    | .error e => ⟨[], some e⟩
    | .ok true => ⟨a :: (filterUntil p as).items, (filterUntil p as).ends⟩
    | .ok false => filterUntil p as

/-- The exception of an earlier stage comes before that of a later one. -/
def thenEnds (s : Enumerable ε α) (e : Option ε) : Enumerable ε α :=
  ⟨s.items, s.ends.or e⟩

/-- `Where`. -/
def where' (p : α → Except ε Bool) (s : Enumerable ε α) : Enumerable ε α :=
  (filterUntil p s.items).thenEnds s.ends

/-- `Select`. -/
def select (f : α → Except ε β) (s : Enumerable ε α) : Enumerable ε β :=
  (mapUntil f s.items).thenEnds s.ends

/-- `Skip`; a negative count skips nothing. -/
def skip (n : ℤ) (s : Enumerable ε α) : Enumerable ε α :=
  ⟨s.items.drop n.toNat, s.ends⟩

/-- `Take`; a count that is not positive reads nothing. -/
def take (n : ℤ) (s : Enumerable ε α) : Enumerable ε α :=
  if n.toNat ≤ s.items.length then ⟨s.items.take n.toNat, none⟩ else s

/-- The first exception of comparing two of the keys. It is the one a sort meets
when no pair throws or every pair does, which is what keys of one type give. -/
def compareAll (cmp : κ → κ → Except ε Ordering) : List κ → Option ε
  | [] => none
  | k :: ks =>
    (ks.findSome? (fun j => match cmp k j with
      | .error e => some e
      | .ok _ => none)).or (compareAll cmp ks)

/-- The order of a sort, an exception counted as equality. -/
def leBy (cmp : κ → κ → Except ε Ordering) (descending : Bool) (a b : α × κ) : Bool :=
  match cmp a.2 b.2 with
  | .error _ => true
  | .ok o => if descending then o != .lt else o != .gt

/-- `OrderBy` and `OrderByDescending`: read everything, compute the keys, sort
stably. -/
def orderBy (key : α → Except ε κ) (cmp : κ → κ → Except ε Ordering) (descending : Bool)
    (s : Enumerable ε α) : Enumerable ε α :=
  match s.ends with
  | some e => ⟨[], some e⟩
  | none =>
    -- all keys are computed before the first comparison
    let keyed := mapUntil (fun a => (key a).map (fun k => (a, k))) s.items
    match keyed.ends with
    | some e => ⟨[], some e⟩
    | none =>
      match compareAll cmp (keyed.items.map Prod.snd) with
      | some e => ⟨[], some e⟩
      | none => ⟨(keyed.items.mergeSort (leBy cmp descending)).map Prod.fst, none⟩

/-- `ToArray`: read to the end. -/
def toArray (s : Enumerable ε α) : Except ε (List α) :=
  match s.ends with
  | some e => .error e
  | none => .ok s.items

/-! ## Total sequences -/

/-- Reading the sequence to the end throws nothing. -/
def Total (s : Enumerable ε α) : Prop := s.ends = none

@[simp] theorem total_ofList (l : List α) : (ofList l : Enumerable ε α).Total := rfl

@[simp] theorem items_ofList (l : List α) : (ofList l : Enumerable ε α).items = l := rfl

theorem toArray_eq_ok_iff (s : Enumerable ε α) (l : List α) :
    s.toArray = .ok l ↔ s.Total ∧ s.items = l := by
  unfold toArray Total
  cases s.ends with
  | none => simp
  | some e => simp

/-- A function that never throws on the elements makes `mapUntil` a `map`. -/
theorem mapUntil_eq (f : α → Except ε β) (g : α → β) (l : List α)
    (h : ∀ a ∈ l, f a = .ok (g a)) : mapUntil f l = ⟨l.map g, none⟩ := by
  induction l with
  | nil => rfl
  | cons a as ih =>
      have ha := h a List.mem_cons_self
      have has := ih (fun b hb => h b (List.mem_cons_of_mem _ hb))
      simp only [mapUntil, ha, has, List.map_cons]

/-- It throws exactly when the function throws on some element. -/
theorem ends_mapUntil_eq_none_iff (f : α → Except ε β) (l : List α) :
    (mapUntil f l).ends = none ↔ ∀ a ∈ l, ∃ b, f a = .ok b := by
  induction l with
  | nil => simp [mapUntil]
  | cons a as ih =>
      cases hf : f a with
      | error e => simp [mapUntil, hf]
      | ok b => simp [mapUntil, hf, ih]

/-- A test that never throws on the elements makes `filterUntil` a `filter`. -/
theorem filterUntil_eq (p : α → Except ε Bool) (q : α → Bool) (l : List α)
    (h : ∀ a ∈ l, p a = .ok (q a)) : filterUntil p l = ⟨l.filter q, none⟩ := by
  induction l with
  | nil => rfl
  | cons a as ih =>
      have ha := h a List.mem_cons_self
      have has := ih (fun b hb => h b (List.mem_cons_of_mem _ hb))
      cases hq : q a with
      | true => simp only [filterUntil, ha, hq, has, List.filter_cons_of_pos]
      | false => simp [filterUntil, ha, hq, has]

theorem where'_eq (p : α → Except ε Bool) (q : α → Bool) (s : Enumerable ε α) (hs : s.Total)
    (h : ∀ a ∈ s.items, p a = .ok (q a)) : s.where' p = ofList (s.items.filter q) := by
  have hends : s.ends = none := hs
  rw [where', filterUntil_eq p q s.items h, thenEnds, hends]
  rfl

theorem total_select_iff (f : α → Except ε β) (s : Enumerable ε α) :
    (s.select f).Total ↔ s.Total ∧ ∀ a ∈ s.items, ∃ b, f a = .ok b := by
  unfold Total select thenEnds
  rw [← ends_mapUntil_eq_none_iff]
  cases (mapUntil f s.items).ends with
  | none => simp
  | some e => simp

/-- A read to the end gives what the function makes of each element. -/
theorem forall₂_mapUntil (f : α → Except ε β) (l : List α) (h : (mapUntil f l).ends = none) :
    List.Forall₂ (fun b a => f a = .ok b) (mapUntil f l).items l := by
  induction l with
  | nil => exact List.Forall₂.nil
  | cons a as ih =>
      cases hf : f a with
      | error e => simp [mapUntil, hf] at h
      | ok b =>
        simp only [mapUntil, hf] at h ⊢
        exact List.Forall₂.cons hf (ih h)

theorem forall₂_select (f : α → Except ε β) (s : Enumerable ε α) (h : (s.select f).Total) :
    List.Forall₂ (fun b a => f a = .ok b) (s.select f).items s.items := by
  apply forall₂_mapUntil
  rw [ends_mapUntil_eq_none_iff]
  exact ((total_select_iff f s).mp h).2

/-- A test that throws on some element stops short of it. -/
theorem filterUntil_throws (p : α → Except ε Bool) {l : List α} {a : α} {e : ε} (ha : a ∈ l)
    (he : p a = .error e) :
    (filterUntil p l).ends ≠ none ∧ (filterUntil p l).items.length < l.length := by
  induction l with
  | nil => exact absurd ha List.not_mem_nil
  | cons b bs ih =>
      rw [filterUntil, List.length_cons]
      cases hb : p b with
      | error e' => simp
      | ok keep =>
        -- the element that throws is behind this one
        have hbehind : a ∈ bs := by
          rcases List.mem_cons.mp ha with rfl | hmem
          · rw [he] at hb
            cases hb
          · exact hmem
        obtain ⟨hends, hlength⟩ := ih hbehind
        cases keep with
        | true =>
          refine ⟨hends, ?_⟩
          rw [List.length_cons]
          omega
        | false =>
          refine ⟨hends, ?_⟩
          show (filterUntil p bs).items.length < bs.length + 1
          omega

theorem total_skip (n : ℤ) (s : Enumerable ε α) (hs : s.Total) : (s.skip n).Total := hs

theorem items_skip (n : ℤ) (s : Enumerable ε α) : (s.skip n).items = s.items.drop n.toNat := rfl

theorem total_take (n : ℤ) (s : Enumerable ε α) (hs : s.Total) : (s.take n).Total := by
  unfold take
  split_ifs
  · rfl
  · exact hs

theorem items_take (n : ℤ) (s : Enumerable ε α) : (s.take n).items = s.items.take n.toNat := by
  unfold take
  split_ifs with h
  · rfl
  · rw [List.take_of_length_le (by omega)]

/-- A page that is not filled meets the exception behind the elements. -/
theorem not_total_take_skip {start size : ℕ} {s : Enumerable ε α} (hs : ¬ s.Total)
    (hlength : s.items.length < start + size) (hsize : 0 < size) :
    ¬ ((s.skip start).take size).Total := by
  have hshort : ¬ (size : ℤ).toNat ≤ (s.skip start).items.length := by
    rw [items_skip, List.length_drop, Int.toNat_natCast, Int.toNat_natCast]
    omega
  rw [take, if_neg hshort]
  exact hs

/-- Comparing the keys throws exactly when some pair of them does not compare. -/
theorem compareAll_eq_none_iff (cmp : κ → κ → Except ε Ordering) (ks : List κ) :
    compareAll cmp ks = none ↔ ks.Pairwise (fun k j => ∃ o, cmp k j = .ok o) := by
  induction ks with
  | nil => exact iff_of_true rfl List.Pairwise.nil
  | cons k ks ih =>
      rw [compareAll, Option.or_eq_none_iff, ih, List.pairwise_cons, List.findSome?_eq_none_iff]
      refine and_congr_left (fun _ => forall₂_congr (fun j _ => ?_))
      cases cmp k j with
      | error e => simp
      | ok o => simp

/-- Keys that exist stand beside their elements. -/
theorem mapUntil_keyed (key : α → Except ε κ) {keyOf : α → κ} {l : List α}
    (hkey : ∀ a ∈ l, key a = .ok (keyOf a)) :
    mapUntil (fun a => (key a).map (fun k => (a, k))) l
      = ⟨l.map (fun a => (a, keyOf a)), none⟩ := by
  apply mapUntil_eq
  intro a ha
  rw [hkey a ha]
  rfl

/-- A sort of elements with an exception behind them has that exception only. -/
theorem orderBy_throws (key : α → Except ε κ) (cmp : κ → κ → Except ε Ordering)
    (descending : Bool) {s : Enumerable ε α} (hs : ¬ s.Total) :
    ¬ (s.orderBy key cmp descending).Total ∧ (s.orderBy key cmp descending).items = [] := by
  rw [Total] at hs
  obtain ⟨e, he⟩ := Option.ne_none_iff_exists'.mp hs
  rw [orderBy, he, Total]
  simp

/-- So has one that fails to compute the key of an element. -/
theorem orderBy_key_throws (key : α → Except ε κ) (cmp : κ → κ → Except ε Ordering)
    (descending : Bool) {s : Enumerable ε α} {a : α} {e : ε} (ha : a ∈ s.items)
    (he : key a = .error e) :
    ¬ (s.orderBy key cmp descending).Total ∧ (s.orderBy key cmp descending).items = [] := by
  have hkeyed : (mapUntil (fun a => (key a).map (fun k => (a, k))) s.items).ends ≠ none := by
    rw [ne_eq, ends_mapUntil_eq_none_iff]
    intro h
    obtain ⟨b, hb⟩ := h a ha
    rw [he] at hb
    exact absurd hb (by simp [Except.map])
  obtain ⟨e', he'⟩ := Option.ne_none_iff_exists'.mp hkeyed
  unfold orderBy Total
  cases s.ends with
  | some e => simp
  | none => simp [he']

/-- The elements beside their keys are the elements. -/
theorem map_fst_keyed (key : α → Except ε κ) {l : List α}
    (h : (mapUntil (fun a => (key a).map (fun k => (a, k))) l).ends = none) :
    (mapUntil (fun a => (key a).map (fun k => (a, k))) l).items.map Prod.fst = l := by
  induction l with
  | nil => rfl
  | cons a as ih =>
      cases hkey : key a with
      | error e => simp [mapUntil, hkey, Except.map] at h
      | ok k =>
        simp only [mapUntil, hkey, Except.map] at h ⊢
        rw [List.map_cons]
        exact congrArg (a :: ·) (ih h)

/-- A sort that ends has rearranged its elements, and otherwise has none. -/
theorem orderBy_total (key : α → Except ε κ) (cmp : κ → κ → Except ε Ordering)
    (descending : Bool) (s : Enumerable ε α) :
    (s.orderBy key cmp descending).Total ∧ (s.orderBy key cmp descending).items.Perm s.items
      ∨ ¬ (s.orderBy key cmp descending).Total ∧ (s.orderBy key cmp descending).items = [] := by
  unfold orderBy Total
  cases s.ends with
  | some e => simp
  | none =>
    dsimp only
    cases hkeyed : (mapUntil (fun a => (key a).map (fun k => (a, k))) s.items).ends with
    | some e => simp
    | none =>
      dsimp only
      cases hall : compareAll cmp
          ((mapUntil (fun a => (key a).map (fun k => (a, k))) s.items).items.map Prod.snd) with
      | some e => simp
      | none =>
        have hperm := (List.mergeSort_perm
          (mapUntil (fun a => (key a).map (fun k => (a, k))) s.items).items
          (leBy cmp descending)).map Prod.fst
        rw [map_fst_keyed key hkeyed] at hperm
        exact Or.inl ⟨rfl, hperm⟩

/-- **A sort with keys that exist and compare** is a stable sort of its elements. -/
theorem orderBy_eq (key : α → Except ε κ) (keyOf : α → κ) (cmp : κ → κ → Except ε Ordering)
    (descending : Bool) (s : Enumerable ε α) (hs : s.Total)
    (hkey : ∀ a ∈ s.items, key a = .ok (keyOf a))
    (hcmp : ∀ a ∈ s.items, ∀ b ∈ s.items, ∃ o, cmp (keyOf a) (keyOf b) = .ok o) :
    s.orderBy key cmp descending = ofList (s.items.mergeSort
      (fun a b => leBy cmp descending (a, keyOf a) (b, keyOf b))) := by
  have hends : s.ends = none := hs
  have hkeyed := mapUntil_keyed key hkey
  have hall : compareAll cmp ((s.items.map (fun a => (a, keyOf a))).map Prod.snd) = none := by
    rw [compareAll_eq_none_iff, List.map_map, List.pairwise_map]
    exact List.pairwise_of_forall_mem_list hcmp
  -- sorting with the keys beside the elements, and forgetting them again
  have hsort : ((s.items.map (fun a => (a, keyOf a))).mergeSort (leBy cmp descending)).map Prod.fst
      = s.items.mergeSort (fun a b => leBy cmp descending (a, keyOf a) (b, keyOf b)) := by
    have hmap : (s.items.mergeSort (fun a b => leBy cmp descending (a, keyOf a) (b, keyOf b))).map
        (fun a => (a, keyOf a))
        = (s.items.map (fun a => (a, keyOf a))).mergeSort (leBy cmp descending) :=
      List.map_mergeSort (fun a _ b _ => rfl)
    rw [← hmap, List.map_map]
    exact List.map_id _
  simp only [orderBy, hends, hkeyed, hall, hsort]
  rfl

/-- A sort with keys that exist throws exactly when two of them do not compare. -/
theorem total_orderBy_iff (key : α → Except ε κ) (keyOf : α → κ) (cmp : κ → κ → Except ε Ordering)
    (descending : Bool) (s : Enumerable ε α) (hs : s.Total)
    (hkey : ∀ a ∈ s.items, key a = .ok (keyOf a)) :
    (s.orderBy key cmp descending).Total
      ↔ s.items.Pairwise (fun a b => ∃ o, cmp (keyOf a) (keyOf b) = .ok o) := by
  have hends : s.ends = none := hs
  have hkeyed := mapUntil_keyed key hkey
  have hkeys : (s.items.map (fun a => (a, keyOf a))).map Prod.snd = s.items.map keyOf := by
    rw [List.map_map]
    rfl
  have hpairs := compareAll_eq_none_iff cmp (s.items.map keyOf)
  rw [List.pairwise_map] at hpairs
  rw [← hpairs, ← hkeys]
  simp only [orderBy, hends, hkeyed, Total]
  cases compareAll cmp ((s.items.map (fun a => (a, keyOf a))).map Prod.snd) with
  | none => simp
  | some e => simp

theorem orderBy_perm (key : α → Except ε κ) (keyOf : α → κ) (cmp : κ → κ → Except ε Ordering)
    (descending : Bool) (s : Enumerable ε α) (hs : s.Total)
    (hkey : ∀ a ∈ s.items, key a = .ok (keyOf a))
    (hcmp : ∀ a ∈ s.items, ∀ b ∈ s.items, ∃ o, cmp (keyOf a) (keyOf b) = .ok o) :
    (s.orderBy key cmp descending).Total ∧ (s.orderBy key cmp descending).items.Perm s.items := by
  rw [orderBy_eq key keyOf cmp descending s hs hkey hcmp]
  exact ⟨rfl, List.mergeSort_perm _ _⟩

end Enumerable

end CgGuide.Deferred
