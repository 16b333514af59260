/-
Pages cut from lists that are sorted anew for each page.

A client that asks for one page after the other gets each from a list of its own: the
same elements, sorted the same way, but with equal elements in whatever order the
source gives them that time. Where a group of equal elements lies on one page, that
page holds the same elements in every such list (`page_eq_filter`), so the pages
together are the whole (`flatMap_page_perm`). Where a group lies on two pages there
are two equal elements on either side of the cut (`exists_cut`), and a source that
exchanges them shows one twice.

The order is a comparison `cmp` that need not tell different elements apart.
-/
import Mathlib.Data.List.Perm.Basic
import Mathlib.Data.List.Nodup
import Mathlib.Logic.Equiv.Basic
import Mathlib.Data.Int.Notation

set_option autoImplicit false

namespace CgGuide.Paging

variable {α : Type*} (cmp : α → α → Ordering)

/-- No element compares below an earlier one. -/
def Sorted (l : List α) : Prop := l.Pairwise (fun a b => (cmp a b).isLE = true)

/-- How many elements compare below `x`. -/
def below (l : List α) (x : α) : ℕ := l.countP (fun y => cmp y x == .lt)

/-- How many elements compare below `x` or equal to it. -/
def upTo (l : List α) (x : α) : ℕ := l.countP (fun y => (cmp y x).isLE)

/-- The page number `k` of `size` elements. -/
def page (size k : ℕ) (l : List α) : List α := (l.drop (k * size)).take size

/-- The page on which the group of `x` begins. -/
def pageOf (size : ℕ) (l : List α) (x : α) : ℕ := below cmp l x / size

/-- The group of `x` ends on the page on which it begins. -/
def OnOnePage (size : ℕ) (l : List α) (x : α) : Prop :=
  pageOf cmp size l x = (upTo cmp l x - 1) / size

instance (size : ℕ) (l : List α) (x : α) : Decidable (OnOnePage cmp size l x) :=
  inferInstanceAs (Decidable (_ = _))

/-! ## Positions in a sorted list -/

/-- What holds of everything below an element it holds of fills the first places. -/
theorem getElem_iff_lt_countP {p : α → Bool}
    (hp : ∀ a b, (cmp a b).isLE = true → p b = true → p a = true) {l : List α}
    (hl : Sorted cmp l) : ∀ i (hi : i < l.length), p l[i] = true ↔ i < l.countP p := by
  induction l with
  | nil => exact fun i hi => absurd hi (Nat.not_lt_zero i)
  | cons a l ih =>
      rw [Sorted, List.pairwise_cons] at hl
      intro i hi
      by_cases ha : p a = true
      · rw [List.countP_cons_of_pos ha]
        cases i with
        | zero => simp [ha]
        | succ i =>
          rw [List.getElem_cons_succ, ih hl.2 i (by simpa using hi)]
          omega
      · -- nothing behind an element without the property has it
        have hnone : l.countP p = 0 := by
          rw [List.countP_eq_zero]
          intro b hb hpb
          exact ha (hp a b (hl.1 b hb) hpb)
        rw [List.countP_cons_of_neg ha, hnone]
        have hmem : (a :: l)[i] ∈ a :: l := List.getElem_mem hi
        have hfalse : ¬ p (a :: l)[i] = true := by
          rcases List.mem_cons.mp hmem with h | h
          · rw [h]
            exact ha
          · exact fun hpb => ha (hp a _ (hl.1 _ h) hpb)
        simp [hfalse]

variable [Std.TransCmp cmp]

theorem lt_of_isLE_of_lt {a b x : α} (hab : (cmp a b).isLE = true)
    (hbx : (cmp b x == .lt) = true) : (cmp a x == .lt) = true := by
  rw [beq_iff_eq] at hbx ⊢
  exact Std.TransCmp.lt_of_isLE_of_lt hab hbx

/-- An element stands in its group. -/
theorem below_le_position {l : List α} (hl : Sorted cmp l) {i : ℕ} (hi : i < l.length) :
    below cmp l l[i] ≤ i ∧ i < upTo cmp l l[i] := by
  constructor
  · have h := getElem_iff_lt_countP cmp (p := fun y => cmp y l[i] == .lt)
      (fun a b => lt_of_isLE_of_lt cmp) hl i hi
    have hself : ¬ (cmp l[i] l[i] == .lt) = true := by simp [Std.ReflCmp.compare_self]
    rw [h] at hself
    exact Nat.le_of_not_lt hself
  · have h := getElem_iff_lt_countP cmp (p := fun y => (cmp y l[i]).isLE)
      (fun a b hab hb => Std.TransCmp.isLE_trans hab hb) hl i hi
    exact h.mp (by simp [Std.ReflCmp.compare_self])

omit [Std.TransCmp cmp] in
theorem below_perm {l m : List α} (h : l.Perm m) (x : α) : below cmp l x = below cmp m x :=
  h.countP_eq _

omit [Std.TransCmp cmp] in
theorem upTo_perm {l m : List α} (h : l.Perm m) (x : α) : upTo cmp l x = upTo cmp m x :=
  h.countP_eq _

/-! ## Groups on one page -/

omit [Std.TransCmp cmp] in
/-- A stretch of a list is what a test finds that holds at its places and no other. -/
theorem take_drop_eq_filter {p : α → Bool} {l : List α} : ∀ {start size : ℕ},
    (∀ i (hi : i < l.length), p l[i] = true ↔ start ≤ i ∧ i < start + size) →
    (l.drop start).take size = l.filter p := by
  induction l with
  | nil => intros; simp
  | cons a l ih =>
      intro start size h
      have hfirst := h 0 (by simp)
      have hrest : ∀ i (hi : i < l.length), p l[i] = true ↔ start ≤ i + 1 ∧ i + 1 < start + size :=
        fun i hi => h (i + 1) (by simpa using hi)
      rw [List.getElem_cons_zero] at hfirst
      cases start with
      | zero =>
        cases size with
        | zero =>
          have hnone : ∀ b ∈ a :: l, ¬ p b = true := by
            intro b hb
            obtain ⟨i, hi, rfl⟩ := List.getElem_of_mem hb
            rw [h i hi]
            omega
          rw [List.filter_eq_nil_iff.mpr hnone]
          simp
        | succ size =>
          have ha : p a = true := hfirst.mpr (by omega)
          rw [List.filter_cons_of_pos ha, ← @ih 0 size]
          · rfl
          · intro i hi
            rw [hrest i hi]
            omega
      | succ start =>
        have ha : ¬ p a = true := by
          rw [hfirst]
          omega
        rw [List.filter_cons_of_neg ha, List.drop_succ_cons]
        apply ih
        intro i hi
        rw [hrest i hi]
        omega

/-- **The page of a list without divided groups** is what begins on it. -/
theorem page_eq_filter {size : ℕ} (hsize : 0 < size) {l m : List α} (hl : Sorted cmp l)
    (hperm : l.Perm m) (hpages : ∀ x ∈ m, OnOnePage cmp size m x) (k : ℕ) :
    page size k l = l.filter (fun x => decide (pageOf cmp size m x = k)) := by
  apply take_drop_eq_filter
  intro i hi
  -- the place lies in the group, and the group on one page
  obtain ⟨hlow, hhigh⟩ := below_le_position cmp hl hi
  have hone := hpages l[i] (hperm.mem_iff.mp (List.getElem_mem hi))
  rw [OnOnePage, pageOf] at hone
  rw [below_perm cmp hperm] at hlow
  rw [upTo_perm cmp hperm] at hhigh
  have hpage : below cmp m l[i] / size = i / size := by
    apply Nat.le_antisymm (Nat.div_le_div_right hlow)
    rw [hone]
    exact Nat.div_le_div_right (by omega)
  rw [decide_eq_true_eq, pageOf, hpage, Nat.div_eq_iff hsize]
  constructor
  · rintro ⟨hstart, hend⟩
    omega
  · rintro ⟨hstart, hend⟩
    omega

omit [Std.TransCmp cmp] in
/-- A list is what a numbering of its elements collects number by number. -/
theorem flatMap_filter_perm (number : α → ℕ) (l : List α) (n : ℕ) :
    ((List.range n).flatMap (fun k => l.filter (fun x => decide (number x = k)))).Perm
      (l.filter (fun x => decide (number x < n))) := by
  induction n with
  | zero => simp
  | succ n ih =>
      have hsplit := List.filter_append_perm (fun x => decide (number x < n))
        (l.filter (fun x => decide (number x < n + 1)))
      rw [List.filter_filter, List.filter_filter] at hsplit
      have hbelow : l.filter (fun x => decide (number x < n) && decide (number x < n + 1))
          = l.filter (fun x => decide (number x < n)) := by
        apply List.filter_congr
        intro x _
        rw [Bool.and_eq_left_iff_imp, decide_eq_true_eq, decide_eq_true_eq]
        omega
      have hequal : l.filter (fun x => !decide (number x < n) && decide (number x < n + 1))
          = l.filter (fun x => decide (number x = n)) := by
        apply List.filter_congr
        intro x _
        rw [Bool.eq_iff_iff]
        simp only [Bool.and_eq_true, Bool.not_eq_true', decide_eq_false_iff_not, decide_eq_true_eq]
        omega
      rw [hbelow, hequal] at hsplit
      rw [List.range_succ, List.flatMap_append, List.flatMap_singleton]
      exact (ih.append_right _).trans hsplit

/-- **The pages of lists without divided groups**, each cut from a sorted list of its
own, are together the whole. -/
theorem flatMap_page_perm {size count : ℕ} (hsize : 0 < size) {m : List α}
    (hcount : m.length ≤ count * size) (hpages : ∀ x ∈ m, OnOnePage cmp size m x)
    {ls : ℕ → List α} (hls : ∀ k, Sorted cmp (ls k)) (hperm : ∀ k, (ls k).Perm m) :
    ((List.range count).flatMap (fun k => page size k (ls k))).Perm m := by
  have hpage : ∀ k ∈ List.range count, (page size k (ls k)).Perm
      (m.filter (fun x => decide (pageOf cmp size m x = k))) := by
    intro k _
    rw [page_eq_filter cmp hsize (hls k) (hperm k) hpages]
    exact (hperm k).filter _
  have hall : m.filter (fun x => decide (pageOf cmp size m x < count)) = m := by
    rw [List.filter_eq_self]
    intro x hx
    obtain ⟨i, hi, rfl⟩ := List.getElem_of_mem ((hperm 0).mem_iff.mpr hx)
    have hlow := (below_le_position cmp (hls 0) hi).1
    rw [below_perm cmp (hperm 0)] at hlow
    have hlength := (hperm 0).length_eq
    rw [decide_eq_true_eq, pageOf, Nat.div_lt_iff_lt_mul hsize]
    omega
  have hnumbered := flatMap_filter_perm (pageOf cmp size m) m count
  rw [hall] at hnumbered
  exact (List.Perm.flatMap_left _ hpage).trans hnumbered

/-- They are sorted across the pages too. -/
theorem flatMap_page_sorted {size : ℕ} (hsize : 0 < size) {m : List α}
    (hpages : ∀ x ∈ m, OnOnePage cmp size m x) {ls : ℕ → List α}
    (hls : ∀ k, Sorted cmp (ls k)) (hperm : ∀ k, (ls k).Perm m) (count : ℕ) :
    Sorted cmp ((List.range count).flatMap (fun k => page size k (ls k))) := by
  rw [Sorted, List.pairwise_flatMap]
  constructor
  · intro k _
    exact ((hls k).sublist (List.drop_sublist _ _)).sublist (List.take_sublist _ _)
  · refine List.pairwise_lt_range.imp (fun {j k} hjk => ?_)
    intro x hx y hy
    rw [page_eq_filter cmp hsize (hls j) (hperm j) hpages, List.mem_filter,
      decide_eq_true_eq] at hx
    rw [page_eq_filter cmp hsize (hls k) (hperm k) hpages, List.mem_filter,
      decide_eq_true_eq] at hy
    -- an element below `x` is not on a later page
    by_contra hnot
    have hlt : cmp y x = .lt := by
      rw [← Std.OrientedCmp.gt_iff_lt]
      simpa using hnot
    have hle : below cmp m y ≤ below cmp m x := by
      apply List.countP_mono_left
      intro z _ hz
      exact lt_of_isLE_of_lt cmp (Ordering.isLE_of_eq_lt (by simpa using hz)) (by simpa using hlt)
    have hpage := Nat.div_le_div_right hle (c := size)
    have hx' := hx.2
    have hy' := hy.2
    rw [pageOf] at hx' hy'
    omega

/-! ## Groups on two pages -/

theorem isLE_total (a b : α) : ((cmp a b).isLE || (cmp b a).isLE) = true := by
  rw [Bool.or_eq_true]
  by_cases h : (cmp a b).isLE = true
  · exact Or.inl h
  · right
    have hgt : cmp a b = .gt := by simpa using h
    rw [Std.OrientedCmp.gt_iff_lt] at hgt
    exact Ordering.isLE_of_eq_lt hgt

theorem isLE_trans (a b c : α) (hab : (cmp a b).isLE = true) (hbc : (cmp b c).isLE = true) :
    (cmp a c).isLE = true := Std.TransCmp.isLE_trans hab hbc

/-- `l'` is a stable sort of `l`: the same elements in order, each group of equal ones
as it was. -/
structure StableSort (l l' : List α) : Prop where
  perm : l'.Perm l
  sorted : Sorted cmp l'
  stable : ∀ x, l'.filter (fun y => cmp x y == .eq) = l.filter (fun y => cmp x y == .eq)

/-- `mergeSort` is one. -/
theorem stableSort_mergeSort (l : List α) :
    StableSort cmp l (l.mergeSort (fun a b => (cmp a b).isLE)) := by
  refine ⟨List.mergeSort_perm _ _, List.pairwise_mergeSort (isLE_trans cmp) (isLE_total cmp) l,
    fun x => ?_⟩
  -- the group of `x` is in order as it stands, so it is a sublist of the sorted list
  have hpairwise : (l.filter (fun y => cmp x y == .eq)).Pairwise
      (fun a b => (cmp a b).isLE = true) := by
    rw [List.pairwise_filter]
    refine List.pairwise_of_forall (fun a b ha hb => ?_)
    have ha' : cmp x a = .eq := by simpa using ha
    have hb' : cmp x b = .eq := by simpa using hb
    exact Ordering.isLE_of_eq_eq (Std.TransCmp.eq_trans (Std.OrientedCmp.eq_symm ha') hb')
  have hsub := (List.sublist_mergeSort (isLE_trans cmp) (isLE_total cmp) hpairwise
    List.filter_sublist).filter (fun y => cmp x y == .eq)
  rw [List.filter_filter] at hsub
  simp only [Bool.and_self] at hsub
  exact (hsub.eq_of_length ((List.mergeSort_perm l _).filter _).length_eq.symm).symm

/-- **A stable sort of a sorted list** is sorted by both comparisons. -/
theorem sorted_mergeSort (cmp' : α → α → Ordering) {l : List α} (hl : Sorted cmp' l) :
    Sorted (compareLex cmp cmp') (l.mergeSort (fun a b => (cmp a b).isLE)) := by
  obtain ⟨-, hsorted, hgroup⟩ := stableSort_mergeSort cmp l
  rw [Sorted, List.pairwise_iff_forall_sublist]
  intro x y hxy
  have hle := List.pairwise_iff_forall_sublist.mp hsorted hxy
  rw [compareLex, Ordering.isLE_then_iff_and]
  refine ⟨hle, ?_⟩
  by_cases heq : cmp x y = .eq
  · right
    have hboth := hxy.filter (fun z => cmp x z == .eq)
    rw [hgroup x] at hboth
    have hpair : [x, y].filter (fun z => cmp x z == .eq) = [x, y] := by
      simp [Std.ReflCmp.compare_self, heq]
    rw [hpair] at hboth
    exact List.pairwise_iff_forall_sublist.mp hl (hboth.trans List.filter_sublist)
  · left
    cases hcmp : cmp x y with
    | lt => rfl
    | eq => exact absurd hcmp heq
    | gt => exact absurd hle (by rw [hcmp]; decide)

/-- In a sorted list the places of the group of `x` hold elements equal to it. -/
theorem eq_of_position {l : List α} (hl : Sorted cmp l) {x : α} {i : ℕ} (hi : i < l.length)
    (hlow : below cmp l x ≤ i) (hhigh : i < upTo cmp l x) : cmp l[i] x = .eq := by
  have hlt := getElem_iff_lt_countP cmp (p := fun y => cmp y x == .lt)
    (fun a b => lt_of_isLE_of_lt cmp) hl i hi
  have hle := getElem_iff_lt_countP cmp (p := fun y => (cmp y x).isLE)
    (fun a b hab hb => Std.TransCmp.isLE_trans hab hb) hl i hi
  have hisLE : (cmp l[i] x).isLE = true := hle.mpr hhigh
  have hnot : ¬ (cmp l[i] x == .lt) = true := fun h => absurd (hlt.mp h) (Nat.not_lt.mpr hlow)
  cases hcmp : cmp l[i] x with
  | lt => exact absurd (by rw [hcmp]; rfl) hnot
  | eq => rfl
  | gt => exact absurd hisLE (by rw [hcmp]; decide)

omit [Std.TransCmp cmp] in
/-- An element is on the page of its place. -/
theorem mem_page {size k i : ℕ} {l : List α} (hi : i < l.length) (hstart : k * size ≤ i)
    (hend : i < (k + 1) * size) : l[i] ∈ page size k l := by
  have hlast : i - k * size < size := by
    have hsucc : (k + 1) * size = k * size + size := Nat.succ_mul k size
    omega
  have hplace : k * size + (i - k * size) = i := by omega
  rw [page, List.mem_take_iff_getElem]
  refine ⟨i - k * size, ?_, ?_⟩
  · rw [List.length_drop]
    omega
  · rw [List.getElem_drop]
    simp only [hplace]

omit [Std.TransCmp cmp] in
/-- **Consecutive pages of one list** are its first elements. -/
theorem flatMap_page (size : ℕ) (l : List α) (n : ℕ) :
    (List.range n).flatMap (fun k => page size k l) = l.take (n * size) := by
  induction n with
  | zero => rw [Nat.zero_mul, List.take_zero, List.range_zero, List.flatMap_nil]
  | succ n ih =>
      rw [List.range_succ, List.flatMap_append, ih, List.flatMap_singleton, page, Nat.succ_mul,
        List.take_add]

omit [Std.TransCmp cmp] in
theorem page_map (f : α → α) (size k : ℕ) (l : List α) :
    page size k (l.map f) = (page size k l).map f := by
  rw [page, page, List.map_take, List.map_drop]

/-- **A divided group** has two of its elements on either side of a cut. -/
theorem exists_cut {size : ℕ} (hsize : 0 < size) {l m : List α} (hl : Sorted cmp l)
    (hperm : l.Perm m) {x : α} (hx : x ∈ m) (hdivided : ¬ OnOnePage cmp size m x) :
    ∃ k u v, (k + 1) * size < m.length ∧ u ∈ page size k l ∧ v ∈ page size (k + 1) l
      ∧ cmp u v = .eq := by
  rw [OnOnePage, pageOf, ← below_perm cmp hperm, ← upTo_perm cmp hperm] at hdivided
  obtain ⟨i, hi, rfl⟩ := List.getElem_of_mem (hperm.mem_iff.mpr hx)
  obtain ⟨hlow, hhigh⟩ := below_le_position cmp hl hi
  have hlength : upTo cmp l l[i] ≤ l.length := List.countP_le_length
  have hlater : below cmp l l[i] / size < (upTo cmp l l[i] - 1) / size := by
    have hle : below cmp l l[i] / size ≤ (upTo cmp l l[i] - 1) / size :=
      Nat.div_le_div_right (by omega)
    exact Nat.lt_of_le_of_ne hle hdivided
  -- the cut before the page on which the group ends
  obtain ⟨k, hk⟩ : ∃ k, (upTo cmp l l[i] - 1) / size = k + 1 :=
    Nat.exists_eq_succ_of_ne_zero (Nat.ne_zero_of_lt hlater)
  rw [hk, Nat.div_lt_iff_lt_mul hsize] at hlater
  have hend : (k + 1) * size ≤ upTo cmp l l[i] - 1 := by
    rw [← hk]
    exact Nat.div_mul_le_self _ _
  have hsucc : (k + 1) * size = k * size + size := Nat.succ_mul k size
  have hfirst : (k + 1) * size - 1 < l.length := by omega
  have hlast : (k + 1) * size < l.length := by omega
  have hbefore := eq_of_position cmp hl (x := l[i]) hfirst (by omega) (by omega)
  have hafter := eq_of_position cmp hl (x := l[i]) hlast (by omega) (by omega)
  refine ⟨k, l[(k + 1) * size - 1], l[(k + 1) * size], ?_, ?_, ?_, ?_⟩
  · rw [← hperm.length_eq]
    exact hlast
  · exact mem_page hfirst (by omega) (by omega)
  · exact mem_page hlast (Nat.le_refl _) (by rw [Nat.succ_mul (k + 1)]; omega)
  · exact Std.TransCmp.eq_trans hbefore (Std.OrientedCmp.eq_symm hafter)

section Swap

variable [DecidableEq α] {u v : α}

/-- An element is equal to the one it is exchanged for, if those exchanged are. -/
theorem cmp_swap_self (h : cmp u v = .eq) (x : α) : cmp (Equiv.swap u v x) x = .eq := by
  rw [Equiv.swap_apply_def]
  split_ifs with hu hv
  · rw [hu]
    exact Std.OrientedCmp.eq_symm h
  · rw [hv]
    exact h
  · exact Std.ReflCmp.compare_self

/-- So exchanging them changes no comparison. -/
theorem cmp_swap (h : cmp u v = .eq) (x y : α) :
    cmp (Equiv.swap u v x) (Equiv.swap u v y) = cmp x y := by
  rw [Std.TransCmp.congr_left (cmp_swap_self cmp h x),
    Std.TransCmp.congr_right (cmp_swap_self cmp h y)]

omit [Std.TransCmp cmp] in
/-- A list that has both has the same elements after the exchange. -/
theorem map_swap_perm {l : List α} (hl : l.Nodup) (hu : u ∈ l) (hv : v ∈ l) :
    (l.map (Equiv.swap u v)).Perm l := by
  rw [List.perm_ext_iff_of_nodup (hl.map (Equiv.swap u v).injective) hl]
  intro x
  rw [List.mem_map]
  constructor
  · rintro ⟨y, hy, rfl⟩
    rw [Equiv.swap_apply_def]
    split_ifs
    · exact hv
    · exact hu
    · exact hy
  · intro hx
    refine ⟨Equiv.swap u v x, ?_, Equiv.swap_apply_self u v x⟩
    rw [Equiv.swap_apply_def]
    split_ifs
    · exact hv
    · exact hu
    · exact hx

omit [Std.TransCmp cmp] [DecidableEq α] in
/-- **Pages with an element in common** are not the whole of a list without
repetitions. -/
theorem not_nodup_of_mem {pages : ℕ → List α} {j k count : ℕ} {x : α} (hjk : j < k)
    (hk : k < count) (hxj : x ∈ pages j) (hxk : x ∈ pages k) :
    ¬ ((List.range count).flatMap pages).Nodup := by
  intro h
  rw [List.nodup_flatMap] at h
  have hpair := (List.pairwise_iff_getElem.mp h.2) j k (by simpa using by omega) (by simpa using hk)
    hjk
  simp only [List.getElem_range] at hpair
  exact hpair hxj hxk

end Swap

end CgGuide.Paging
