/-
Tables with a primary key.

A database table is its rows in physical order together with the fact that no
two rows share a key. Carrying that fact in the structure is what lets every
later proof read "the row stored under `k`" as a function: `find?` returns the
only candidate, a write under one key is invisible under every other
(`find?_replace_of_ne`), and an insert under a fresh key changes nothing that
was there (`find?_insertNew_of_ne`).

The rows are kept in a list and not in a finite map because two readers of the
table differ only in the order in which they meet the rows, and a `SELECT`
without a total `ORDER BY` is free to choose one.
-/
import Mathlib.Data.List.Nodup
import Mathlib.Data.Int.Order.Basic
import Mathlib.Tactic.Linarith

set_option autoImplicit false

namespace CgGuide.KeyedTable

/-! ## Keyed tables -/

section Table

variable {Row Key : Type*}

/-- Rows under a primary key: no two rows share one. -/
structure Table (key : Row → Key) where
  rows : List Row
  keys_nodup : (rows.map key).Nodup

namespace Table

variable {key : Row → Key}

/-- Two rows of a table with one key are one row. -/
theorem eq_of_key_eq (t : Table key) {r s : Row} (hr : r ∈ t.rows) (hs : s ∈ t.rows)
    (h : key r = key s) : r = s :=
  List.inj_on_of_nodup_map t.keys_nodup hr hs h

variable [DecidableEq Key]

/-- The row stored under a key. -/
def find? (t : Table key) (k : Key) : Option Row :=
  t.rows.find? (fun r => decide (key r = k))

theorem find?_eq_none (t : Table key) (k : Key) :
    t.find? k = none ↔ ∀ r ∈ t.rows, key r ≠ k := by
  simp [find?, List.find?_eq_none]

/-- `find?` returns *the* row with the key: uniqueness turns the first match
into the only one. -/
theorem find?_eq_some (t : Table key) (k : Key) (r : Row) :
    t.find? k = some r ↔ r ∈ t.rows ∧ key r = k := by
  constructor
  · intro h
    exact ⟨List.mem_of_find?_eq_some h, by simpa using List.find?_some h⟩
  · rintro ⟨hr, rfl⟩
    cases hf : t.find? (key r) with
    | none => exact absurd rfl ((t.find?_eq_none (key r)).mp hf r hr)
    | some s =>
      have hs : s ∈ t.rows := List.mem_of_find?_eq_some hf
      have hk : key s = key r := by simpa using List.find?_some hf
      rw [t.eq_of_key_eq hs hr hk]

/-- The rows with a key, as a list: none or one. -/
theorem filter_key_eq (t : Table key) (k : Key) :
    t.rows.filter (fun r => decide (key r = k)) = (t.find? k).toList := by
  have hnodup : t.rows.Nodup := t.keys_nodup.of_map
  have hfilter : (t.rows.filter (fun r => decide (key r = k))).Nodup := hnodup.filter _
  cases hf : t.find? k with
  | none =>
    rw [Option.toList_none, List.filter_eq_nil_iff]
    intro r hr
    simpa using (t.find?_eq_none k).mp hf r hr
  | some r =>
    rw [Option.toList_some]
    obtain ⟨hr, hk⟩ := (t.find?_eq_some k r).mp hf
    have hmem : ∀ x, x ∈ t.rows.filter (fun r => decide (key r = k)) ↔ x ∈ [r] := by
      intro x
      rw [List.mem_filter, decide_eq_true_eq, List.mem_singleton, ← t.find?_eq_some, hf]
      exact ⟨fun h => (Option.some.inj h).symm, fun h => congrArg some h.symm⟩
    -- both lists are without duplicates, so equal members make them permutations
    have hperm := (List.perm_ext_iff_of_nodup hfilter (List.nodup_singleton r)).mpr hmem
    exact List.perm_singleton.mp hperm

/-- Overwrite the row that has `r`'s key. A table without such a row is left
as it is: an `UPDATE` that matches no row writes nothing. -/
def replace (t : Table key) (r : Row) : Table key where
  rows := t.rows.map (fun x => if key x = key r then r else x)
  keys_nodup := by
    have hkeys : (t.rows.map (fun x => if key x = key r then r else x)).map key
        = t.rows.map key := by
      rw [List.map_map]
      refine List.map_congr_left (fun x _ => ?_)
      by_cases hx : key x = key r
      · simp [hx]
      · simp [hx]
    rw [hkeys]
    exact t.keys_nodup

/-- Membership after an overwrite: the new row if its key was there, and every
row under another key. -/
theorem mem_replace (t : Table key) (r x : Row) :
    x ∈ (t.replace r).rows
      ↔ (x = r ∧ ∃ y ∈ t.rows, key y = key r) ∨ (x ∈ t.rows ∧ key x ≠ key r) := by
  simp only [replace, List.mem_map]
  constructor
  · rintro ⟨y, hy, rfl⟩
    by_cases hk : key y = key r
    · left
      exact ⟨by simp [hk], y, hy, hk⟩
    · right
      simp only [if_neg hk]
      exact ⟨hy, hk⟩
  · rintro (⟨rfl, y, hy, hk⟩ | ⟨hx, hk⟩)
    · exact ⟨y, hy, by simp [hk]⟩
    · exact ⟨x, hx, by simp [hk]⟩

/-- The overwritten key reads back the new row. -/
theorem find?_replace_self (t : Table key) (r : Row) {s : Row}
    (hs : t.find? (key r) = some s) : (t.replace r).find? (key r) = some r := by
  obtain ⟨hmem, hkey⟩ := (t.find?_eq_some (key r) s).mp hs
  rw [find?_eq_some, mem_replace]
  exact ⟨Or.inl ⟨rfl, s, hmem, hkey⟩, rfl⟩

/-- **Frame.** No other key sees the overwrite. -/
theorem find?_replace_of_ne (t : Table key) (r : Row) {k : Key} (hk : k ≠ key r) :
    (t.replace r).find? k = t.find? k := by
  ext x
  rw [find?_eq_some, find?_eq_some, mem_replace]
  constructor
  · rintro ⟨⟨rfl, -⟩ | ⟨hx, -⟩, hxk⟩
    · exact absurd hxk.symm hk
    · exact ⟨hx, hxk⟩
  · rintro ⟨hx, hxk⟩
    exact ⟨Or.inr ⟨hx, by rw [hxk]; exact hk⟩, hxk⟩

/-- Store a row whose key is free behind the others. -/
def append (t : Table key) (r : Row) (h : t.find? (key r) = none) : Table key where
  rows := t.rows ++ [r]
  keys_nodup := by
    rw [List.map_append, List.nodup_append]
    refine ⟨t.keys_nodup, List.nodup_singleton _, ?_⟩
    intro a ha b hb
    obtain ⟨x, hx, rfl⟩ := List.mem_map.mp ha
    rw [List.map_singleton, List.mem_singleton] at hb
    rw [hb]
    exact (t.find?_eq_none (key r)).mp h x hx

theorem find?_append_self (t : Table key) (r : Row) (h : t.find? (key r) = none) :
    (t.append r h).find? (key r) = some r := by
  rw [find?_eq_some]
  exact ⟨List.mem_append_right _ List.mem_cons_self, rfl⟩

/-- **Frame.** No other key sees the new row. -/
theorem find?_append_of_ne (t : Table key) (r : Row) (h : t.find? (key r) = none) {k : Key}
    (hk : k ≠ key r) : (t.append r h).find? k = t.find? k := by
  ext x
  rw [find?_eq_some, find?_eq_some, append, List.mem_append, List.mem_singleton]
  constructor
  · rintro ⟨hx | rfl, hxk⟩
    · exact ⟨hx, hxk⟩
    · exact absurd hxk.symm hk
  · rintro ⟨hx, hxk⟩
    exact ⟨Or.inl hx, hxk⟩

/-- Remove the row under a key. -/
def erase (t : Table key) (k : Key) : Table key where
  rows := t.rows.filter (fun r => decide (key r ≠ k))
  keys_nodup := (List.Sublist.map key List.filter_sublist).nodup t.keys_nodup

/-- A row that is overwritten and removed leaves what removing it leaves. -/
theorem rows_erase_replace (t : Table key) (r : Row) :
    ((t.replace r).erase (key r)).rows = (t.erase (key r)).rows := by
  show (t.rows.map (fun x => if key x = key r then r else x)).filter _ = t.rows.filter _
  induction t.rows with
  | nil => rfl
  | cons x rows ih =>
      by_cases hx : key x = key r
      · simpa [hx] using ih
      · simpa [hx] using ih

theorem find?_erase_self (t : Table key) (k : Key) : (t.erase k).find? k = none := by
  rw [find?_eq_none]
  intro r hr
  simpa using (List.mem_filter.mp hr).2

theorem find?_erase_of_ne (t : Table key) {k j : Key} (hj : j ≠ k) :
    (t.erase k).find? j = t.find? j := by
  ext x
  rw [find?_eq_some, find?_eq_some]
  simp only [erase, List.mem_filter, decide_eq_true_eq]
  constructor
  · rintro ⟨⟨hx, -⟩, hxk⟩
    exact ⟨hx, hxk⟩
  · rintro ⟨hx, rfl⟩
    exact ⟨⟨hx, hj⟩, rfl⟩

end Table

end Table

/-! ## Identity columns

An identity column hands out keys the table has never used: the counter is
above every stored key, so an insert never collides. -/

section Identity

variable {Row : Type*}

/-- A table whose integer key is an identity column. -/
structure IdentityTable (key : Row → ℤ) extends Table key where
  next : ℤ
  key_lt_next : ∀ r ∈ rows, key r < next

namespace IdentityTable

variable {key : Row → ℤ}

/-- The table without rows, its identity seeded at one. -/
def empty : IdentityTable key where
  rows := []
  keys_nodup := List.nodup_nil
  next := 1
  key_lt_next := by simp

/-- Store the row `mk` builds from the next identity. -/
def insertNew (t : IdentityTable key) (mk : ℤ → Row) (hmk : ∀ i, key (mk i) = i) :
    IdentityTable key where
  rows := t.rows ++ [mk t.next]
  keys_nodup := by
    rw [List.map_append, List.nodup_append]
    refine ⟨t.keys_nodup, List.nodup_singleton _, ?_⟩
    intro a ha b hb
    obtain ⟨r, hr, rfl⟩ := List.mem_map.mp ha
    -- the counter is above every stored key, so the new one is none of them
    have hlt := t.key_lt_next r hr
    have hb' : b = t.next := by simpa [hmk] using hb
    omega
  next := t.next + 1
  key_lt_next := by
    intro r hr
    rcases List.mem_append.mp hr with h | h
    · have := t.key_lt_next r h
      omega
    · rw [List.mem_singleton.mp h, hmk]
      omega

/-- **Frame.** An insert is invisible under every key already handed out. -/
theorem find?_insertNew_of_ne (t : IdentityTable key) (mk : ℤ → Row)
    (hmk : ∀ i, key (mk i) = i) {k : ℤ} (hk : k ≠ t.next) :
    (t.insertNew mk hmk).find? k = t.find? k := by
  ext x
  rw [Table.find?_eq_some, Table.find?_eq_some]
  simp only [insertNew, List.mem_append, List.mem_singleton]
  constructor
  · rintro ⟨hx | rfl, hxk⟩
    · exact ⟨hx, hxk⟩
    · exact absurd (hxk.symm.trans (hmk _)) hk
  · rintro ⟨hx, hxk⟩
    exact ⟨Or.inl hx, hxk⟩

/-- A key that finds a row is below the identity counter. -/
theorem lt_next_of_find? (t : IdentityTable key) {k : ℤ} {r : Row} (h : t.find? k = some r) :
    k < t.next := by
  obtain ⟨hr, rfl⟩ := (t.find?_eq_some k r).mp h
  exact t.key_lt_next r hr

/-- Overwrite a row; the identity counter does not move. -/
def replace (t : IdentityTable key) (r : Row) : IdentityTable key where
  toTable := t.toTable.replace r
  next := t.next
  key_lt_next := by
    intro x hx
    rcases (t.toTable.mem_replace r x).mp hx with ⟨rfl, y, hy, hk⟩ | ⟨hx', -⟩
    · rw [← hk]
      exact t.key_lt_next y hy
    · exact t.key_lt_next x hx'

/-- Remove a row; its key is not handed out again. -/
def erase (t : IdentityTable key) (k : ℤ) : IdentityTable key where
  toTable := t.toTable.erase k
  next := t.next
  key_lt_next := fun x hx => t.key_lt_next x (List.mem_filter.mp hx).1

@[simp] theorem toTable_replace (t : IdentityTable key) (r : Row) :
    (t.replace r).toTable = t.toTable.replace r := rfl

end IdentityTable

end Identity

end CgGuide.KeyedTable
