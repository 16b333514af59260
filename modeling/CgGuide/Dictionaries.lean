/-
Dictionaries under a comparer.

The comparer of a dictionary decides which spellings are one key. Here it is a
function `canon`: two keys are the same key when `canon` maps them to the same
value, which is what makes it an equivalence. A dictionary is then a keyed table
of its entries, in the order in which their keys first came; assigning to a key
that is there keeps the spelling it was first given (`set`), so a sequence of
assignments leaves the first spelling and the last value (`lookup_ofEntries`).
-/
import CgGuide.KeyedTable
import Mathlib.Data.List.Induction

set_option autoImplicit false

namespace CgGuide.Dictionaries

open CgGuide.KeyedTable

variable {Key Canon Value : Type} [DecidableEq Canon] {canon : Key → Canon}

/-- A dictionary whose keys are compared by `canon`. -/
abbrev Dictionary (canon : Key → Canon) (Value : Type) : Type :=
  Table (fun e : Key × Value => canon e.1)

namespace Dictionary

omit [DecidableEq Canon] in
/-- The dictionary without entries. -/
def empty : Dictionary canon Value where
  rows := []
  keys_nodup := List.nodup_nil

/-- The value under a key. -/
def lookup (d : Dictionary canon Value) (k : Key) : Option Value :=
  (d.find? (canon k)).map Prod.snd

/-- `d[k] = v`. -/
def set (d : Dictionary canon Value) (k : Key) (v : Value) : Dictionary canon Value :=
  match h : d.find? (canon k) with
  | some e => d.replace (e.1, v)
  | none => d.append (k, v) h

/-- `Remove`. -/
def remove (d : Dictionary canon Value) (k : Key) : Dictionary canon Value :=
  d.erase (canon k)

theorem lookup_empty (k : Key) : (empty : Dictionary canon Value).lookup k = none := rfl

theorem set_of_some {d : Dictionary canon Value} {k : Key} {e : Key × Value}
    (h : d.find? (canon k) = some e) (v : Value) : d.set k v = d.replace (e.1, v) := by
  unfold set
  split
  · next e' h' => rw [h, Option.some.injEq] at h'; rw [h']
  · next h' => rw [h] at h'; exact absurd h' (Option.some_ne_none e)

theorem set_of_none {d : Dictionary canon Value} {k : Key} (h : d.find? (canon k) = none)
    (v : Value) : d.set k v = d.append (k, v) h := by
  unfold set
  split
  · next e h' => rw [h] at h'; exact absurd h'.symm (Option.some_ne_none e)
  · rfl

/-- `Add`, which refuses a key that is there. -/
def add (d : Dictionary canon Value) (k : Key) (v : Value) : Option (Dictionary canon Value) :=
  match d.find? (canon k) with
  | some _ => none
  | none => some (d.set k v)

theorem lookup_eq_some (d : Dictionary canon Value) (k : Key) (v : Value) :
    d.lookup k = some v ↔ ∃ e ∈ d.rows, canon e.1 = canon k ∧ e.2 = v := by
  rw [lookup, Option.map_eq_some_iff]
  constructor
  · rintro ⟨e, he, rfl⟩
    obtain ⟨hmem, hkey⟩ := (d.find?_eq_some (canon k) e).mp he
    exact ⟨e, hmem, hkey, rfl⟩
  · rintro ⟨e, hmem, hkey, rfl⟩
    exact ⟨e, (d.find?_eq_some (canon k) e).mpr ⟨hmem, hkey⟩, rfl⟩

theorem lookup_congr (d : Dictionary canon Value) {j k : Key} (h : canon j = canon k) :
    d.lookup j = d.lookup k := by
  rw [lookup, lookup, h]

/-- **Assignment** is seen under every spelling of the key and under no other. -/
theorem lookup_set (d : Dictionary canon Value) (k : Key) (v : Value) (j : Key) :
    (d.set k v).lookup j = if canon j = canon k then some v else d.lookup j := by
  unfold lookup
  cases h : d.find? (canon k) with
  | some e =>
    have hkey : canon e.1 = canon k := ((d.find?_eq_some (canon k) e).mp h).2
    rw [set_of_some h]
    split_ifs with hj
    · have hself := d.find?_replace_self (e.1, v) (hkey.symm ▸ h)
      rw [hj, ← hkey, hself, Option.map_some]
    · have hne : canon j ≠ canon e.1 := by
        rw [hkey]
        exact hj
      rw [d.find?_replace_of_ne (e.1, v) hne]
  | none =>
    rw [set_of_none h]
    split_ifs with hj
    · rw [hj, d.find?_append_self (k, v) h, Option.map_some]
    · rw [d.find?_append_of_ne (k, v) h hj]

theorem lookup_remove (d : Dictionary canon Value) (k j : Key) :
    (d.remove k).lookup j = if canon j = canon k then none else d.lookup j := by
  unfold lookup remove
  split_ifs with hj
  · rw [hj, d.find?_erase_self, Option.map_none]
  · rw [d.find?_erase_of_ne hj]

/-- A new key goes behind the others. -/
theorem rows_set_of_none {d : Dictionary canon Value} {k : Key} (h : d.find? (canon k) = none)
    (v : Value) : (d.set k v).rows = d.rows ++ [(k, v)] := by
  rw [set_of_none h]
  rfl

/-! ## Sequences of assignments -/

/-- Assign the entries of a list one after the other. -/
def setAll (d : Dictionary canon Value) (l : List (Key × Value)) : Dictionary canon Value :=
  l.foldl (fun d e => d.set e.1 e.2) d

def ofEntries (l : List (Key × Value)) : Dictionary canon Value := setAll empty l

theorem setAll_append (d : Dictionary canon Value) (l m : List (Key × Value)) :
    d.setAll (l ++ m) = (d.setAll l).setAll m :=
  List.foldl_append

/-- The last value a list has for a key. -/
def lastValue (canon : Key → Canon) (l : List (Key × Value)) (k : Key) : Option Value :=
  (l.reverse.find? (fun e => decide (canon e.1 = canon k))).map Prod.snd

theorem lastValue_append_singleton (l : List (Key × Value)) (e : Key × Value) (k : Key) :
    lastValue canon (l ++ [e]) k
      = if canon k = canon e.1 then some e.2 else lastValue canon l k := by
  rw [lastValue, List.reverse_append, List.reverse_singleton, List.singleton_append,
    List.find?_cons]
  by_cases h : canon k = canon e.1
  · rw [if_pos h, decide_eq_true h.symm]
    rfl
  · rw [if_neg h, decide_eq_false (Ne.symm h)]
    rfl

/-- **What is read after a sequence of assignments** is the last value assigned,
and otherwise what was there before. -/
theorem lookup_setAll (d : Dictionary canon Value) (l : List (Key × Value)) (k : Key) :
    (d.setAll l).lookup k = (lastValue canon l k).or (d.lookup k) := by
  induction l using List.reverseRecOn with
  | nil => rfl
  | append_singleton l e ih =>
      have hset : d.setAll (l ++ [e]) = (d.setAll l).set e.1 e.2 := setAll_append d l [e]
      rw [hset, lookup_set, ih, lastValue_append_singleton]
      split_ifs
      · rfl
      · rfl

theorem lookup_ofEntries (l : List (Key × Value)) (k : Key) :
    (ofEntries l : Dictionary canon Value).lookup k = lastValue canon l k := by
  rw [ofEntries, lookup_setAll, lookup_empty, Option.or_none]

theorem lastValue_eq_none (l : List (Key × Value)) (k : Key) :
    lastValue canon l k = none ↔ ∀ e ∈ l, canon e.1 ≠ canon k := by
  rw [lastValue, Option.map_eq_none_iff, List.find?_eq_none]
  simp

/-- The last value of a list whose values are mapped. -/
theorem lastValue_map {Value' : Type} (f : Value → Value') (l : List (Key × Value)) (k : Key) :
    lastValue canon (l.map (fun e => (e.1, f e.2))) k = (lastValue canon l k).map f := by
  induction l using List.reverseRecOn with
  | nil => rfl
  | append_singleton l e ih =>
      rw [List.map_append, List.map_singleton, lastValue_append_singleton,
        lastValue_append_singleton, ih]
      split_ifs
      · rfl
      · rfl

/-- Nothing behind `x` in the list has its key. -/
def IsLast {Item : Type} (canon : Key → Canon) (key : Item → Key) (l : List Item) (x : Item) :
    Prop :=
  ∃ pre post, l = pre ++ x :: post ∧ ∀ y ∈ post, canon (key y) ≠ canon (key x)

/-- A last value is the value of an item with nothing of its key behind it. -/
theorem lastValue_eq_some {Item : Type} (key : Item → Key) (value : Item → Value) (l : List Item)
    (k : Key) (v : Value) :
    lastValue canon (l.map (fun x => (key x, value x))) k = some v
      ↔ ∃ x, IsLast canon key l x ∧ canon (key x) = canon k ∧ value x = v := by
  rw [lastValue, ← List.map_reverse, List.find?_map, Option.map_map, Option.map_eq_some_iff]
  constructor
  · rintro ⟨x, hx, rfl⟩
    obtain ⟨hkey, post, pre, hl, hpost⟩ := List.find?_eq_some_iff_append.mp hx
    have hkey' : canon (key x) = canon k := by simpa using hkey
    refine ⟨x, ⟨pre.reverse, post.reverse, ?_, fun y hy => ?_⟩, hkey', rfl⟩
    · rw [← List.reverse_reverse l, hl]
      simp
    · rw [hkey']
      simpa using hpost y (List.mem_reverse.mp hy)
  · rintro ⟨x, ⟨pre, post, rfl, hpost⟩, hkey, rfl⟩
    refine ⟨x, List.find?_eq_some_iff_append.mpr ⟨by simpa using hkey, post.reverse, pre.reverse,
      by simp, fun y hy => ?_⟩, rfl⟩
    have hne := hpost y (List.mem_reverse.mp hy)
    rw [hkey] at hne
    simpa using hne

/-- An item with nothing of its key behind it gives the last value. -/
theorem lastValue_of_isLast {Item : Type} {key : Item → Key} {l : List Item} {x : Item}
    (h : IsLast canon key l x) (value : Item → Value) :
    lastValue canon (l.map (fun y => (key y, value y))) (key x) = some (value x) :=
  (lastValue_eq_some key value l (key x) (value x)).mpr ⟨x, h, rfl, rfl⟩

/-- **Two valuations have the same last values** when they agree on the items that
have nothing of their key behind them. -/
theorem lastValue_eq_iff {Item : Type} (key : Item → Key) (f g : Item → Value) (l : List Item) :
    (∀ k, lastValue canon (l.map (fun x => (key x, f x))) k
        = lastValue canon (l.map (fun x => (key x, g x))) k)
      ↔ ∀ x, IsLast canon key l x → f x = g x := by
  constructor
  · intro h x hx
    have hk := h (key x)
    rw [lastValue_of_isLast hx f, lastValue_of_isLast hx g] at hk
    exact Option.some.inj hk
  · intro h k
    ext v
    -- both lists take the value of the same item
    rw [lastValue_eq_some, lastValue_eq_some]
    constructor
    · rintro ⟨x, hx, hkey, rfl⟩
      exact ⟨x, hx, hkey, (h x hx).symm⟩
    · rintro ⟨x, hx, hkey, rfl⟩
      exact ⟨x, hx, hkey, h x hx⟩

/-- The spellings an assignment leaves do not depend on the values. -/
theorem keys_set (d : Dictionary canon Value) (k : Key) (v : Value) :
    (d.set k v).rows.map Prod.fst
      = d.rows.map Prod.fst
        ++ if ∃ j ∈ d.rows.map Prod.fst, canon j = canon k then [] else [k] := by
  by_cases h : d.find? (canon k) = none
  · have hnew : ¬ ∃ j ∈ d.rows.map Prod.fst, canon j = canon k := by
      rintro ⟨j, hj, hkey⟩
      obtain ⟨e, he, rfl⟩ := List.mem_map.mp hj
      exact (d.find?_eq_none (canon k)).mp h e he hkey
    rw [rows_set_of_none h, if_neg hnew, List.map_append, List.map_singleton]
  · obtain ⟨e, he⟩ := Option.ne_none_iff_exists'.mp h
    obtain ⟨hmem, hkey⟩ := (d.find?_eq_some (canon k) e).mp he
    rw [set_of_some he, if_pos ⟨e.1, List.mem_map_of_mem hmem, hkey⟩, List.append_nil,
      Table.replace, List.map_map]
    refine List.map_congr_left (fun x hx => ?_)
    by_cases hx' : canon x.1 = canon e.1
    · -- the entry under this key keeps its spelling
      simp [d.eq_of_key_eq hx hmem hx']
    · simp [hx']

/-- A key of the dictionary after some assignments was there or is assigned. -/
theorem mem_keys_setAll (l : List (Key × Value)) {k : Key} :
    ∀ d : Dictionary canon Value, k ∈ (d.setAll l).rows.map Prod.fst →
      k ∈ d.rows.map Prod.fst ∨ k ∈ l.map Prod.fst := by
  induction l with
  | nil => exact fun d h => Or.inl h
  | cons e l ih =>
      intro d h
      have hset : (d.setAll (e :: l)) = (d.set e.1 e.2).setAll l := rfl
      rw [hset] at h
      rcases ih (d.set e.1 e.2) h with h | h
      · rw [keys_set, List.mem_append] at h
        rcases h with h | h
        · exact Or.inl h
        · right
          split_ifs at h
          · exact absurd h List.not_mem_nil
          · rw [List.mem_singleton.mp h, List.map_cons]
            exact List.mem_cons_self
      · exact Or.inr (List.mem_cons_of_mem _ h)

/-- Nor do those a sequence of assignments leaves. -/
theorem keys_setAll (l l' : List (Key × Value)) (h : l.map Prod.fst = l'.map Prod.fst) :
    ∀ d d' : Dictionary canon Value, d.rows.map Prod.fst = d'.rows.map Prod.fst →
      (d.setAll l).rows.map Prod.fst = (d'.setAll l').rows.map Prod.fst := by
  induction l generalizing l' with
  | nil =>
      intro d d' hkeys
      rw [List.map_nil, eq_comm, List.map_eq_nil_iff] at h
      rw [h]
      exact hkeys
  | cons e l ih =>
      intro d d' hkeys
      obtain ⟨e', l'', rfl, he, hl⟩ := List.map_eq_cons_iff.mp h.symm
      apply ih l'' hl.symm
      rw [keys_set, keys_set, hkeys, he]

/-- Dictionaries with the same spellings that answer alike are one. -/
theorem ext_lookup {d d' : Dictionary canon Value}
    (hkeys : d.rows.map Prod.fst = d'.rows.map Prod.fst)
    (hlookup : ∀ k, d.lookup k = d'.lookup k) : d = d' := by
  have hrows : d.rows = d'.rows := by
    apply List.ext_getElem
    · simpa using congrArg List.length hkeys
    · intro i hi hi'
      have hfst : d.rows[i].1 = d'.rows[i].1 := by
        have hget := List.getElem_of_eq hkeys (i := i) (by simpa using hi)
        simpa using hget
      -- each row is what its own key is looked up as
      have hd := (lookup_eq_some d d.rows[i].1 d.rows[i].2).mpr ⟨_, List.getElem_mem hi, rfl, rfl⟩
      have hd' := (lookup_eq_some d' d'.rows[i].1 d'.rows[i].2).mpr
        ⟨_, List.getElem_mem hi', rfl, rfl⟩
      rw [hlookup, hfst, hd', Option.some.injEq] at hd
      exact Prod.ext hfst hd.symm
  cases d
  cases d'
  subst hrows
  rfl

/-- **Two sequences of assignments to the same keys** make one dictionary when
their last values agree. -/
theorem ofEntries_eq_iff {Item : Type} (key : Item → Key) (f g : Item → Value) (l : List Item) :
    (ofEntries (l.map (fun x => (key x, f x))) : Dictionary canon Value)
        = ofEntries (l.map (fun x => (key x, g x)))
      ↔ ∀ x, IsLast canon key l x → f x = g x := by
  rw [← @lastValue_eq_iff _ _ _ _ canon _ key f g l]
  constructor
  · intro h k
    rw [← lookup_ofEntries, h, lookup_ofEntries]
  · intro h
    apply ext_lookup
    · apply keys_setAll
      · rw [List.map_map, List.map_map]
        rfl
      · rfl
    · intro k
      rw [lookup_ofEntries, lookup_ofEntries]
      exact h k

/-- Keys that are new and are not the one assigned stay new. -/
theorem find?_set_of_new {d : Dictionary canon Value} {e : Key × Value} {l : List (Key × Value)}
    (he : d.find? (canon e.1) = none) (hl : canon e.1 ∉ l.map (fun x => canon x.1))
    (hnew : ∀ x ∈ l, d.find? (canon x.1) = none) :
    ∀ x ∈ l, (d.set e.1 e.2).find? (canon x.1) = none := by
  intro x hx
  have hne : canon x.1 ≠ canon e.1 := by
    intro h
    exact hl (List.mem_map.mpr ⟨x, hx, h⟩)
  rw [set_of_none he, d.find?_append_of_ne (e.1, e.2) he hne]
  exact hnew x hx

/-- Entries with new and distinct keys are all there, in order. -/
theorem rows_setAll (l : List (Key × Value)) :
    ∀ d : Dictionary canon Value, (l.map (fun e => canon e.1)).Nodup →
      (∀ e ∈ l, d.find? (canon e.1) = none) → (d.setAll l).rows = d.rows ++ l := by
  induction l with
  | nil =>
      intro d _ _
      rw [List.append_nil]
      rfl
  | cons e l ih =>
      intro d hnodup hnew
      rw [List.map_cons, List.nodup_cons] at hnodup
      have he := hnew e List.mem_cons_self
      have hrows : (d.set e.1 e.2).rows = d.rows ++ [e] := rows_set_of_none he e.2
      have hrest := find?_set_of_new he hnodup.1 (fun x hx => hnew x (List.mem_cons_of_mem _ hx))
      have hstep := ih (d.set e.1 e.2) hnodup.2 hrest
      rw [hrows, List.append_assoc] at hstep
      exact hstep

/-- A list without repeated keys is the list of entries of its dictionary. -/
theorem rows_ofEntries {l : List (Key × Value)} (h : (l.map (fun e => canon e.1)).Nodup) :
    (ofEntries l : Dictionary canon Value).rows = l :=
  rows_setAll l empty h (fun _ _ => rfl)

/-- Among the entries of a dictionary the last value is the only one. -/
theorem lastValue_rows (d : Dictionary canon Value) (k : Key) :
    lastValue canon d.rows k = d.lookup k := by
  have hrows : (ofEntries d.rows : Dictionary canon Value).rows = d.rows :=
    rows_ofEntries d.keys_nodup
  rw [← lookup_ofEntries, lookup, lookup, Table.find?, hrows]
  rfl

/-- Adding them one after the other does not fail either. -/
theorem foldlM_add (l : List (Key × Value)) :
    ∀ d : Dictionary canon Value, (l.map (fun e => canon e.1)).Nodup →
      (∀ e ∈ l, d.find? (canon e.1) = none) →
      l.foldlM (fun d e => d.add e.1 e.2) d = some (d.setAll l) := by
  induction l with
  | nil => exact fun d _ _ => rfl
  | cons e l ih =>
      intro d hnodup hnew
      rw [List.map_cons, List.nodup_cons] at hnodup
      have he := hnew e List.mem_cons_self
      have hadd : d.add e.1 e.2 = some (d.set e.1 e.2) := by
        rw [add, he]
      have hrest := find?_set_of_new he hnodup.1 (fun x hx => hnew x (List.mem_cons_of_mem _ hx))
      rw [List.foldlM_cons, hadd]
      exact ih (d.set e.1 e.2) hnodup.2 hrest

/-- Assigning touches no entry under another key. -/
theorem rows_remove_set (d : Dictionary canon Value) (k : Key) (v : Value) :
    ((d.set k v).remove k).rows = (d.remove k).rows := by
  by_cases h : d.find? (canon k) = none
  · show (d.set k v).rows.filter _ = d.rows.filter _
    rw [rows_set_of_none h, List.filter_append]
    simp
  · obtain ⟨e, he⟩ := Option.ne_none_iff_exists'.mp h
    have hkey : canon e.1 = canon k := ((d.find?_eq_some (canon k) e).mp he).2
    -- the assignment replaced an entry, and that entry is removed
    rw [set_of_some he, remove, remove, ← hkey]
    exact d.rows_erase_replace (e.1, v)

/-- Removing keys one after the other leaves the entries under other keys. -/
theorem rows_foldl_remove (ks : List Key) :
    ∀ d : Dictionary canon Value, (ks.foldl remove d).rows
      = d.rows.filter (fun e => decide (∀ k ∈ ks, canon e.1 ≠ canon k)) := by
  induction ks with
  | nil =>
      intro d
      simp
  | cons k ks ih =>
      intro d
      rw [List.foldl_cons, ih, remove, Table.erase, List.filter_filter]
      apply List.filter_congr
      intro e _
      simp [Bool.and_comm]

theorem lookup_foldl_remove (ks : List Key) (j : Key) :
    ∀ d : Dictionary canon Value, (ks.foldl remove d).lookup j
      = if ∃ k ∈ ks, canon k = canon j then none else d.lookup j := by
  induction ks with
  | nil =>
      intro d
      simp
  | cons k ks ih =>
      intro d
      rw [List.foldl_cons, ih, lookup_remove]
      by_cases hk : canon k = canon j
      · simp [hk]
      · simp [hk, Ne.symm hk]

/-- The entries under a key, as a list: none or one. -/
theorem filter_rows (d : Dictionary canon Value) (k : Key) :
    (d.rows.filter (fun e => decide (canon e.1 = canon k))).map Prod.snd = (d.lookup k).toList := by
  rw [d.filter_key_eq (canon k), lookup]
  cases d.find? (canon k) with
  | none => rfl
  | some e => rfl

end Dictionary

end CgGuide.Dictionaries
