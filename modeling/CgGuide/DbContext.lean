/-
`AppDbContext`: what the repositories rely on of Entity Framework 5.

A context is one unit of work over the database. It remembers every entity
*object* it has handed out or been given, by object identity, with a state that
says what `SaveChanges` owes the database for it. Three facts of the framework
carry everything above this file:

* `Attach` of an object whose key another object already holds throws, because
  a context keeps one object for each key;
* an entry in state `Modified` writes **all** its columns, whatever the caller
  meant to change;
* `SaveChanges` is one transaction: when any entry fails, the table is as it was.

A `SELECT` without a total `ORDER BY` returns rows in whatever order the engine
meets them. `RowOrder` is that freedom, and every read takes one.
-/
import CgGuide.Entities
import CgGuide.Program

set_option autoImplicit false

namespace CgGuide.DbContext

open CgGuide.DotNet CgGuide.KeyedTable CgGuide.Entities CgGuide.Program
open UpdatableEntity

/-! ## Row orders -/

/-- The order in which the engine meets the rows of a query. -/
structure RowOrder (Row : Type) where
  arrange : List Row → List Row
  arrange_perm : ∀ l, (arrange l).Perm l

/-- The engine that scans the rows as they are stored. -/
def RowOrder.stored {Row : Type} : RowOrder Row := ⟨id, fun l => List.Perm.refl l⟩

/-! ## The change tracker -/

/-- An object: its identity and its present property values. -/
structure Instance (TEntity : Type) where
  ref : ℕ
  value : TEntity

/-- `System.Data.EntityState`; an object without an entry is `Detached`. -/
inductive EntityState
  | unchanged
  | added
  | modified
  | deleted
deriving DecidableEq, Repr

structure Entry (TEntity : Type) where
  entity : Instance TEntity
  state : EntityState

variable {TEntity : Type} [UpdatableEntity TEntity]

/-- The context: the database behind it, the tracked objects, and the identity
of the next object it creates. -/
structure AppDbContext (TEntity : Type) [UpdatableEntity TEntity] where
  table : EntityTable TEntity
  entries : List (Entry TEntity)
  nextRef : ℕ

/-- A call on a context. -/
abbrev Call (TEntity : Type) [UpdatableEntity TEntity] (α : Type) : Type :=
  EStateM Exception (AppDbContext TEntity) α

/-- `new AppDbContext()`: nothing is tracked yet. `nextRef` leaves room for the
objects the caller has already created. -/
def AppDbContext.new (table : EntityTable TEntity) (nextRef : ℕ) : AppDbContext TEntity where
  table := table
  entries := []
  nextRef := nextRef

namespace AppDbContext

/-! ## Reading -/

/-- The object a row is returned as: the tracked one when its key is tracked
(a query does not refresh it), a new tracked one otherwise. -/
def materialize (row : TEntity) : Call TEntity (Instance TEntity) := do
  let ctx ← get
  match ctx.entries.find? (fun e => decide (ID e.entity.value = ID row)) with
  | some e => return e.entity
  | none =>
    let o : Instance TEntity := ⟨ctx.nextRef, row⟩
    modify fun ctx => { ctx with
      entries := ctx.entries ++ [⟨o, .unchanged⟩], nextRef := ctx.nextRef + 1 }
    return o

/-- `ToList()` of a query: its rows, materialised in the order they come. -/
def toList : List TEntity → Call TEntity (List (Instance TEntity))
  | [] => return []
  | row :: rows => do
    let o ← materialize row
    let os ← toList rows
    return o :: os

/-- `DbSet.Find`: the tracked object with the key, else the row. -/
def find (id : ℤ) : Call TEntity (Option (Instance TEntity)) := do
  let ctx ← get
  match ctx.entries.find? (fun e => decide (ID e.entity.value = id)) with
  | some e => return some e.entity
  | none =>
    -- only a key nobody tracks goes to the database
    match ctx.table.find? id with
    | none => return none
    | some row => return some (← materialize row)

/-! ## Tracking -/

/-- `DbSet.Add`. -/
def add (o : Instance TEntity) : Call TEntity Unit :=
  modify fun ctx => { ctx with
    entries := ctx.entries.filter (fun e => decide (e.entity.ref ≠ o.ref)) ++ [⟨o, .added⟩] }

/-- `DbSet.Attach`: the object becomes tracked and unchanged. Another object
tracked under its key makes it throw. -/
def attach (o : Instance TEntity) : Call TEntity Unit := do
  let ctx ← get
  if ctx.entries.any (fun e => decide (e.entity.ref ≠ o.ref ∧ ID e.entity.value = ID o.value)) then
    throw { type := .invalidOperation }
  else
    modify fun ctx => { ctx with
      entries := ctx.entries.filter (fun e => decide (e.entity.ref ≠ o.ref)) ++ [⟨o, .unchanged⟩] }

/-- `DbSet.Remove` of a tracked object. -/
def remove (o : Instance TEntity) : Call TEntity Unit :=
  modify fun ctx => { ctx with
    entries := ctx.entries.map (fun e =>
      if e.entity.ref = o.ref then { e with state := .deleted } else e) }

/-- `context.Entry(entity).State`. -/
def entryState (o : Instance TEntity) : Call TEntity (Option EntityState) := do
  let ctx ← get
  return (ctx.entries.find? (fun e => decide (e.entity.ref = o.ref))).map Entry.state

/-- `context.Entry(entity).State = state` for a tracked object. -/
def setEntryState (o : Instance TEntity) (state : EntityState) : Call TEntity Unit :=
  modify fun ctx => { ctx with
    entries := ctx.entries.map (fun e =>
      if e.entity.ref = o.ref then { e with state := state } else e) }

/-! ## Saving -/

/-- The entries a save validates against their mapping. -/
def Saved (e : Entry TEntity) : Bool := decide (e.state = .added ∨ e.state = .modified)

/-- The statement one entry sends, and the entry afterwards (none: detached).
An `UPDATE` or `DELETE` that meets no row is a concurrency failure. -/
def flushEntry (t : EntityTable TEntity) (e : Entry TEntity) :
    Except Exception (EntityTable TEntity × Option (Entry TEntity)) :=
  match e.state with
  | .unchanged => .ok (t, some e)
  | .added =>
    if columnsAccept e.entity.value then
      .ok (t.insertNew (fun i => withID i e.entity.value) (fun i => ID_withID i _),
        some ⟨⟨e.entity.ref, withID t.next e.entity.value⟩, .unchanged⟩)
    else .error { type := .dbUpdate }
  | .modified =>
    -- every column is written, also those the caller never set
    if columnsAccept e.entity.value then
      match t.find? (ID e.entity.value) with
      | none => .error { type := .dbUpdateConcurrency }
      | some _ => .ok (t.replace e.entity.value, some { e with state := .unchanged })
    else .error { type := .dbUpdate }
  | .deleted =>
    match t.find? (ID e.entity.value) with
    | none => .error { type := .dbUpdateConcurrency }
    | some _ => .ok (t.erase (ID e.entity.value), none)

/-- The statements of a save, in order. -/
def flush (t : EntityTable TEntity) :
    List (Entry TEntity) → Except Exception (EntityTable TEntity × List (Entry TEntity))
  | [] => .ok (t, [])
  | e :: es => do
    let (t₁, e') ← flushEntry t e
    let (t₂, es') ← flush t₁ es
    return (t₂, e'.toList ++ es')

/-- `SaveChanges`: validate, then send every statement in one transaction. -/
def saveChanges : Call TEntity Unit := do
  let ctx ← get
  if ctx.entries.any (fun e => Saved e && !validates e.entity.value) then
    throw { type := .dbEntityValidation }
  match flush ctx.table ctx.entries with
  | .error e => throw e
  | .ok (t, es) => modify fun ctx => { ctx with table := t, entries := es }

/-! ## Reads of a fresh context

Every row a fresh context reads becomes a new object, so what the caller sees
is the rows themselves. The induction is over the rows still to come; the
tracker grows with them and never holds the key of a row that is still ahead. -/

/-- No tracked object has one of these keys. -/
def Untracked (ctx : AppDbContext TEntity) (rows : List TEntity) : Prop :=
  ∀ e ∈ ctx.entries, ∀ row ∈ rows, ID e.entity.value ≠ ID row

theorem materialize_run (ctx : AppDbContext TEntity) (row : TEntity)
    (h : ∀ e ∈ ctx.entries, ID e.entity.value ≠ ID row) :
    (materialize row).run ctx
      = .ok ⟨ctx.nextRef, row⟩
          { ctx with
            entries := ctx.entries ++ [⟨⟨ctx.nextRef, row⟩, .unchanged⟩]
            nextRef := ctx.nextRef + 1 } := by
  have hnone : ctx.entries.find? (fun e => decide (ID e.entity.value = ID row)) = none := by
    rw [List.find?_eq_none]
    intro e he
    simpa using h e he
  simp [materialize, hnone]

/-- Reading rows whose keys nobody tracks returns those rows and leaves the
database alone. -/
theorem toList_run (rows : List TEntity) (hkeys : (rows.map ID).Nodup)
    (ctx : AppDbContext TEntity) (h : ctx.Untracked rows) :
    ∃ os ctx', (toList rows).run ctx = .ok os ctx' ∧ os.map Instance.value = rows
      ∧ ctx'.table = ctx.table := by
  induction rows generalizing ctx with
  | nil => exact ⟨[], ctx, by simp [toList], rfl, rfl⟩
  | cons row rows ih =>
      obtain ⟨hnew, hkeys'⟩ := List.nodup_cons.mp hkeys
      have hrow := materialize_run ctx row (fun e he => h e he row List.mem_cons_self)
      -- the row just read joins the tracker; its key is not among the rest
      set ctx₁ : AppDbContext TEntity := { ctx with
        entries := ctx.entries ++ [⟨⟨ctx.nextRef, row⟩, .unchanged⟩]
        nextRef := ctx.nextRef + 1 } with hctx₁
      have hrest : ctx₁.Untracked rows := by
        intro e he r hr
        rcases List.mem_append.mp he with he | he
        · exact h e he r (List.mem_cons_of_mem _ hr)
        · rw [List.mem_singleton.mp he]
          intro heq
          exact hnew (List.mem_map.mpr ⟨r, hr, heq.symm⟩)
      obtain ⟨os, ctx', hrun, hval, htab⟩ := ih hkeys' ctx₁ hrest
      refine ⟨⟨ctx.nextRef, row⟩ :: os, ctx', ?_, by simp [hval], htab⟩
      simp [toList, hrow, hrun]

/-- `Find` in a fresh context reads the table. -/
theorem find_new (t : EntityTable TEntity) (n : ℕ) (id : ℤ) :
    ∃ o ctx', (find id).run (AppDbContext.new t n) = .ok o ctx'
      ∧ o.map Instance.value = t.find? id ∧ ctx'.table = t := by
  cases hf : t.find? id with
  | none => exact ⟨none, AppDbContext.new t n, by simp [find, AppDbContext.new, hf], rfl, rfl⟩
  | some row =>
    have hrow := materialize_run (AppDbContext.new t n) row (by simp [AppDbContext.new])
    simp only [AppDbContext.new] at hrow
    refine ⟨some ⟨n, row⟩, ⟨t, [⟨⟨n, row⟩, .unchanged⟩], n + 1⟩, ?_, rfl, rfl⟩
    simp [find, AppDbContext.new, hf, hrow]

/-! ## Saves of one object

Each service call runs in a context of its own, so the tracker it saves holds
the one object of that call. -/

/-- The table a save of one modified object leaves, or the exception. -/
def saveModified (t : EntityTable TEntity) (e : TEntity) : Except Exception (EntityTable TEntity) :=
  if validates e = false then .error { type := .dbEntityValidation }
  else if columnsAccept e = false then .error { type := .dbUpdate }
  else match t.find? (ID e) with
    | none => .error { type := .dbUpdateConcurrency }
    | some _ => .ok (t.replace e)

/-- The table a save of one added object leaves, or the exception. -/
def saveAdded (t : EntityTable TEntity) (e : TEntity) : Except Exception (EntityTable TEntity) :=
  if validates e = false then .error { type := .dbEntityValidation }
  else if columnsAccept e = false then .error { type := .dbUpdate }
  else .ok (t.insertNew (fun i => withID i e) (fun i => ID_withID i e))

/-- What a program that saved a table returns to its caller. -/
def saveResult (t : EntityTable TEntity) :
    Except Exception (EntityTable TEntity) → Except Exception Unit × EntityTable TEntity
  | .error e => (.error e, t)
  | .ok t' => (.ok (), t')

/-- The statements of two lists of entries, one list after the other. -/
theorem flush_append (es es' : List (Entry TEntity)) : ∀ t : EntityTable TEntity,
    flush t (es ++ es') = (flush t es).bind (fun p =>
      (flush p.1 es').map (fun q => (q.1, p.2 ++ q.2))) := by
  induction es with
  | nil =>
    intro t
    simp only [List.nil_append, flush, Except.bind, Except.map]
    cases flush t es' with
    | error x => rfl
    | ok q => rfl
  | cons e es ih =>
    intro t
    rw [List.cons_append, flush, flush]
    cases flushEntry t e with
    | error x => rfl
    | ok p =>
      obtain ⟨t₁, e'⟩ := p
      simp only [ok_bind, ih t₁]
      cases flush t₁ es with
      | error x => rfl
      | ok q =>
        simp only [Except.bind, ok_bind, pure, Except.pure]
        cases flush q.1 es' with
        | error x => rfl
        | ok q' => simp [Except.map, bind, Except.bind]

/-- Unchanged objects send nothing. -/
theorem flush_unchanged {es : List (Entry TEntity)} (h : ∀ e ∈ es, e.state = .unchanged)
    (t : EntityTable TEntity) : flush t es = .ok (t, es) := by
  induction es with
  | nil => rfl
  | cons e es ih =>
    have hentry : flushEntry t e = .ok (t, some e) := by
      rw [flushEntry, h e List.mem_cons_self]
    have hrest := ih (fun e' he' => h e' (List.mem_cons_of_mem _ he'))
    simp only [flush, hentry, ok_bind, hrest]
    rfl

theorem flush_singleton (t : EntityTable TEntity) (e : Entry TEntity) :
    flush t [e] = (flushEntry t e).map (fun p => (p.1, p.2.toList)) := by
  cases h : flushEntry t e with
  | error x => simp [flush, h, bind, Except.bind, Except.map]
  | ok p => simp [flush, h, bind, Except.bind, Except.map, pure, Except.pure]

theorem saveChanges_modified (t : EntityTable TEntity) (o : Instance TEntity) (n : ℕ) :
    Prod.map id AppDbContext.table (outcome saveChanges ⟨t, [⟨o, .modified⟩], n⟩)
      = saveResult t (saveModified t o.value) := by
  by_cases hv : validates o.value = true
  · by_cases hc : columnsAccept o.value = true
    · cases hf : t.find? (ID o.value) with
      | none =>
        simp [outcome, saveChanges, Saved, saveModified, saveResult, flush_singleton, flushEntry,
          Except.map, hv, hc, hf]
      | some row =>
        simp [outcome, saveChanges, Saved, saveModified, saveResult, flush_singleton, flushEntry,
          Except.map, hv, hc, hf]
    · simp [outcome, saveChanges, Saved, saveModified, saveResult, flush_singleton, flushEntry,
        Except.map, hv, hc]
  · simp [outcome, saveChanges, Saved, saveModified, saveResult, hv]

theorem saveChanges_added (t : EntityTable TEntity) (o : Instance TEntity) (n : ℕ) :
    Prod.map id AppDbContext.table (outcome saveChanges ⟨t, [⟨o, .added⟩], n⟩)
      = saveResult t (saveAdded t o.value) := by
  by_cases hv : validates o.value = true
  · by_cases hc : columnsAccept o.value = true
    · simp [outcome, saveChanges, Saved, saveAdded, saveResult, flush_singleton, flushEntry,
        Except.map, hv, hc]
    · simp [outcome, saveChanges, Saved, saveAdded, saveResult, flush_singleton, flushEntry,
        Except.map, hv, hc]
  · simp [outcome, saveChanges, Saved, saveAdded, saveResult, hv]

end AppDbContext

end CgGuide.DbContext
