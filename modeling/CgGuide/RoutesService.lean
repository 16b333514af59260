/-
`DefaultRoutesService`, and what each of its calls does to the route table when
it runs in a unit of work of its own.

The calls are the source's: a repository call, then `Save`. The `_spec` lemmas
below say once what a call leaves, as a function of the table alone, so that
nothing above this file looks inside a context again.

`delete` is word for word `update`. No line of the service, the repository or
the context sets `IsDeleted`, so whether a deleted route disappears is decided
by the object the caller passes.
-/
import CgGuide.Repositories

set_option autoImplicit false

namespace CgGuide.RoutesService

open CgGuide.DotNet CgGuide.KeyedTable CgGuide.Entities CgGuide.DbContext CgGuide.Repositories
open CgGuide.Program UpdatableEntity AppDbContext

/-- The table the routes are stored in. -/
abbrev RouteTable : Type := EntityTable Route

/-- The first route of the post-deployment script. -/
def ruta1 : Route where
  id := 3
  created := ⟨634222656000000000, by decide⟩
  createdBy := some "Carlos"
  deleted := some ⟨634222656000000000, by decide⟩
  deletedBy := some "Carlos"
  lastUpdated := some ⟨634222656000000000, by decide⟩
  lastUpdatedBy := some "Carlos"
  isDeleted := false
  name := some "Ruta 1"
  distance := 10
  comments := some "Sin Comentarios"

/-- The second one. -/
def ruta2 : Route := { ruta1 with id := 4, name := some "Ruta 2", distance := 20 }

/-- The table the post-deployment script leaves. -/
def seedTable : RouteTable where
  rows := [ruta1, ruta2]
  keys_nodup := by decide
  next := 5
  key_lt_next := by decide

/-! ## The service -/

namespace DefaultRoutesService

def getAll (o : RowOrder Route) : Call Route (List (Instance Route)) :=
  RoutesRepository.getAll o

def getById (routeId : ℤ) : Call Route (Option (Instance Route)) :=
  GenericUpdatableRepository.getByID routeId

def list (o : RowOrder Route) : Call Route (List (Instance Route)) :=
  GenericUpdatableRepository.list o

def add (route : Instance Route) : Call Route Unit := do
  GenericUpdatableRepository.insert route
  UnitOfWork.save

def update (route : Instance Route) : Call Route Unit := do
  GenericUpdatableRepository.update route
  UnitOfWork.save

def delete (route : Instance Route) : Call Route Unit := do
  GenericUpdatableRepository.update route
  UnitOfWork.save

end DefaultRoutesService

/-! ## One call in its own unit of work -/

/-- Run a call in a new context over the table. The caller's own object, if it
brings one, is object 0. -/
def inUnitOfWork {α : Type} (t : RouteTable) (c : Call Route α) : Except Exception α × RouteTable :=
  Prod.map id AppDbContext.table (outcome c (AppDbContext.new t 1))

/-- The caller's object. -/
def argument (r : Route) : Instance Route := ⟨0, r⟩

/-- The property values a caller of `GetAll` sees. -/
def getAllRoutes (t : RouteTable) (o : RowOrder Route) : Except Exception (List Route) :=
  (inUnitOfWork t (DefaultRoutesService.getAll o)).1.map (List.map Instance.value)

/-- The property values a caller that enumerates `List` sees. -/
def listRoutes (t : RouteTable) (o : RowOrder Route) : Except Exception (List Route) :=
  (inUnitOfWork t (DefaultRoutesService.list o)).1.map (List.map Instance.value)

/-- The property values a caller of `GetById` sees, null when there is no row. -/
def getRouteById (t : RouteTable) (routeId : ℤ) : Except Exception (Option Route) :=
  (inUnitOfWork t (DefaultRoutesService.getById routeId)).1.map (Option.map Instance.value)

/-! ## The writes, as functions of the table -/

/-- `Update` in a new context leaves the argument tracked, as modified. -/
theorem update_new_run (t : RouteTable) (r : Route) :
    (GenericUpdatableRepository.update (argument r)).run (AppDbContext.new t 1)
      = .ok () ⟨t, [⟨argument r, .modified⟩], 1⟩ := by
  simp [GenericUpdatableRepository.update, attach, setEntryState, AppDbContext.new, argument]

/-- **`Update`** rewrites the stored row with every property of its argument, or
throws and leaves the table as it was. -/
theorem update_spec (t : RouteTable) (r : Route) :
    inUnitOfWork t (DefaultRoutesService.update (argument r))
      = saveResult t (saveModified t r) := by
  rw [inUnitOfWork, DefaultRoutesService.update, outcome_bind_ok (update_new_run t r)]
  exact saveChanges_modified t (argument r) 1

/-- **`Delete`** is `Update`. -/
theorem delete_spec (t : RouteTable) (r : Route) :
    inUnitOfWork t (DefaultRoutesService.delete (argument r)) = saveResult t (saveModified t r) :=
  update_spec t r

/-- **`Add`** stores its argument under the next identity. -/
theorem add_spec (t : RouteTable) (r : Route) :
    inUnitOfWork t (DefaultRoutesService.add (argument r)) = saveResult t (saveAdded t r) := by
  have hrun : (GenericUpdatableRepository.insert (argument r)).run (AppDbContext.new t 1)
      = .ok () ⟨t, [⟨argument r, .added⟩], 1⟩ := by
    simp [GenericUpdatableRepository.insert, add, AppDbContext.new]
  rw [inUnitOfWork, DefaultRoutesService.add, outcome_bind_ok hrun]
  exact saveChanges_added t (argument r) 1

/-- What a normal return of `Update` means: the argument validates, its key was
stored, and the table is the old one with that row rewritten. -/
theorem saveModified_ok {t t' : RouteTable} {r : Route} :
    saveModified t r = .ok t' ↔
      validates r = true ∧ columnsAccept r = true ∧ (∃ old, t.find? r.id = some old)
        ∧ t' = t.replace r := by
  unfold saveModified
  by_cases hv : validates r = true
  · by_cases hc : columnsAccept r = true
    · cases hf : t.find? r.id with
      | none => simp [hv, hc, hf]
      | some old => simp [hv, hc, hf, eq_comm]
    · simp [hv, hc]
  · simp [hv]

/-! ## The reads, as functions of the table -/

theorem mem_live (t : RouteTable) (r : Route) :
    r ∈ GenericUpdatableRepository.live t ↔ t.find? r.id = some r ∧ r.isDeleted = false := by
  rw [GenericUpdatableRepository.live, List.mem_filter, Table.find?_eq_some]
  simp [UpdatableEntity.base]

theorem live_ids_nodup (t : RouteTable) :
    ((GenericUpdatableRepository.live t).map ID).Nodup :=
  (List.Sublist.map ID List.filter_sublist).nodup t.keys_nodup

/-- A fresh context that enumerates rows with distinct keys returns them. -/
theorem toList_new (t : RouteTable) (rows : List Route) (h : (rows.map ID).Nodup) :
    (inUnitOfWork t (AppDbContext.toList rows)).1.map (List.map Instance.value) = .ok rows := by
  obtain ⟨os, ctx', hrun, hval, -⟩ :=
    toList_run rows h (AppDbContext.new t 1) (by simp [Untracked, AppDbContext.new])
  simp [inUnitOfWork, outcome_eq_of_run_ok hrun, Except.map, hval]

/-- The order in which a read meets the rows does not change which rows it
meets. -/
theorem arrange_live_perm (t : RouteTable) (o : RowOrder Route) :
    (o.arrange (GenericUpdatableRepository.live t)).Perm (GenericUpdatableRepository.live t) :=
  o.arrange_perm _

/-- **`List`** returns the rows that are not deleted, in the engine's order. -/
theorem listRoutes_eq (t : RouteTable) (o : RowOrder Route) :
    listRoutes t o = .ok (o.arrange (GenericUpdatableRepository.live t)) := by
  have hkeys : ((o.arrange (GenericUpdatableRepository.live t)).map ID).Nodup :=
    ((arrange_live_perm t o).map ID).nodup_iff.mpr (live_ids_nodup t)
  exact toList_new t _ hkeys

/-- **`GetAll`** returns the rows that are not deleted, latest first. -/
theorem getAllRoutes_eq (t : RouteTable) (o : RowOrder Route) :
    getAllRoutes t o
      = .ok (RoutesRepository.orderByDescendingCreated
          (o.arrange (GenericUpdatableRepository.live t))) := by
  have hperm : (RoutesRepository.orderByDescendingCreated
      (o.arrange (GenericUpdatableRepository.live t))).Perm (GenericUpdatableRepository.live t) :=
    (List.mergeSort_perm _ _).trans (arrange_live_perm t o)
  have hkeys := (hperm.map ID).nodup_iff.mpr (live_ids_nodup t)
  exact toList_new t _ hkeys

/-- **`GetById`** returns the stored row, deleted or not. -/
theorem getRouteById_eq (t : RouteTable) (routeId : ℤ) :
    getRouteById t routeId = .ok (t.find? routeId) := by
  obtain ⟨o, ctx', hrun, hval, -⟩ := find_new t 1 routeId
  simp only [getRouteById, inUnitOfWork, DefaultRoutesService.getById,
    GenericUpdatableRepository.getByID, outcome_eq_of_run_ok hrun]
  simp [Except.map, hval]

/-- `OrderByDescending` puts no later `Created` behind an earlier one. -/
theorem orderByDescendingCreated_sorted (rows : List Route) :
    (RoutesRepository.orderByDescendingCreated rows).Pairwise
      (fun a b => b.created ≤ a.created) := by
  have h : (RoutesRepository.orderByDescendingCreated rows).Pairwise
      (fun a b => decide (b.created ≤ a.created) = true) := by
    apply List.pairwise_mergeSort
    · intro a b c hab hbc
      exact decide_eq_true (DateTime.le_trans (of_decide_eq_true hbc) (of_decide_eq_true hab))
    · intro a b
      simpa using DateTime.le_total b.created a.created
  exact h.imp (fun hab => of_decide_eq_true hab)

end CgGuide.RoutesService
