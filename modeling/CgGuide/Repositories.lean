/-
`Model/Repositories`: the generic repository, the one of the routes, and the
unit of work they share.

The generic repository is generic here too. Its `update` is the two lines of the
source, `Attach` and `State = Modified`; that the whole row is rewritten follows
from what the context does with the state, not from anything said here.
-/
import CgGuide.DbContext

set_option autoImplicit false

namespace CgGuide.Repositories

open CgGuide.DotNet CgGuide.KeyedTable CgGuide.Entities CgGuide.DbContext
open UpdatableEntity AppDbContext

/-! ## `GenericUpdatableRepository` -/

namespace GenericUpdatableRepository

variable {TEntity : Type} [UpdatableEntity TEntity]

/-- The rows `dbSet.Where(x => !x.IsDeleted)` selects. -/
def live (t : EntityTable TEntity) : List TEntity :=
  t.rows.filter (fun x => !(base x).isDeleted)

/-- `List()`, enumerated. -/
def list (o : RowOrder TEntity) : Call TEntity (List (Instance TEntity)) := do
  let ctx ← get
  toList (o.arrange (live ctx.table))

/-- `GetByID`: no test of `IsDeleted`. -/
def getByID (id : ℤ) : Call TEntity (Option (Instance TEntity)) :=
  find id

/-- `Insert`. -/
def insert (entity : Instance TEntity) : Call TEntity Unit :=
  add entity

/-- `Delete(TEntity)`: attach a detached object, then remove it. -/
def delete (entityToDelete : Instance TEntity) : Call TEntity Unit := do
  -- no entry: the object is `Detached`
  if (← entryState entityToDelete) = none then
    attach entityToDelete
  remove entityToDelete

/-- `Update`: attach, then mark the whole entity as modified. -/
def update (entityToUpdate : Instance TEntity) : Call TEntity Unit := do
  attach entityToUpdate
  setEntryState entityToUpdate .modified

end GenericUpdatableRepository

/-! ## `RoutesRepository` -/

namespace RoutesRepository

open GenericUpdatableRepository

/-- `OrderByDescending(x => x.Created)`. -/
def orderByDescendingCreated (rows : List Route) : List Route :=
  rows.mergeSort (fun a b => decide (b.created ≤ a.created))

/-- `GetAll`: the rows that are not deleted, latest first. The engine orders
rows with equal `Created` as it met them. -/
def getAll (o : RowOrder Route) : Call Route (List (Instance Route)) := do
  let ctx ← get
  toList (orderByDescendingCreated (o.arrange (live ctx.table)))

end RoutesRepository

/-! ## `UnitOfWork` -/

/-- `UnitOfWork.Save`. -/
def UnitOfWork.save {TEntity : Type} [UpdatableEntity TEntity] : Call TEntity Unit :=
  saveChanges

end CgGuide.Repositories
