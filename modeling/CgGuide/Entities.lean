/-
The entities and their column mappings (`Model/entities`, `Model/Mappings`).

`AbstractUpdatableClass` carries the key and the audit columns, `Route` adds its
own. What is left out: the navigation property `Route.Customer`, which no
modelled function reads and which an entity marked as modified does not write
(its foreign key is no scalar property of `Route`), and the rule lists of
`AbstractUpdatableClass`, which are no columns.

`UpdatableEntity` is what the generic repository may assume of its type
parameter: the constraint `where TEntity : AbstractUpdatableClass`, plus the two
checks a save makes of a row. The checks come from two places and are kept
apart. `validates` is the `EntityTypeConfiguration` (`IsRequired`,
`HasMaxLength`), which Entity Framework tests before it sends anything;
`columnsAccept` is the range of the SQL Server type `datetime` every `DateTime`
property is mapped to by convention.
-/
import CgGuide.DotNet
import CgGuide.KeyedTable

set_option autoImplicit false

namespace CgGuide.Entities

open CgGuide.DotNet CgGuide.KeyedTable

/-! ## `AbstractUpdatableClass` and `Route` -/

structure AbstractUpdatableClass where
  id : ℤ
  created : DateTime
  createdBy : Option String
  deleted : Option DateTime
  deletedBy : Option String
  lastUpdated : Option DateTime
  lastUpdatedBy : Option String
  isDeleted : Bool
deriving DecidableEq

/-- `new AbstractUpdatableClass()`: every property at the default of its type. -/
def AbstractUpdatableClass.default : AbstractUpdatableClass where
  id := 0
  created := DateTime.minValue
  createdBy := none
  deleted := none
  deletedBy := none
  lastUpdated := none
  lastUpdatedBy := none
  isDeleted := false

structure Route extends AbstractUpdatableClass where
  name : Option String
  distance : Int32
  comments : Option String
deriving DecidableEq

/-- `new Route()`. -/
def Route.default : Route where
  toAbstractUpdatableClass := AbstractUpdatableClass.default
  name := none
  distance := 0
  comments := none

/-! ## What a save asks of a row -/

/-- `SqlDateTime.MinValue.Ticks`: the first of January of 1753. -/
abbrev sqlDateTimeMin : ℕ := 552877920000000000

/-- A `datetime` column stores no earlier date. -/
def sqlDateTimeAccepts (d : DateTime) : Bool := decide (sqlDateTimeMin ≤ d.ticks)

/-- The three `datetime` columns of `AbstractUpdatableClass`. -/
def AbstractUpdatableClass.datesAccepted (b : AbstractUpdatableClass) : Bool :=
  sqlDateTimeAccepts b.created && b.deleted.all sqlDateTimeAccepts
    && b.lastUpdated.all sqlDateTimeAccepts

/-- The entity types of the generic repository. -/
class UpdatableEntity (TEntity : Type) where
  /-- The inherited part. -/
  base : TEntity → AbstractUpdatableClass
  /-- The entity under another key. -/
  withID : ℤ → TEntity → TEntity
  base_withID : ∀ i e, base (withID i e) = { base e with id := i }
  /-- The entity's `EntityTypeConfiguration`. -/
  validates : TEntity → Bool
  /-- The ranges of the entity's column types. -/
  columnsAccept : TEntity → Bool

open UpdatableEntity

/-- The key of an entity. -/
def ID {TEntity : Type} [UpdatableEntity TEntity] (e : TEntity) : ℤ := (base e).id

@[simp] theorem ID_withID {TEntity : Type} [UpdatableEntity TEntity] (i : ℤ) (e : TEntity) :
    ID (withID i e) = i := by
  simp [ID, base_withID]

/-- The table an entity type is mapped to: `ID` is its primary key and, by
convention, an identity column. -/
abbrev EntityTable (TEntity : Type) [UpdatableEntity TEntity] : Type :=
  @IdentityTable TEntity ID

/-- `RouteMap`: `Name` is required and at most 50 long. `Distance` is required
too, which a value type always meets. -/
def RouteMap.validates (r : Route) : Bool :=
  match r.name with
  | none => false
  | some name => decide (DotNet.length name ≤ 50)

instance : UpdatableEntity Route where
  base := Route.toAbstractUpdatableClass
  withID i r := { r with id := i }
  base_withID _ _ := rfl
  validates := RouteMap.validates
  columnsAccept r := r.datesAccepted

@[simp] theorem Route.ID_eq (r : Route) : ID r = r.id := rfl

/-- A route that validates has a name. -/
theorem Route.name_of_validates {r : Route} (h : validates r = true) :
    ∃ name, r.name = some name := by
  cases hn : r.name with
  | none => simp [validates, RouteMap.validates, hn] at h
  | some name => exact ⟨name, rfl⟩

end CgGuide.Entities
