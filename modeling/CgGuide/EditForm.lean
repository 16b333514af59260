/-
The edit form of a route: `Edit.cshtml`, the model binder, and the two `Edit`
actions of `RoutesController`.

A round through the form passes several layers, and each decides on its own what a
property becomes. The page renders some properties into controls; its script rewrites
one of them; the browser posts the controls that have a `name`; the binder builds a
*new* route and fills the properties it finds among the posted names; `Update` writes
every column of what it is given. A property that one of them leaves out is therefore
not kept but overwritten with its default. `editPost_audit_iff` says for which
stored routes that makes no difference.

The binder and the texts of the runtime are not part of the repository. What is
used of them is the structure `Culture` (the conversions between values and
texts) and the rule that a property whose text cannot be converted, or that is
not posted, stays at its default.
-/
import CgGuide.RoutesService
import CgGuide.EditScript

set_option autoImplicit false

namespace CgGuide.EditForm

open CgGuide.DotNet CgGuide.KeyedTable CgGuide.Entities CgGuide.DbContext CgGuide.Repositories
open CgGuide.RoutesService CgGuide.EditScript UpdatableEntity AppDbContext

/-! ## Texts -/

/-- The texts of one culture: `ToString`, `ToShortDateString`, and the type
converters of the binder. A converter returns nothing where the binder records
an error. -/
structure Culture where
  int32ToString : Int32 → String
  dateTimeToString : DateTime → String
  toShortDateString : DateTime → String
  toInt32 : String → Option Int32
  toDateTime : String → Option DateTime
  toBoolean : String → Option Bool

/-! ## The page -/

/-- The named controls of `Edit.cshtml` with the texts they are rendered with.
The hidden `ID` input has no `name` and is not among them, and the checkbox is
rendered unchecked whatever the route's flag is. -/
structure EditPage where
  name : String
  distance : String
  created : String
  comments : String
  customers : List String
deriving DecidableEq

/-- The customers the action puts into the view model, by `ID`. -/
def customers : List String := ["1", "2"]

/-- `Edit.cshtml` on a route. A null string renders as no text. -/
def renderEdit (c : Culture) (route : Route) : EditPage where
  name := route.name.getD ""
  distance := c.int32ToString route.distance
  created := c.toShortDateString route.created
  comments := route.comments.getD ""
  customers := customers

/-- The page after its `ready` handler: `Distance` is a spinner from 0 to 3000. -/
def EditPage.ready (page : EditPage) : EditPage :=
  { page with distance := Spinner.format (Spinner.change 0 3000 none page.distance) }

/-- Whether the controls keep their rules: those of the script, and for each input its
`maxlength`, which the spinner has set to 4 for `Distance`. -/
def EditPage.keepsRules (page : EditPage) : Bool :=
  required page.name && maxlength 50 page.name
    && required page.distance && maxlength 4 page.distance
    && maxlength 11 page.created && maxlength 50 page.comments

/-- What the browser posts. The text inputs, the text area and the list are
always posted, the checkbox only when it is checked. -/
structure Submission where
  name : String
  distance : String
  created : String
  comments : String
  customer : String
  isDeleted : Option String
deriving DecidableEq

/-- The texts a page shows, with the first customer chosen. -/
def EditPage.texts (page : EditPage) : Submission where
  name := page.name
  distance := page.distance
  created := page.created
  comments := page.comments
  customer := page.customers.headD ""
  isDeleted := none

/-- `$form.serialize()`. -/
def Submission.serialize (s : Submission) : Submission where
  name := serialized s.name
  distance := serialized s.distance
  created := serialized s.created
  comments := serialized s.comments
  customer := serialized s.customer
  isDeleted := s.isDeleted.map serialized

/-- What is posted of a page that was opened and not touched. -/
def EditPage.submit (page : EditPage) : Submission := page.ready.texts.serialize

/-! ## The binder -/

/-- The texts a request offers under the names of properties. -/
abbrev ValueProvider : Type := String → Option String

/-- The posted form as a value provider. -/
def Submission.values (s : Submission) : ValueProvider
  | "Name" => some s.name
  | "Distance" => some s.distance
  | "Created" => some s.created
  | "Comments" => some s.comments
  | "Customer" => some s.customer
  | "IsDeleted" => s.isDeleted
  | _ => none

/-- A string property: an empty text is bound as null. -/
def bindString (values : ValueProvider) (property : String) : Option String :=
  match values property with
  | none => none
  | some text => if text = "" then none else some text

theorem getD_bindString (values : ValueProvider) (property : String) :
    (bindString values property).getD "" = (values property).getD "" := by
  unfold bindString
  cases values property with
  | none => rfl
  | some text =>
    show (if text = "" then none else some text).getD "" = text
    split_ifs with hempty
    · rw [hempty, Option.getD_none]
    · rw [Option.getD_some]

/-- A property of a value type. -/
def bindValue {α : Type} (values : ValueProvider) (property : String) (convert : String → Option α)
    (default : α) : α :=
  match values property with
  | none => default
  | some text => (convert text).getD default

/-- A property of a nullable value type. -/
def bindNullable {α : Type} (values : ValueProvider) (property : String)
    (convert : String → Option α) : Option α :=
  (values property).bind convert

/-- `DefaultModelBinder` on a `Route` parameter: a new route, its `ID` from the
URL, every other property from the posted text of its name. -/
def bindRoute (c : Culture) (id : ℤ) (values : ValueProvider) : Route where
  -- the route data `{id}` of the URL, not the hidden input, which has no name
  id := id
  created := bindValue values "Created" c.toDateTime Route.default.created
  createdBy := bindString values "CreatedBy"
  deleted := bindNullable values "Deleted" c.toDateTime
  deletedBy := bindString values "DeletedBy"
  lastUpdated := bindNullable values "LastUpdated" c.toDateTime
  lastUpdatedBy := bindString values "LastUpdatedBy"
  isDeleted := bindValue values "IsDeleted" c.toBoolean Route.default.isDeleted
  name := bindString values "Name"
  distance := bindValue values "Distance" c.toInt32 Route.default.distance
  comments := bindString values "Comments"

@[simp] theorem bindRoute_id (c : Culture) (id : ℤ) (values : ValueProvider) :
    (bindRoute c id values).id = id := rfl

theorem bindRoute_name (c : Culture) (id : ℤ) (values : ValueProvider) :
    (bindRoute c id values).name = bindString values "Name" := rfl

/-! ## `RoutesController.Edit` -/

namespace RoutesController

/-- `Edit` (GET): the page of the stored route. Without a row the view meets a
null route. -/
def editGet (c : Culture) (t : RouteTable) (id : ℤ) : Except Exception EditPage :=
  match getRouteById t id with
  | .error e => .error e
  | .ok none => .error { type := .nullReference }
  | .ok (some route) => .ok (renderEdit c route)

/-- The answer of a successful `Edit` (POST). -/
def editSuccess : String := "Ruta modificada correctamente"

/-- `Edit` (POST): the JSON answer and the table. -/
def editPost (c : Culture) (runtimeText : ExceptionType → String) (t : RouteTable) (id : ℤ)
    (values : ValueProvider) : String × RouteTable :=
  match inUnitOfWork t (DefaultRoutesService.update (argument (bindRoute c id values))) with
  | (.ok (), t') => (editSuccess, t')
  | (.error e, t') => ("Error modificar la ruta. " ++ e.text runtimeText, t')

end RoutesController

open RoutesController

theorem editGet_stored (c : Culture) {t : RouteTable} {id : ℤ} {r : Route}
    (hr : t.find? id = some r) : editGet c t id = .ok (renderEdit c r) := by
  rw [editGet, getRouteById_eq, hr]

/-- An error answer is not the success answer: they differ in the first letter. -/
theorem error_ne_editSuccess (text : String) :
    "Error modificar la ruta. " ++ text ≠ editSuccess := by
  intro h
  have hhead := congrArg (fun s => s.toList.head?) h
  have hE : "Error modificar la ruta. ".toList.head? = some 'E' := by decide
  rw [String.toList_append, List.head?_append, hE, Option.some_or] at hhead
  exact absurd hhead (by decide)

/-- **`Edit` (POST)** reports success exactly when the update returned, and then
the table is the old one with the bound route in place of the stored one. -/
theorem editPost_success_iff (c : Culture) (runtimeText : ExceptionType → String)
    (t t' : RouteTable) (id : ℤ) (values : ValueProvider) :
    editPost c runtimeText t id values = (editSuccess, t')
      ↔ saveModified t (bindRoute c id values) = .ok t' := by
  unfold editPost
  rw [update_spec]
  cases hs : saveModified t (bindRoute c id values) with
  | error e => simp [saveResult, error_ne_editSuccess]
  | ok t₁ => simp [saveResult]

/-- An answer that is not success leaves the table as it was. -/
theorem editPost_failure (c : Culture) (runtimeText : ExceptionType → String) (t : RouteTable)
    (id : ℤ) (values : ValueProvider)
    (h : (editPost c runtimeText t id values).1 ≠ editSuccess) :
    (editPost c runtimeText t id values).2 = t := by
  unfold editPost at h ⊢
  rw [update_spec] at h ⊢
  cases hs : saveModified t (bindRoute c id values) with
  | error e => rfl
  | ok t₁ => simp [saveResult, hs] at h

/-! ## What a posted form leaves of a route -/

/-- The route a submission of the form is bound to: six posted properties, the
key, and defaults. -/
theorem bindRoute_submission (c : Culture) (id : ℤ) (s : Submission) :
    bindRoute c id s.values =
      { Route.default with
        id := id
        created := (c.toDateTime s.created).getD Route.default.created
        isDeleted := bindValue s.values "IsDeleted" c.toBoolean Route.default.isDeleted
        name := if s.name = "" then none else some s.name
        distance := (c.toInt32 s.distance).getD Route.default.distance
        comments := if s.comments = "" then none else some s.comments } := by
  rfl

/-- An empty text is bound as null, which shows as an empty text again. -/
theorem getD_name_bindRoute (c : Culture) (id : ℤ) (s : Submission) :
    (bindRoute c id s.values).name.getD "" = s.name :=
  getD_bindString s.values "Name"

theorem getD_comments_bindRoute (c : Culture) (id : ℤ) (s : Submission) :
    (bindRoute c id s.values).comments.getD "" = s.comments :=
  getD_bindString s.values "Comments"

/-- The audit columns: what the form neither shows nor posts. -/
def sameAudit (r r' : Route) : Prop :=
  r'.createdBy = r.createdBy ∧ r'.deleted = r.deleted ∧ r'.deletedBy = r.deletedBy
    ∧ r'.lastUpdated = r.lastUpdated ∧ r'.lastUpdatedBy = r.lastUpdatedBy

instance (r r' : Route) : Decidable (sameAudit r r') := by
  unfold sameAudit
  infer_instance

/-- Every audit column is null. -/
def blankAudit (r : Route) : Prop :=
  r.createdBy = none ∧ r.deleted = none ∧ r.deletedBy = none ∧ r.lastUpdated = none
    ∧ r.lastUpdatedBy = none

/-- What a round through the form is meant to leave: the posted values in the
row of that route, its other columns as they were, and no other row touched. -/
structure EditKeeps (t t' : RouteTable) (r : Route) (s : Submission) (distance : Int32)
    (created : DateTime) : Prop where
  row : ∃ r', t'.find? r.id = some r' ∧ r'.name = some s.name ∧ r'.distance = distance
    ∧ r'.created = created ∧ r'.comments = (if s.comments = "" then none else some s.comments)
    ∧ sameAudit r r'
  others : ∀ id, id ≠ r.id → t'.find? id = t.find? id

/-- **A successful edit keeps a route's audit columns exactly when there is
nothing in them to keep.** The posted properties and the other rows are always
as they should be; the audit columns come back null. -/
theorem editPost_audit_iff (c : Culture) (runtimeText : ExceptionType → String)
    (t t' : RouteTable) (r : Route) (s : Submission) (distance : Int32) (created : DateTime)
    (hr : t.find? r.id = some r)
    (hdistance : c.toInt32 s.distance = some distance)
    (hcreated : c.toDateTime s.created = some created)
    (hpost : editPost c runtimeText t r.id s.values = (editSuccess, t')) :
    EditKeeps t t' r s distance created ↔ blankAudit r := by
  have hsave := (editPost_success_iff c runtimeText t t' r.id s.values).mp hpost
  obtain ⟨hvalid, -, -, rfl⟩ := saveModified_ok.mp hsave
  -- an empty text is bound as null, which the mapping refuses
  have hname : s.name ≠ "" := by
    intro hempty
    obtain ⟨name, hn⟩ := Route.name_of_validates hvalid
    rw [bindRoute_submission] at hn
    simp [hempty] at hn
  have hself : (t.replace (bindRoute c r.id s.values)).find? r.id
      = some (bindRoute c r.id s.values) :=
    Table.find?_replace_self t.toTable (bindRoute c r.id s.values) hr
  rw [bindRoute_submission] at hself ⊢
  constructor
  · rintro ⟨⟨r', hr', -, -, -, -, haudit⟩, -⟩
    -- the stored row is the bound one, whose audit columns are all null
    rw [hself, Option.some.injEq] at hr'
    obtain ⟨h1, h2, h3, h4, h5⟩ := haudit
    rw [← hr'] at h1 h2 h3 h4 h5
    exact ⟨h1.symm, h2.symm, h3.symm, h4.symm, h5.symm⟩
  · rintro ⟨h1, h2, h3, h4, h5⟩
    refine ⟨⟨_, hself, ?_, ?_, ?_, rfl, ?_⟩, ?_⟩
    · simp [hname]
    · simp [hdistance]
    · simp [hcreated]
    · exact ⟨h1.symm, h2.symm, h3.symm, h4.symm, h5.symm⟩
    · intro id hid
      exact Table.find?_replace_of_ne t.toTable _ hid

/-! ### On the seeded table -/

/-- A culture for concrete runs: the number texts of the runtime, and the date of
the seeded routes. -/
def exampleCulture : Culture where
  int32ToString := DotNet.int32ToString
  dateTimeToString d := if d = ruta1.created then "10/10/2010 0:00:00" else ""
  toShortDateString d := if d = ruta1.created then "10/10/2010" else ""
  toInt32 := int32TryParse
  toDateTime s := if s = "10/10/2010" then some ruta1.created else none
  toBoolean s := if s = "True" ∨ s = "true" then some true
    else if s = "False" ∨ s = "false" then some false else none

theorem exampleCulture_round (d : Int32) :
    exampleCulture.toInt32 (exampleCulture.int32ToString d) = some d := by
  have hread : exampleCulture.toInt32 = int32TryParse := rfl
  have hwrite : exampleCulture.int32ToString = DotNet.int32ToString := rfl
  rw [hread, hwrite]
  exact int32TryParse_int32ToString d

/-- The page of the first seeded route, submitted with another name. -/
def renamed : Submission :=
  { (renderEdit exampleCulture ruta1).submit with name := "Ruta Norte" }

/-- The first seeded route, had nobody signed it. -/
def unsigned : Route :=
  { ruta1 with
    createdBy := none, deleted := none, deletedBy := none, lastUpdated := none,
    lastUpdatedBy := none }

/-- A stored route without audit data keeps all it has. -/
theorem editPost_audit_blank :
    EditKeeps (seedTable.replace unsigned)
      ((seedTable.replace unsigned).replace (bindRoute exampleCulture 3 renamed.values))
      unsigned renamed 10 ruta1.created :=
  (editPost_audit_iff exampleCulture (fun _ => "") _ _ unsigned renamed 10 ruta1.created
    (by decide) (by decide) (by decide) (by rfl)).mpr ⟨rfl, rfl, rfl, rfl, rfl⟩

/-- Renaming a seeded route through the form reports success and loses its
`CreatedBy`. -/
theorem editPost_loses_createdBy :
    ¬ ∀ (t t' : RouteTable) (r : Route) (s : Submission) (distance : Int32) (created : DateTime),
      t.find? r.id = some r → exampleCulture.toInt32 s.distance = some distance →
      exampleCulture.toDateTime s.created = some created →
      editPost exampleCulture (fun _ => "") t r.id s.values = (editSuccess, t') →
      EditKeeps t t' r s distance created := by
  intro h
  have hkeeps := h seedTable (seedTable.replace (bindRoute exampleCulture 3 renamed.values)) ruta1
    renamed 10 ruta1.created (by decide) (by decide) (by decide) (by rfl)
  obtain ⟨r', hr', -, -, -, -, hcreatedBy, -⟩ := hkeeps.row
  have hrow : (seedTable.replace (bindRoute exampleCulture 3 renamed.values)).find? 3
      = some (bindRoute exampleCulture 3 renamed.values) := by decide
  rw [show ruta1.id = 3 from rfl, hrow, Option.some.injEq] at hr'
  rw [← hr'] at hcreatedBy
  exact absurd hcreatedBy (by decide)

end CgGuide.EditForm
