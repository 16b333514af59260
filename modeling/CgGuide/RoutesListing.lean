/-
`RoutesController.jQueryDataTablesHandler`: one page of the route listing.

The action is a chain of deferred stages over the routes `GetAll` returned:
filter by name, sort by a property looked up by reflection, cut the page, write
each route as a row of texts. Nothing of it runs before the final `ToArray`, and
two stages dereference a string that may be null: the filter reads `Name`, the
row reads `CreatedBy`.

`jQueryDataTablesHandler_ok_iff` says when the chain ends normally, as a
condition on the stored routes. The second half of the file follows that
condition through runs of edits, which keep the names and lose the `CreatedBy`.
-/
import CgGuide.EditForm
import CgGuide.Deferred

set_option autoImplicit false

namespace CgGuide.RoutesListing

open CgGuide.DotNet CgGuide.KeyedTable CgGuide.Entities CgGuide.DbContext CgGuide.Repositories
open CgGuide.RoutesService CgGuide.EditForm CgGuide.Deferred

/-! ## The request and the answer -/

/-- `jQueryDataTableParamModel`, less the two counts no action reads. -/
structure JQueryDataTableParamModel where
  sEcho : Option String
  sSearch : Option String
  iDisplayLength : ℤ
  iDisplayStart : ℤ
  sColumns : Option String

/-- The bound parameter, and the two entries the action takes from `Request`. -/
structure ListingRequest where
  param : JQueryDataTableParamModel
  iSortCol_0 : Option String
  sSortDir_0 : Option String

/-- The anonymous object of the JSON answer. A cell is null only for a null
`Name`. -/
structure Listing where
  sEcho : Option String
  iTotalRecords : ℕ
  iTotalDisplayRecords : ℕ
  aaData : List (List (Option String))

/-! ## Reflection on `Route` -/

/-- A property value boxed as `object`. `reference` is an object that does not
implement `IComparable`, with the key of the route it belongs to. -/
inductive PropertyValue
  | null
  | int (n : ℤ)
  | string (s : String)
  | dateTime (d : DateTime)
  | boolean (b : Bool)
  | reference (owner : ℤ)
deriving DecidableEq

def PropertyValue.ofString : Option String → PropertyValue
  | none => .null
  | some s => .string s

def PropertyValue.ofDateTime : Option DateTime → PropertyValue
  | none => .null
  | some d => .dateTime d

/-- `typeof(Route).GetProperty(name)` and the getter it finds. `Customer` is
null on every route read without an `Include`, and `ValidationErrors` is a list
of the route's own. -/
def getProperty : String → Option (Route → PropertyValue)
  | "Name" => some fun r => .ofString r.name
  | "Distance" => some fun r => .int r.distance.toInt
  | "Comments" => some fun r => .ofString r.comments
  | "Customer" => some fun _ => .null
  | "ID" => some fun r => .int r.id
  | "Created" => some fun r => .dateTime r.created
  | "CreatedBy" => some fun r => .ofString r.createdBy
  | "Deleted" => some fun r => .ofDateTime r.deleted
  | "DeletedBy" => some fun r => .ofString r.deletedBy
  | "LastUpdated" => some fun r => .ofDateTime r.lastUpdated
  | "LastUpdatedBy" => some fun r => .ofString r.lastUpdatedBy
  | "IsDeleted" => some fun r => .boolean r.isDeleted
  | "ValidationErrors" => some fun r => .reference r.id
  | _ => none

/-- The properties of `Route` whose type implements `IComparable`. -/
def comparableProperties : List String :=
  ["Name", "Distance", "Comments", "ID", "Created", "CreatedBy", "Deleted", "DeletedBy",
    "LastUpdated", "LastUpdatedBy", "IsDeleted"]

/-- `Comparer<object>.Default.Compare`: null first, two values of one comparable
type by that type, and otherwise an `ArgumentException`. -/
def compareObjects (compareStrings : String → String → Ordering) :
    PropertyValue → PropertyValue → Except Exception Ordering
  | .null, .null => .ok .eq
  | .null, _ => .ok .lt
  | _, .null => .ok .gt
  | .int a, .int b => .ok (compare a b)
  | .string a, .string b => .ok (compareStrings a b)
  | .dateTime a, .dateTime b => .ok (compare a.ticks b.ticks)
  | .boolean a, .boolean b => .ok (compare a b)
  | .reference a, .reference b => if a = b then .ok .eq else .error { type := .argument }
  | _, _ => .error { type := .argument }

/-! ## The action -/

/-- The stage that searches the name. -/
def searchName (sSearch : String) (r : Route) : Except Exception Bool :=
  match r.name with
  | none => .error { type := .nullReference }
  | some name => .ok (contains name sSearch)

/-- The column a request sorts by, if it sorts: the index is read from the
request, the name from the client's list of columns. -/
def sortColumn (req : ListingRequest) : Except Exception (Option String) :=
  match req.iSortCol_0, req.sSortDir_0 with
  | some col, some dir =>
    if col = "" ∨ dir = "" then .ok none
    else
      match int32Parse col, req.param.sColumns with
      -- `Convert.ToInt32` comes first, then `sColumns.Split(',')`, then the index
      | .error e, _ => .error e
      | .ok _, none => .error { type := .nullReference }
      | .ok i, some columns =>
        if i.toInt < 0 then .error { type := .indexOutOfRange }
        else match (split columns ',')[i.toInt.toNat]? with
          | none => .error { type := .indexOutOfRange }
          | some name => .ok (some name)
  | _, _ => .ok none

/-- The key a row is sorted by. A name `Route` does not have makes
`GetProperty` return null. -/
def orderingFunction (columnName : String) (r : Route) : Except Exception PropertyValue :=
  match getProperty columnName with
  | none => .error { type := .nullReference }
  | some get => .ok (get r)

/-- One row of `aaData`. -/
def tableRow (c : Culture) (r : Route) : Except Exception (List (Option String)) :=
  -- `x.CreatedBy.ToString()`, the one dereference without a test for null
  match r.createdBy with
  | none => .error { type := .nullReference }
  | some createdBy => .ok
    [ r.name,
      some (c.int32ToString r.distance),
      some (c.dateTimeToString r.created),
      some createdBy,
      some (match r.deleted with
        | none => ""
        | some d => c.dateTimeToString d),
      some (r.deletedBy.getD ""),
      some (match r.lastUpdated with
        | none => ""
        | some d => c.dateTimeToString d),
      some (r.lastUpdatedBy.getD ""),
      some (if r.isDeleted then "True" else "False") ]

section Action

variable (c : Culture) (compareStrings : String → String → Ordering)

/-- The routes after the search. -/
def filteredRoutes (req : ListingRequest) (routes : List Route) : Enumerable Exception Route :=
  match req.param.sSearch with
  | none => .ofList routes
  | some sSearch =>
    if sSearch = "" then .ofList routes
    else (Enumerable.ofList routes).where' (searchName sSearch)

/-- The routes after the search and the sort. -/
def orderedRoutes (req : ListingRequest) (routes : List Route) :
    Except Exception (Enumerable Exception Route) := do
  match ← sortColumn req with
  | none => return filteredRoutes req routes
  | some columnName =>
    return (filteredRoutes req routes).orderBy (orderingFunction columnName)
      (compareObjects compareStrings) (req.sSortDir_0 != some "asc")

/-- The routes of the page. -/
def displayedRoutes (req : ListingRequest) (routes : List Route) :
    Except Exception (Enumerable Exception Route) := do
  let ordered ← orderedRoutes compareStrings req routes
  return (ordered.skip req.param.iDisplayStart).take req.param.iDisplayLength

/-- `jQueryDataTablesHandler` on the routes the service returned. -/
def listRows (req : ListingRequest) (routes : List Route) : Except Exception Listing := do
  let displayed ← displayedRoutes compareStrings req routes
  let result ← (displayed.select (tableRow c)).toArray
  return {
    sEcho := req.param.sEcho
    iTotalRecords := routes.length
    iTotalDisplayRecords := routes.length
    aaData := result }

/-- `jQueryDataTablesHandler`. -/
def jQueryDataTablesHandler (t : RouteTable) (o : RowOrder Route) (req : ListingRequest) :
    Except Exception Listing := do
  let routes ← getAllRoutes t o
  listRows c compareStrings req routes

end Action

/-! ## When the listing returns -/

section Returns

variable (c : Culture) (compareStrings : String → String → Ordering)

/-- The request does not sort, or sorts by a property that compares. -/
def Sortable (req : ListingRequest) : Prop :=
  ∃ col, sortColumn req = .ok col ∧ ∀ name, col = some name → name ∈ comparableProperties

/-- Any two values of a comparable property compare. -/
theorem comparable_getProperty {name : String} (h : name ∈ comparableProperties) :
    ∃ get, getProperty name = some get
      ∧ ∀ r s, ∃ o, compareObjects compareStrings (get r) (get s) = .ok o := by
  -- null compares with everything, so a nullable property needs its four cases
  have hstring : ∀ a b : Option String,
      ∃ o, compareObjects compareStrings (.ofString a) (.ofString b) = .ok o := by
    intro a b
    cases a <;> cases b <;> exact ⟨_, rfl⟩
  have hdate : ∀ a b : Option DateTime,
      ∃ o, compareObjects compareStrings (.ofDateTime a) (.ofDateTime b) = .ok o := by
    intro a b
    cases a <;> cases b <;> exact ⟨_, rfl⟩
  simp only [comparableProperties, List.mem_cons, List.not_mem_nil, or_false] at h
  rcases h with rfl | rfl | rfl | rfl | rfl | rfl | rfl | rfl | rfl | rfl | rfl
  · exact ⟨_, rfl, fun r s => hstring r.name s.name⟩
  · exact ⟨_, rfl, fun r s => ⟨_, rfl⟩⟩
  · exact ⟨_, rfl, fun r s => hstring r.comments s.comments⟩
  · exact ⟨_, rfl, fun r s => ⟨_, rfl⟩⟩
  · exact ⟨_, rfl, fun r s => ⟨_, rfl⟩⟩
  · exact ⟨_, rfl, fun r s => hstring r.createdBy s.createdBy⟩
  · exact ⟨_, rfl, fun r s => hdate r.deleted s.deleted⟩
  · exact ⟨_, rfl, fun r s => hstring r.deletedBy s.deletedBy⟩
  · exact ⟨_, rfl, fun r s => hdate r.lastUpdated s.lastUpdated⟩
  · exact ⟨_, rfl, fun r s => hstring r.lastUpdatedBy s.lastUpdatedBy⟩
  · exact ⟨_, rfl, fun r s => ⟨_, rfl⟩⟩

/-- The test of the search. -/
def matchesSearch (req : ListingRequest) (r : Route) : Bool :=
  match req.param.sSearch with
  | none => true
  | some sSearch => if sSearch = "" then true else contains (r.name.getD "") sSearch

/-- What a search needs of the routes: names to look at. -/
def Searchable (req : ListingRequest) (routes : List Route) : Prop :=
  isNullOrEmpty req.param.sSearch = false → ∀ r ∈ routes, r.name ≠ none

theorem filteredRoutes_eq {req : ListingRequest} {routes : List Route}
    (h : Searchable req routes) :
    filteredRoutes req routes = .ofList (routes.filter (matchesSearch req)) := by
  unfold filteredRoutes matchesSearch
  unfold Searchable at h
  cases hsearch : req.param.sSearch with
  | none => simp
  | some sSearch =>
    dsimp only
    by_cases hempty : sSearch = ""
    · simp [hempty]
    · have hnames := h (by simpa [hsearch] using hempty)
      simp only [if_neg hempty]
      apply Enumerable.where'_eq (searchName sSearch)
        (fun r => contains (r.name.getD "") sSearch) (Enumerable.ofList routes)
        (Enumerable.total_ofList routes)
      intro r hr
      obtain ⟨name, hname⟩ := Option.ne_none_iff_exists'.mp (hnames r hr)
      simp [searchName, hname]

/-- Routes with names pass the search without an exception. -/
theorem filteredRoutes_spec (req : ListingRequest) (routes : List Route)
    (hname : ∀ r ∈ routes, r.name ≠ none) :
    (filteredRoutes req routes).Total ∧ ∀ r ∈ (filteredRoutes req routes).items, r ∈ routes := by
  rw [filteredRoutes_eq (fun _ => hname)]
  exact ⟨rfl, fun r hr => List.mem_of_mem_filter hr⟩

/-- And a sortable request sorts and cuts what the search kept. -/
theorem displayedRoutes_spec (req : ListingRequest) (routes : List Route)
    (hname : ∀ r ∈ routes, r.name ≠ none) (hsort : Sortable req) :
    ∃ displayed, displayedRoutes compareStrings req routes = .ok displayed
      ∧ displayed.Total ∧ ∀ r ∈ displayed.items, r ∈ routes := by
  obtain ⟨htotal, hmem⟩ := filteredRoutes_spec req routes hname
  obtain ⟨col, hcol, hcomp⟩ := hsort
  have hordered : ∃ ordered, orderedRoutes compareStrings req routes = .ok ordered
      ∧ ordered.Total ∧ ∀ r ∈ ordered.items, r ∈ routes := by
    cases col with
    | none => exact ⟨filteredRoutes req routes, by rw [orderedRoutes, hcol]; rfl, htotal, hmem⟩
    | some name =>
      -- every name is one of `Route` and every pair compares, so the sort only rearranges
      obtain ⟨get, hget, hcmp⟩ := comparable_getProperty compareStrings (hcomp name rfl)
      obtain ⟨htotal', hperm⟩ := Enumerable.orderBy_perm (orderingFunction name) get
        (compareObjects compareStrings) (req.sSortDir_0 != some "asc") (filteredRoutes req routes)
        htotal (fun r _ => by rw [orderingFunction, hget]) (fun r _ s _ => hcmp r s)
      exact ⟨_, by rw [orderedRoutes, hcol]; rfl, htotal',
        fun r hr => hmem r (hperm.mem_iff.mp hr)⟩
  obtain ⟨ordered, hord, hot, hom⟩ := hordered
  refine ⟨(ordered.skip req.param.iDisplayStart).take req.param.iDisplayLength, ?_, ?_, ?_⟩
  · rw [displayedRoutes, hord]
    rfl
  · exact Enumerable.total_take _ _ (Enumerable.total_skip _ _ hot)
  · intro r hr
    rw [Enumerable.items_take, Enumerable.items_skip] at hr
    exact hom r (List.mem_of_mem_drop (List.mem_of_mem_take hr))

/-- A row is written exactly when the route has a `CreatedBy`. -/
theorem tableRow_ok_iff (r : Route) : (∃ row, tableRow c r = .ok row) ↔ r.createdBy ≠ none := by
  unfold tableRow
  cases r.createdBy with
  | none => simp
  | some createdBy => simp

/-- **A page returns** when every route has a name and a `CreatedBy`. -/
theorem listRows_ok (req : ListingRequest) (routes : List Route)
    (hname : ∀ r ∈ routes, r.name ≠ none) (hcreatedBy : ∀ r ∈ routes, r.createdBy ≠ none)
    (hsort : Sortable req) :
    ∃ a, listRows c compareStrings req routes = .ok a := by
  obtain ⟨displayed, hdisp, htotal, hmem⟩ :=
    displayedRoutes_spec compareStrings req routes hname hsort
  have hrows : (displayed.select (tableRow c)).Total :=
    (Enumerable.total_select_iff _ _).mpr
      ⟨htotal, fun r hr => (tableRow_ok_iff c r).mpr (hcreatedBy r (hmem r hr))⟩
  have harray : (displayed.select (tableRow c)).toArray
      = .ok (displayed.select (tableRow c)).items :=
    (Enumerable.toArray_eq_ok_iff _ _).mpr ⟨hrows, rfl⟩
  refine ⟨⟨req.param.sEcho, routes.length, routes.length,
    (displayed.select (tableRow c)).items⟩, ?_⟩
  rw [listRows, hdisp]
  dsimp only [bind, Except.bind]
  rw [harray]
  rfl

/-- The request for the first `n` rows, without search or sort. -/
def firstRows (n : ℕ) : ListingRequest where
  param := ⟨none, none, n, 0, none⟩
  iSortCol_0 := none
  sSortDir_0 := none

theorem sortable_firstRows (n : ℕ) : Sortable (firstRows n) :=
  ⟨none, rfl, fun _ h => nomatch h⟩

/-- A page that shows a route without `CreatedBy` throws. -/
theorem listRows_firstRows_throws (routes : List Route) {r : Route} (hr : r ∈ routes)
    (hnull : r.createdBy = none) (a : Listing) :
    listRows c compareStrings (firstRows routes.length) routes ≠ .ok a := by
  intro h
  have hdisp : displayedRoutes compareStrings (firstRows routes.length) routes
      = .ok (((Enumerable.ofList routes).skip 0).take routes.length) := rfl
  -- nothing is skipped and the page is as long as the table
  have hall : (((Enumerable.ofList routes : Enumerable Exception Route).skip 0).take
      routes.length).items = routes := by
    rw [Enumerable.items_take, Enumerable.items_skip]
    simp
  rw [listRows, hdisp] at h
  dsimp only [bind, Except.bind] at h
  cases harr : ((((Enumerable.ofList routes : Enumerable Exception Route).skip 0).take
      routes.length).select (tableRow c)).toArray with
  | error e => simp [harr] at h
  | ok rows =>
    obtain ⟨htotal, -⟩ := (Enumerable.toArray_eq_ok_iff _ _).mp harr
    have hrow := ((Enumerable.total_select_iff _ _).mp htotal).2 r (by rw [hall]; exact hr)
    exact (tableRow_ok_iff c r).mp hrow hnull

/-- The rows of `GetAll` are the live rows. -/
theorem mem_getAllRoutes (t : RouteTable) (o : RowOrder Route) (r : Route) :
    r ∈ RoutesRepository.orderByDescendingCreated (o.arrange (GenericUpdatableRepository.live t))
      ↔ r ∈ GenericUpdatableRepository.live t := by
  rw [RoutesRepository.orderByDescendingCreated, List.mem_mergeSort]
  exact (arrange_live_perm t o).mem_iff

/-- **The listing of a table whose routes have names** returns for every sortable
request exactly when every live route has a `CreatedBy`. -/
theorem jQueryDataTablesHandler_ok_iff (t : RouteTable)
    (hname : ∀ r ∈ GenericUpdatableRepository.live t, r.name ≠ none) :
    (∀ o req, Sortable req →
        ∃ a, jQueryDataTablesHandler c compareStrings t o req = .ok a)
      ↔ ∀ r ∈ GenericUpdatableRepository.live t, r.createdBy ≠ none := by
  have hhandler : ∀ o req, jQueryDataTablesHandler c compareStrings t o req
      = listRows c compareStrings req
          (RoutesRepository.orderByDescendingCreated
            (o.arrange (GenericUpdatableRepository.live t))) := by
    intro o req
    rw [jQueryDataTablesHandler, getAllRoutes_eq]
    rfl
  constructor
  · intro h r hr hnull
    -- the request that shows every row shows this one
    have hrow := (mem_getAllRoutes t RowOrder.stored r).mpr hr
    obtain ⟨a, ha⟩ := h RowOrder.stored (firstRows _) (sortable_firstRows _)
    rw [hhandler] at ha
    exact listRows_firstRows_throws c compareStrings _ hrow hnull a ha
  · intro h o req hsort
    rw [hhandler]
    refine listRows_ok c compareStrings req _ ?_ ?_ hsort
    · intro r hr
      exact hname r ((mem_getAllRoutes t o r).mp hr)
    · intro r hr
      exact h r ((mem_getAllRoutes t o r).mp hr)

end Returns

/-! ## Runs of edits -/

/-- One submission of the edit form of the route `id`. -/
structure EditRequest where
  id : ℤ
  submission : Submission

/-- The POSTs of a list take one table to another, and each reports success. -/
def EditRun (c : Culture) (runtimeText : ExceptionType → String) :
    RouteTable → List EditRequest → RouteTable → Prop
  | t, [], t' => t' = t
  | t, e :: es, t' => ∃ t₁, RoutesController.editPost c runtimeText t e.id e.submission.values
      = (RoutesController.editSuccess, t₁) ∧ EditRun c runtimeText t₁ es t'

/-- The last submission for a route. -/
def lastEdit (id : ℤ) : List EditRequest → Option Submission
  | [] => none
  | e :: es => (lastEdit id es).or (if e.id = id then some e.submission else none)

/-- The `IsDeleted` a submission is bound to. -/
def Submission.deletes (c : Culture) (s : Submission) : Bool :=
  bindValue s.values "IsDeleted" c.toBoolean Route.default.isDeleted

section EditRuns

variable {c : Culture} {runtimeText : ExceptionType → String}

/-- **What a run of edits stores.** An edited route is the one bound from its
last submission, any other is as it was. -/
theorem editRun_find? {es : List EditRequest} :
    ∀ {t t' : RouteTable}, EditRun c runtimeText t es t' → ∀ id, t'.find? id
      = match lastEdit id es with
        | some s => some (bindRoute c id s.values)
        | none => t.find? id := by
  induction es with
  | nil =>
      rintro t t' rfl id
      rfl
  | cons e es ih =>
      rintro t t' ⟨t₁, hpost, hrest⟩ id
      obtain ⟨-, -, ⟨old, hold⟩, rfl⟩ :=
        saveModified_ok.mp ((editPost_success_iff c runtimeText t t₁ _ _).mp hpost)
      rw [ih hrest id, lastEdit]
      -- a later submission for the same route hides this one
      cases lastEdit id es with
      | some s => rfl
      | none =>
        by_cases hid : e.id = id
        · subst hid
          simp only [if_true, Option.none_or]
          exact Table.find?_replace_self t.toTable (bindRoute c e.id e.submission.values) hold
        · have hne : id ≠ ID (bindRoute c e.id e.submission.values) := Ne.symm hid
          simp only [if_neg hid, Option.none_or]
          exact Table.find?_replace_of_ne t.toTable _ hne

/-- Edits never leave a route without a name: the mapping refuses to save it. -/
theorem editRun_names {es : List EditRequest} :
    ∀ {t t' : RouteTable}, EditRun c runtimeText t es t' → (∀ r ∈ t.rows, r.name ≠ none) →
      ∀ r ∈ t'.rows, r.name ≠ none := by
  induction es with
  | nil =>
      rintro t t' rfl hnames
      exact hnames
  | cons e es ih =>
      rintro t t' ⟨t₁, hpost, hrest⟩ hnames
      obtain ⟨hvalid, -, -, rfl⟩ :=
        saveModified_ok.mp ((editPost_success_iff c runtimeText t t₁ _ _).mp hpost)
      apply ih hrest
      intro r hr
      rcases (Table.mem_replace t.toTable _ r).mp hr with ⟨rfl, -⟩ | ⟨hmem, -⟩
      · obtain ⟨name, hn⟩ := Route.name_of_validates hvalid
        rw [hn]
        exact Option.some_ne_none name
      · exact hnames r hmem

/-- **The listing after a run of edits.** From a table whose routes have a name
and a `CreatedBy`, after any successful edits, the listing returns for every
sortable request exactly when no edited route was left live: what an edit binds
has no `CreatedBy`. -/
theorem listing_returns_iff (c : Culture) (runtimeText : ExceptionType → String)
    (compareStrings : String → String → Ordering) (t₀ t : RouteTable) (es : List EditRequest)
    (hstart : ∀ r ∈ t₀.rows, r.name ≠ none ∧ r.createdBy ≠ none)
    (hrun : EditRun c runtimeText t₀ es t) :
    (∀ o req, Sortable req →
        ∃ a, jQueryDataTablesHandler c compareStrings t o req = .ok a)
      ↔ ∀ id s, lastEdit id es = some s → Submission.deletes c s = true := by
  have hnames := editRun_names hrun (fun r hr => (hstart r hr).1)
  have hlive : ∀ r ∈ GenericUpdatableRepository.live t, r.name ≠ none :=
    fun r hr => hnames r (List.mem_of_mem_filter hr)
  rw [jQueryDataTablesHandler_ok_iff c compareStrings t hlive]
  constructor
  · intro h id s hs
    -- the row stored for `id` has no `CreatedBy`, so it must not be live
    have hrow := editRun_find? hrun id
    rw [hs] at hrow
    cases hflag : Submission.deletes c s with
    | true => rfl
    | false =>
      have hmem : bindRoute c id s.values ∈ GenericUpdatableRepository.live t :=
        (mem_live t _).mpr ⟨hrow, hflag⟩
      exact absurd rfl (h _ hmem)
  · intro h r hr
    obtain ⟨hfind, hflag⟩ := (mem_live t r).mp hr
    have hrow := editRun_find? hrun r.id
    rw [hfind] at hrow
    -- a live row is an unedited one, or the binding of an edit that hides it
    cases hlast : lastEdit r.id es with
    | none =>
      rw [hlast] at hrow
      exact (hstart r ((Table.find?_eq_some t₀.toTable r.id r).mp hrow.symm).1).2
    | some s =>
      rw [hlast] at hrow
      have hdel : r.isDeleted = true := by
        rw [Option.some.inj hrow]
        exact h r.id s hlast
      rw [hdel] at hflag
      exact absurd hflag (by decide)

end EditRuns

/-- The first page of the seeded table after an edit that hides its first route. -/
theorem listing_returns_hidden :
    ∃ a, jQueryDataTablesHandler exampleCulture compare
      (seedTable.replace (bindRoute exampleCulture 3
        { renamed with isDeleted := some "True" }.values)) RowOrder.stored (firstRows 10)
          = .ok a := by
  have hhidden := (listing_returns_iff exampleCulture (fun _ => "") compare
    seedTable _ [⟨3, { renamed with isDeleted := some "True" }⟩] (by decide) ⟨_, by rfl, rfl⟩).mpr
  refine hhidden ?_ RowOrder.stored (firstRows 10) (sortable_firstRows 10)
  intro id s hs
  by_cases hid : id = 3
  · subst hid
    rw [← Option.some.inj hs]
    decide
  · simp [lastEdit, Ne.symm hid] at hs

/-- After one rename of the first seeded route the listing throws. -/
theorem listing_throws_after_rename :
    ¬ ∀ (t₀ t : RouteTable) (es : List EditRequest),
      (∀ r ∈ t₀.rows, r.name ≠ none ∧ r.createdBy ≠ none) →
      EditRun exampleCulture (fun _ => "") t₀ es t → ∀ o req, Sortable req →
        ∃ a, jQueryDataTablesHandler exampleCulture compare t o req = .ok a := by
  intro h
  have hlist := h seedTable (seedTable.replace (bindRoute exampleCulture 3 renamed.values))
    [⟨3, renamed⟩] (by decide) ⟨_, by rfl, rfl⟩
  rw [jQueryDataTablesHandler_ok_iff exampleCulture compare _ (by decide)] at hlist
  exact absurd rfl (hlist (bindRoute exampleCulture 3 renamed.values) (by decide))

end CgGuide.RoutesListing
