/-
The columns of the route table: the view's names, the properties of `Route` and the
cells of a row.

The view names nine columns, the client sends the names back with the number of the
one to sort by, and the action looks the name up as a property of `Route`. The row is
written from nine fields of its own. The lists agree in seven places; in the two that
show the last update the view names properties that `Route` has under other names
(`getProperty_aoColumns`, `getProperty_updated`). The look-up is part of a deferred
sort, so it fails only where the sort is run and there is something to sort
(`sortsByShown_iff`).
-/
import CgGuide.RoutesPaging
import Mathlib.Tactic.IntervalCases

set_option autoImplicit false

namespace CgGuide.RoutesColumns

open CgGuide.DotNet CgGuide.KeyedTable CgGuide.Entities CgGuide.DbContext CgGuide.RoutesService
open CgGuide.EditForm CgGuide.Deferred CgGuide.RoutesListing CgGuide.Paging CgGuide.RoutesPaging

/-! ## The three lists -/

/-- `aoColumns` of the view. -/
def aoColumns : List String :=
  ["Name", "Distance", "Created", "CreatedBy", "Deleted", "DeletedBy", "Updated", "UpdatedBy",
    "IsDeleted"]

/-- The field a row shows in its cell number `i`. -/
def shownField : ℕ → Route → PropertyValue
  | 0 => fun r => .ofString r.name
  | 1 => fun r => .int r.distance.toInt
  | 2 => fun r => .dateTime r.created
  | 3 => fun r => .ofString r.createdBy
  | 4 => fun r => .ofDateTime r.deleted
  | 5 => fun r => .ofString r.deletedBy
  | 6 => fun r => .ofDateTime r.lastUpdated
  | 7 => fun r => .ofString r.lastUpdatedBy
  | 8 => fun r => .boolean r.isDeleted
  | _ => fun _ => .null

/-- The text of a field; null shows as nothing. -/
def cellText (c : Culture) : PropertyValue → String
  | .null => ""
  | .int n => c.int32ToString (Int32.ofInt n)
  | .string s => s
  | .dateTime d => c.dateTimeToString d
  | .boolean b => if b then "True" else "False"
  | .reference _ => ""

/-- A row shows its fields. -/
theorem cell_eq (c : Culture) {r : Route} {row : List (Option String)}
    (hrow : tableRow c r = .ok row) (hname : r.name ≠ none) {i : ℕ} (hi : i < aoColumns.length) :
    row[i]? = some (some (cellText c (shownField i r))) := by
  obtain ⟨name, hname⟩ := Option.ne_none_iff_exists'.mp hname
  unfold tableRow at hrow
  cases hcreatedBy : r.createdBy with
  | none => simp [hcreatedBy] at hrow
  | some createdBy =>
    simp only [hcreatedBy, Except.ok.injEq] at hrow
    subst hrow
    have hlength : i < 9 := hi
    interval_cases i
    · simp [shownField, cellText, PropertyValue.ofString, hname]
    · simp [shownField, cellText]
    · simp [shownField, cellText]
    · simp [shownField, cellText, PropertyValue.ofString, hcreatedBy]
    · cases hdeleted : r.deleted <;>
        simp [shownField, cellText, PropertyValue.ofDateTime, hdeleted]
    · cases hdeletedBy : r.deletedBy <;>
        simp [shownField, cellText, PropertyValue.ofString, hdeletedBy]
    · cases hlastUpdated : r.lastUpdated <;>
        simp [shownField, cellText, PropertyValue.ofDateTime, hlastUpdated]
    · cases hlastUpdatedBy : r.lastUpdatedBy <;>
        simp [shownField, cellText, PropertyValue.ofString, hlastUpdatedBy]
    · simp [shownField, cellText]

/-- Seven of the names are the properties shown under them. -/
theorem getProperty_aoColumns {i : ℕ} (hi : i < aoColumns.length) (hsix : i ≠ 6)
    (hseven : i ≠ 7) :
    getProperty aoColumns[i] = some (shownField i) ∧ aoColumns[i] ∈ comparableProperties := by
  have hlength : i < 9 := hi
  interval_cases i
  case «6» => exact absurd rfl hsix
  case «7» => exact absurd rfl hseven
  all_goals exact ⟨rfl, by simp [aoColumns, comparableProperties]⟩

/-- The other two are no properties of `Route`. -/
theorem getProperty_updated {i : ℕ} (hi : i < aoColumns.length) (h : i = 6 ∨ i = 7) :
    getProperty aoColumns[i] = none := by
  rcases h with rfl | rfl
  · rfl
  · rfl

/-! ## A request of the table -/

/-- A request that sorts the table by its column number `i`, in some direction. -/
structure SortRequest (req : ListingRequest) (i : ℕ) : Prop where
  columns : req.param.sColumns = some (",".intercalate aoColumns)
  column : ∃ col n, req.iSortCol_0 = some col ∧ int32Parse col = .ok n ∧ n.toInt = i
  direction : ∃ dir, req.sSortDir_0 = some dir ∧ dir ≠ ""

/-- The action finds the name the view has for the column. -/
theorem SortRequest.sortColumn_eq {req : ListingRequest} {i : ℕ} (h : SortRequest req i)
    (hi : i < aoColumns.length) : sortColumn req = .ok (some aoColumns[i]) := by
  obtain ⟨col, n, hcol, hparse, hn⟩ := h.column
  obtain ⟨dir, hdir, hnonempty⟩ := h.direction
  have hcolumns := h.columns
  have hcolne : col ≠ "" := by
    rintro rfl
    have hempty : int32Parse "" = .error { type := .format } := rfl
    rw [hempty] at hparse
    exact absurd hparse (by simp)
  have hsplit : split (",".intercalate aoColumns) ',' = aoColumns :=
    split_intercalate rfl (by decide) (by decide)
  have hindex : n.toInt.toNat = i := by omega
  have hnonneg : ¬ n.toInt < 0 := by omega
  rw [sortColumn, hcol, hdir]
  simp only [hcolne, hnonempty, or_self, if_false, hparse, hcolumns, hnonneg, hsplit, hindex]
  rw [List.getElem?_eq_getElem hi]

/-! ## The sorted table -/

section Sorted

variable (c : Culture) (compareStrings : String → String → Ordering)

/-- The order by the field shown in cell `i`, ascending for `asc` and descending for
any other direction. -/
def compareShown (req : ListingRequest) (i : ℕ) (r s : Route) : Ordering :=
  if req.sSortDir_0 = some "asc" then
    compareValues compareStrings (shownField i r) (shownField i s)
  else compareValues compareStrings (shownField i s) (shownField i r)

instance [Std.TransCmp compareStrings] (req : ListingRequest) (i : ℕ) :
    Std.TransCmp (compareShown compareStrings req i) := by
  unfold compareShown
  split_ifs
  · exact transCmp_on (compareValues compareStrings) (shownField i)
  · exact transCmp_on (fun a b => compareValues compareStrings b a) (shownField i)

/-- The listing returns the rows of its page of the routes found, stably sorted by the
field their cells number `i` show. -/
def SortsByShown (req : ListingRequest) (i : ℕ) (routes : List Route) : Prop :=
  ∃ a sorted, listRows c compareStrings req routes = .ok a
    ∧ StableSort (compareShown compareStrings req i) (routes.filter (matchesSearch req)) sorted
    ∧ List.Forall₂
        (fun row r => tableRow c r = .ok row
          ∧ row[i]? = some (some (cellText c (shownField i r))))
        a.aaData ((sorted.drop req.param.iDisplayStart.toNat).take req.param.iDisplayLength.toNat)

/-- A page that ends, of routes with a `CreatedBy`, is answered with their rows. -/
theorem listRows_of_displayed {req : ListingRequest} {routes : List Route}
    {displayed : Enumerable Exception Route}
    (hdisplayed : displayedRoutes compareStrings req routes = .ok displayed)
    (htotal : displayed.Total) (hcreatedBy : ∀ r ∈ displayed.items, r.createdBy ≠ none) :
    ∃ a, listRows c compareStrings req routes = .ok a
      ∧ List.Forall₂ (fun row r => tableRow c r = .ok row) a.aaData displayed.items := by
  have hselect : (displayed.select (tableRow c)).Total := by
    rw [Enumerable.total_select_iff]
    exact ⟨htotal, fun r hr => (tableRow_ok_iff c r).mpr (hcreatedBy r hr)⟩
  have hrows := (Enumerable.toArray_eq_ok_iff _ _).mpr ⟨hselect, rfl⟩
  refine ⟨_, (listRows_eq_ok_iff c compareStrings).mpr ⟨displayed, _, hdisplayed, hrows, rfl⟩, ?_⟩
  exact Enumerable.forall₂_select (tableRow c) displayed hselect

/-- A page of a sort that threw is answered only if nothing is read of it. -/
theorem listRows_throws {req : ListingRequest} {routes : List Route}
    {ordered : Enumerable Exception Route}
    (hordered : orderedRoutes compareStrings req routes = .ok ordered)
    (hends : ¬ ordered.Total) (hnone : ordered.items = []) (hlength : 0 < req.param.iDisplayLength)
    (a : Listing) : listRows c compareStrings req routes ≠ .ok a := by
  intro ha
  obtain ⟨displayed, rows, hdisplayed, hrows, -⟩ := (listRows_eq_ok_iff c compareStrings).mp ha
  rw [displayedRoutes, hordered, ok_bind] at hdisplayed
  have htotal := ((Enumerable.toArray_eq_ok_iff _ _).mp hrows).1
  rw [Enumerable.total_select_iff, ← Except.ok.inj hdisplayed] at htotal
  have hshort : ¬ req.param.iDisplayLength.toNat
      ≤ (ordered.skip req.param.iDisplayStart).items.length := by
    rw [Enumerable.items_skip, hnone, List.drop_nil, List.length_nil]
    omega
  rw [Enumerable.take, if_neg hshort] at htotal
  exact hends htotal.1

/-- A list of routes to be cut, with names and `CreatedBy`, gives the page of it. -/
theorem sortsByShown_of_displayed {req : ListingRequest} {i : ℕ} (hi : i < aoColumns.length)
    {routes sorted : List Route} (hname : ∀ r ∈ routes, r.name ≠ none)
    (hcreatedBy : ∀ r ∈ routes, r.createdBy ≠ none)
    (hsorted : StableSort (compareShown compareStrings req i)
      (routes.filter (matchesSearch req)) sorted)
    {displayed : Enumerable Exception Route}
    (hdisplayed : displayedRoutes compareStrings req routes = .ok displayed)
    (htotal : displayed.Total)
    (hitems : displayed.items
      = (sorted.drop req.param.iDisplayStart.toNat).take req.param.iDisplayLength.toNat) :
    SortsByShown c compareStrings req i routes := by
  have hmem : ∀ r ∈ displayed.items, r ∈ routes := by
    intro r hr
    rw [hitems] at hr
    have hfound := hsorted.perm.mem_iff.mp (List.mem_of_mem_drop (List.mem_of_mem_take hr))
    exact List.mem_of_mem_filter hfound
  obtain ⟨a, ha, hrows⟩ := listRows_of_displayed c compareStrings hdisplayed htotal
    (fun r hr => hcreatedBy r (hmem r hr))
  refine ⟨a, sorted, ha, hsorted, ?_⟩
  rw [← hitems]
  rw [List.forall₂_iff_zip] at hrows ⊢
  refine ⟨hrows.1, fun {row r} hpair => ?_⟩
  have hrow := hrows.2 hpair
  exact ⟨hrow, cell_eq c hrow (hname r (hmem r (List.of_mem_zip hpair).2)) hi⟩

variable [Std.TransCmp compareStrings]

/-- A column whose name is a property sorts by what it shows. -/
theorem sortsByShown_of_property {req : ListingRequest} {i : ℕ} (hreq : SortRequest req i)
    (hi : i < aoColumns.length) {routes : List Route} (hname : ∀ r ∈ routes, r.name ≠ none)
    (hcreatedBy : ∀ r ∈ routes, r.createdBy ≠ none) (hsix : i ≠ 6) (hseven : i ≠ 7) :
    SortsByShown c compareStrings req i routes := by
  have hcolumn := hreq.sortColumn_eq hi
  obtain ⟨hget, hcomparable⟩ := getProperty_aoColumns hi hsix hseven
  have hsort : Sortable req := by
    refine ⟨_, hcolumn, fun name h => ?_⟩
    rw [← Option.some.inj h]
    exact hcomparable
  have hcompare : compareColumn compareStrings req = compareShown compareStrings req i := by
    funext r s
    rw [compareColumn, hcolumn]
    simp only [hget, compareShown]
  have hlist : orderedList compareStrings req routes
      = (routes.filter (matchesSearch req)).mergeSort
          (fun r s => (compareShown compareStrings req i r s).isLE) := by
    rw [orderedList, hcolumn, hcompare]
  have hcut := orderedRoutes_eq compareStrings hsort (fun _ => hname)
  rw [hlist] at hcut
  apply sortsByShown_of_displayed c compareStrings hi hname hcreatedBy (stableSort_mergeSort _ _)
  · rw [displayedRoutes, hcut, ok_bind]
    rfl
  · exact Enumerable.total_take _ _ rfl
  · rw [Enumerable.items_take, Enumerable.items_skip, Enumerable.items_ofList]

/-- A column whose name is none gives a page only where the sort is not read. -/
theorem sortsByShown_updated_iff {req : ListingRequest} {i : ℕ} (hreq : SortRequest req i)
    (hi : i < aoColumns.length) {routes : List Route} (hname : ∀ r ∈ routes, r.name ≠ none)
    (hcreatedBy : ∀ r ∈ routes, r.createdBy ≠ none) (hupdated : i = 6 ∨ i = 7) :
    SortsByShown c compareStrings req i routes ↔
      routes.filter (matchesSearch req) = [] ∨ req.param.iDisplayLength ≤ 0 := by
  have hordered : orderedRoutes compareStrings req routes
      = .ok ((Enumerable.ofList (routes.filter (matchesSearch req))).orderBy
          (orderingFunction aoColumns[i]) (compareObjects compareStrings)
          (req.sSortDir_0 != some "asc")) := by
    rw [orderedRoutes, hreq.sortColumn_eq hi, ok_bind, filteredRoutes_eq (fun _ => hname)]
    rfl
  have hkey : ∀ r, orderingFunction aoColumns[i] r = .error { type := .nullReference } := by
    intro r
    rw [orderingFunction, getProperty_updated hi hupdated]
  constructor
  · -- a route found has no such property, and the sort of the page throws
    rintro ⟨a, -, ha, -⟩
    by_contra hnot
    push Not at hnot
    obtain ⟨r, hr⟩ := List.exists_mem_of_ne_nil _ hnot.1
    obtain ⟨hends, hnone⟩ := Enumerable.orderBy_key_throws (orderingFunction aoColumns[i])
      (compareObjects compareStrings) (req.sSortDir_0 != some "asc")
      (s := Enumerable.ofList (routes.filter (matchesSearch req))) hr (hkey r)
    exact listRows_throws c compareStrings hordered hends hnone hnot.2 a ha
  · -- nothing is sorted, or the sort is never read
    intro hempty
    have hdisplayed : displayedRoutes compareStrings req routes = .ok (.ofList []) := by
      rw [displayedRoutes, hordered, ok_bind]
      rcases hempty with hfound | hlength
      · rw [hfound]
        simp [Enumerable.orderBy, Enumerable.mapUntil, Enumerable.compareAll, Enumerable.take,
          Enumerable.skip, Enumerable.ofList, pure, Except.pure]
      · rw [Enumerable.take, Int.toNat_of_nonpos hlength, if_pos (Nat.zero_le _), List.take_zero]
        rfl
    apply sortsByShown_of_displayed c compareStrings hi hname hcreatedBy
      (stableSort_mergeSort _ _) hdisplayed rfl
    rcases hempty with hfound | hlength
    · rw [hfound]
      simp
    · rw [Int.toNat_of_nonpos hlength, List.take_zero]
      rfl

/-- **A column of the table sorts** by what it shows, except the two of the last
update: these do only if nothing is found or nothing is asked for. -/
theorem sortsByShown_iff {req : ListingRequest} {i : ℕ} (hreq : SortRequest req i)
    (hi : i < aoColumns.length) {routes : List Route} (hname : ∀ r ∈ routes, r.name ≠ none)
    (hcreatedBy : ∀ r ∈ routes, r.createdBy ≠ none) :
    SortsByShown c compareStrings req i routes ↔
      (i ≠ 6 ∧ i ≠ 7) ∨ routes.filter (matchesSearch req) = []
        ∨ req.param.iDisplayLength ≤ 0 := by
  by_cases hproperty : i ≠ 6 ∧ i ≠ 7
  · exact iff_of_true (sortsByShown_of_property c compareStrings hreq hi hname hcreatedBy
      hproperty.1 hproperty.2) (Or.inl hproperty)
  · rw [or_iff_right hproperty]
    exact sortsByShown_updated_iff c compareStrings hreq hi hname hcreatedBy (by omega)

end Sorted

/-- The table sorted by a column, as the view asks for it. -/
def viewRequest (i : Int32) (dir : String) : ListingRequest where
  param := ⟨none, none, 10, 0, some (",".intercalate aoColumns)⟩
  iSortCol_0 := some (int32ToString i)
  sSortDir_0 := some dir

theorem sortRequest_viewRequest {i : Int32} {n : ℕ} (hn : i.toInt = n) {dir : String}
    (hdir : dir ≠ "") : SortRequest (viewRequest i dir) n :=
  ⟨rfl, ⟨int32ToString i, i, rfl, int32Parse_int32ToString i, hn⟩, ⟨dir, rfl, hdir⟩⟩

/-- The table of a seeded route, by distance. -/
theorem sortsByShown_distance :
    SortsByShown exampleCulture compare (viewRequest 1 "desc") 1 [ruta1] :=
  (sortsByShown_iff exampleCulture compare
    (sortRequest_viewRequest (by decide) (by decide)) (by decide) (by decide) (by decide)).mpr
    (Or.inl (by decide))

/-- By its last update the table of a seeded route throws. -/
theorem updated_throws :
    listRows exampleCulture compare (viewRequest 6 "asc") [ruta1]
        = .error { type := .nullReference }
      ∧ ¬ SortsByShown exampleCulture compare (viewRequest 6 "asc") 6 [ruta1] := by
  have hthrown : listRows exampleCulture compare (viewRequest 6 "asc") [ruta1]
      = .error { type := .nullReference } := by rfl
  refine ⟨hthrown, ?_⟩
  rintro ⟨a, -, ha, -⟩
  rw [hthrown] at ha
  exact absurd ha (by simp)

end CgGuide.RoutesColumns
