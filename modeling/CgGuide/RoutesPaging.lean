/-
The route listing, page after page.

Each page of `jQueryDataTablesHandler` is cut from a list that was fetched, searched
and sorted for that request alone. `GetAll` sorts by `Created` and the action, stably,
by the requested column, so what is fixed from request to request is the order by the
column and then by `Created`, latest first (`requestedCompare`); routes that are equal
in both come in whatever order the database gave them. The listing is compared here
with what a client expects of the pages together, whatever that order is each time.

The client asks for pages up to the number of routes the listing reports, which is the
number of live routes, found by the search or not.
-/
import CgGuide.RoutesListing
import CgGuide.Paging

set_option autoImplicit false

namespace CgGuide.RoutesPaging

open CgGuide.DotNet CgGuide.KeyedTable CgGuide.Entities CgGuide.DbContext CgGuide.Repositories
open CgGuide.RoutesService CgGuide.EditForm CgGuide.Deferred CgGuide.RoutesListing CgGuide.Paging

/-! ## Comparing property values -/

section Values

/-- The kind of a value, in the order null is compared by. -/
def kind : PropertyValue → ℕ
  | .null => 0
  | .int _ => 1
  | .string _ => 2
  | .dateTime _ => 3
  | .boolean _ => 4
  | .reference _ => 5

/-- The number a value is compared by. -/
def number : PropertyValue → ℤ
  | .int n => n
  | .dateTime d => d.ticks
  | .boolean b => if b then 1 else 0
  | .reference owner => owner
  | _ => 0

/-- The text a value is compared by. -/
def text : PropertyValue → String
  | .string s => s
  | _ => ""

variable (compareStrings : String → String → Ordering)

/-- An order of all values that agrees with the runtime's where that has one. -/
def compareValues : PropertyValue → PropertyValue → Ordering :=
  compareLex (compareOn kind)
    (compareLex (compareOn number) (fun a b => compareStrings (text a) (text b)))

theorem transCmp_on {α β : Type} (cmp : β → β → Ordering) [Std.TransCmp cmp] (f : α → β) :
    Std.TransCmp (fun a b => cmp (f a) (f b)) where
  eq_swap := Std.OrientedCmp.eq_swap
  isLE_trans := Std.TransCmp.isLE_trans

instance [Std.TransCmp compareStrings] : Std.TransCmp (compareValues compareStrings) :=
  have : Std.TransCmp (fun a b => compareStrings (text a) (text b)) :=
    transCmp_on compareStrings text
  inferInstanceAs (Std.TransCmp (compareLex _ _))

/-- Values of different kinds compare as their kinds, values of one kind as what they
hold. -/
theorem compareValues_eq (a b : PropertyValue) :
    compareValues compareStrings a b = (compare (kind a) (kind b)).then
      ((compare (number a) (number b)).then (compareStrings (text a) (text b))) := rfl

theorem compare_natCast (a b : ℕ) : compare (a : ℤ) (b : ℤ) = compare a b := by
  show compareOfLessAndEq (a : ℤ) (b : ℤ) = compareOfLessAndEq a b
  simp only [compareOfLessAndEq, Int.ofNat_lt, Int.natCast_inj]

/-- **The runtime's comparison**, where it does not throw, is the one of this order. -/
theorem compareObjects_eq [Std.TransCmp compareStrings] {a b : PropertyValue} {o : Ordering}
    (h : compareObjects compareStrings a b = .ok o) : compareValues compareStrings a b = o := by
  have hempty : compareStrings "" "" = .eq := Std.ReflCmp.compare_self
  have hkind : ∀ n : ℕ, compare n n = .eq := fun n => Std.ReflCmp.compare_self
  have hnumber : ∀ n : ℤ, compare n n = .eq := fun n => Std.ReflCmp.compare_self
  rw [compareValues_eq]
  cases a <;> cases b <;> simp only [compareObjects, Except.ok.injEq, reduceCtorEq] at h
  -- two values of one kind: the kinds are equal, and only one of the other two counts
  case int.int a b => simpa [kind, number, text, hempty, hkind] using h
  case string.string a b => simpa [kind, number, text, hkind, hnumber] using h
  case dateTime.dateTime a b =>
    simpa [kind, number, text, hempty, hkind, compare_natCast] using h
  case boolean.boolean a b =>
    rw [← h]
    cases a <;> cases b <;> simp [kind, number, text, hempty] <;> rfl
  case reference.reference a b =>
    split_ifs at h with hab
    rw [Except.ok.injEq] at h
    simp [kind, number, text, hempty, hab, ← h]
  -- one of them null: the kinds decide
  all_goals first | exact h | simp [kind, number, text, hempty, ← h]

end Values

/-! ## The order of a request -/

section Order

variable (compareStrings : String → String → Ordering)

/-- The latest first. -/
def compareCreated (r s : Route) : Ordering := compare s.created.ticks r.created.ticks

theorem isLE_compareCreated (r s : Route) :
    (compareCreated r s).isLE = decide (s.created ≤ r.created) := by
  rw [Bool.eq_iff_iff, decide_eq_true_eq, compareCreated, Nat.isLE_compare]
  exact Iff.rfl

/-- The order by the column of the request; without one, or with a name `Route` does
not have, all routes are equal. -/
def compareColumn (req : ListingRequest) (r s : Route) : Ordering :=
  match sortColumn req with
  | .ok (some columnName) =>
    match getProperty columnName with
    | some get =>
      if req.sSortDir_0 = some "asc" then compareValues compareStrings (get r) (get s)
      else compareValues compareStrings (get s) (get r)
    | none => .eq
  | _ => .eq

/-- The order by the column and then by `Created`. -/
def requestedCompare (req : ListingRequest) : Route → Route → Ordering :=
  compareLex (compareColumn compareStrings req) compareCreated

instance : Std.TransCmp compareCreated :=
  transCmp_on (fun a b : ℕ => compare b a) (fun r : Route => r.created.ticks)

instance [Std.TransCmp compareStrings] (req : ListingRequest) :
    Std.TransCmp (compareColumn compareStrings req) := by
  have hequal : Std.TransCmp (fun _ _ : Route => Ordering.eq) :=
    { eq_swap := rfl, isLE_trans := fun _ _ => rfl }
  unfold compareColumn
  cases sortColumn req with
  | error e => exact hequal
  | ok column =>
    cases column with
    | none => exact hequal
    | some columnName =>
      dsimp only
      cases getProperty columnName with
      | none => exact hequal
      | some get =>
        dsimp only
        split_ifs
        · exact transCmp_on (compareValues compareStrings) get
        · exact transCmp_on (fun a b => compareValues compareStrings b a) get

instance [Std.TransCmp compareStrings] (req : ListingRequest) :
    Std.TransCmp (requestedCompare compareStrings req) :=
  inferInstanceAs (Std.TransCmp (compareLex _ _))

/-! ## What a request is cut from -/

/-- The routes of a request in the order in which the pages are cut. -/
def orderedList (req : ListingRequest) (routes : List Route) : List Route :=
  match sortColumn req with
  | .ok (some _) => (routes.filter (matchesSearch req)).mergeSort
      (fun r s => (compareColumn compareStrings req r s).isLE)
  | _ => routes.filter (matchesSearch req)

/-- The order `OrderBy` sorts by. -/
theorem leBy_eq [Std.TransCmp compareStrings] {req : ListingRequest} {columnName : String}
    {get : Route → PropertyValue} (hcolumn : sortColumn req = .ok (some columnName))
    (hget : getProperty columnName = some get) {r s : Route} {o : Ordering}
    (ho : compareObjects compareStrings (get r) (get s) = .ok o) :
    Enumerable.leBy (compareObjects compareStrings) (req.sSortDir_0 != some "asc") (r, get r)
        (s, get s)
      = (compareColumn compareStrings req r s).isLE := by
  have hvalues := compareObjects_eq compareStrings ho
  have hswap : compareValues compareStrings (get s) (get r) = o.swap := by
    rw [← hvalues]
    exact Std.OrientedCmp.eq_swap
  rw [compareColumn, hcolumn, Enumerable.leBy, ho]
  dsimp only
  rw [hget]
  dsimp only
  -- descending, `OrderByDescending` compares the keys the other way
  by_cases hasc : req.sSortDir_0 = some "asc"
  · rw [if_pos hasc, hasc, hvalues]
    cases o <;> rfl
  · rw [if_neg hasc, hswap, bne_iff_ne.mpr hasc]
    cases o <;> rfl

/-- **The stages before the cut** yield that list. -/
theorem orderedRoutes_eq [Std.TransCmp compareStrings] {req : ListingRequest}
    (hsort : Sortable req) {routes : List Route} (h : Searchable req routes) :
    orderedRoutes compareStrings req routes
      = .ok (.ofList (orderedList compareStrings req routes)) := by
  obtain ⟨col, hcol, hcomp⟩ := hsort
  rw [orderedRoutes, hcol, ok_bind, filteredRoutes_eq h, orderedList, hcol]
  cases col with
  | none => rfl
  | some columnName =>
    obtain ⟨get, hget, hcmp⟩ := comparable_getProperty compareStrings (hcomp columnName rfl)
    have hsorted := Enumerable.orderBy_eq (orderingFunction columnName) get
      (compareObjects compareStrings) (req.sSortDir_0 != some "asc")
      (Enumerable.ofList (routes.filter (matchesSearch req))) (Enumerable.total_ofList _)
      (fun r _ => by rw [orderingFunction, hget]) (fun r _ s _ => hcmp r s)
    dsimp only
    rw [hsorted]
    have hle : (fun r s => Enumerable.leBy (compareObjects compareStrings)
        (req.sSortDir_0 != some "asc") (r, get r) (s, get s))
        = fun r s => (compareColumn compareStrings req r s).isLE := by
      funext r s
      obtain ⟨o, ho⟩ := hcmp r s
      exact leBy_eq compareStrings hcol hget ho
    rw [hle]
    rfl

/-- A search that meets a route without a name throws before the end. -/
theorem filteredRoutes_throws {req : ListingRequest} {routes : List Route}
    (h : ¬ Searchable req routes) :
    ¬ (filteredRoutes req routes).Total
      ∧ (filteredRoutes req routes).items.length < routes.length := by
  rw [Searchable] at h
  push Not at h
  obtain ⟨hnonempty, r, hr, hname⟩ := h
  unfold filteredRoutes
  cases hsearch : req.param.sSearch with
  | none =>
    rw [hsearch] at hnonempty
    exact absurd hnonempty (by decide)
  | some sSearch =>
    have hne : sSearch ≠ "" := by
      rintro rfl
      rw [hsearch] at hnonempty
      exact absurd hnonempty (by decide)
    have hnull : searchName sSearch r = .error { type := .nullReference } := by
      rw [searchName, hname]
    obtain ⟨hends, hshort⟩ := Enumerable.filterUntil_throws (searchName sSearch) hr hnull
    simp only [if_neg hne]
    refine ⟨fun htotal => hends ?_, hshort⟩
    rw [Enumerable.Total, Enumerable.where', Enumerable.thenEnds, Option.or_eq_none_iff] at htotal
    exact htotal.1

/-- So does a sort, before its first element. -/
theorem orderedRoutes_throws {req : ListingRequest} (hsort : Sortable req) {routes : List Route}
    (h : ¬ Searchable req routes) :
    ∃ ordered, orderedRoutes compareStrings req routes = .ok ordered ∧ ¬ ordered.Total
      ∧ ordered.items.length < routes.length := by
  have hthrows := filteredRoutes_throws h
  obtain ⟨column, hcolumn, -⟩ := hsort
  rw [orderedRoutes, hcolumn, ok_bind]
  cases column with
  | none => exact ⟨_, rfl, hthrows⟩
  | some columnName =>
    obtain ⟨hends, hnone⟩ := Enumerable.orderBy_throws (orderingFunction columnName)
      (compareObjects compareStrings) (req.sSortDir_0 != some "asc") hthrows.1
    refine ⟨_, rfl, hends, ?_⟩
    rw [hnone, List.length_nil]
    exact Nat.zero_lt_of_lt hthrows.2

theorem orderedList_perm (req : ListingRequest) (routes : List Route) :
    (orderedList compareStrings req routes).Perm (routes.filter (matchesSearch req)) := by
  unfold orderedList
  split
  · exact List.mergeSort_perm _ _
  · exact List.Perm.refl _

/-- **The list is in the requested order** if the routes came latest first. -/
theorem orderedList_sorted [Std.TransCmp compareStrings] (req : ListingRequest)
    {routes : List Route} (h : Sorted compareCreated routes) :
    Sorted (requestedCompare compareStrings req) (orderedList compareStrings req routes) := by
  have hfiltered : Sorted compareCreated (routes.filter (matchesSearch req)) :=
    h.sublist List.filter_sublist
  unfold orderedList
  split
  · exact sorted_mergeSort (compareColumn compareStrings req) compareCreated hfiltered
  · -- without a column the first comparison decides nothing
    next hnone =>
    have hequal : ∀ r s, compareColumn compareStrings req r s = .eq := by
      intro r s
      rw [compareColumn]
      split
      · next columnName hcolumn => exact absurd hcolumn (hnone columnName)
      · rfl
    refine hfiltered.imp (fun {r s} hrs => ?_)
    rw [requestedCompare, compareLex, hequal]
    exact hrs

/-- Routes that are exchanged for equal ones are listed in their places. -/
theorem orderedList_map {req : ListingRequest} {f : Route → Route}
    (hmatches : ∀ r, matchesSearch req (f r) = matchesSearch req r)
    (hcolumn : ∀ r s, compareColumn compareStrings req (f r) (f s)
      = compareColumn compareStrings req r s) (routes : List Route) :
    orderedList compareStrings req (routes.map f)
      = (orderedList compareStrings req routes).map f := by
  have hfilter : (routes.map f).filter (matchesSearch req)
      = (routes.filter (matchesSearch req)).map f := by
    rw [List.filter_map]
    congr 1
    exact List.filter_congr (fun r _ => hmatches r)
  unfold orderedList
  split
  · rw [hfilter]
    exact (List.map_mergeSort (fun r _ s _ => by rw [hcolumn])).symm
  · exact hfilter

end Order

/-! ## A sequence of requests -/

section Pages

variable (c : Culture) (compareStrings : String → String → Ordering)

/-- The request for the page number `k`. -/
def pageRequest (req : ListingRequest) (size k : ℕ) : ListingRequest :=
  { req with param := { req.param with
      iDisplayStart := (k * size : ℕ)
      iDisplayLength := size } }

/-- The routes the listing is to show. -/
def found (t : RouteTable) (req : ListingRequest) : List Route :=
  (GenericUpdatableRepository.live t).filter (matchesSearch req)

/-- The pages up to `iTotalDisplayRecords`. -/
def pageCount (t : RouteTable) (size : ℕ) : ℕ :=
  ((GenericUpdatableRepository.live t).length + size - 1) / size

/-- The request is answered with a row for each of these routes, the ones it was cut
to. -/
def Shows (t : RouteTable) (o : RowOrder Route) (req : ListingRequest) (shown : List Route) :
    Prop :=
  ∃ routes displayed a, getAllRoutes t o = .ok routes
    ∧ displayedRoutes compareStrings req routes = .ok displayed ∧ displayed.items = shown
    ∧ jQueryDataTablesHandler c compareStrings t o req = .ok a
    ∧ List.Forall₂ (fun row r => tableRow c r = .ok row) a.aaData shown

/-- Whatever order the database gives for each request, every page is answered, and
the pages together show every route once and in the requested order. -/
def ShowsAll (t : RouteTable) (req : ListingRequest) (size : ℕ) : Prop :=
  ∀ os : ℕ → RowOrder Route, ∃ shown : ℕ → List Route,
    (∀ k < pageCount t size, Shows c compareStrings t (os k) (pageRequest req size k) (shown k))
      ∧ ((List.range (pageCount t size)).flatMap shown).Perm (found t req)
      ∧ Sorted (requestedCompare compareStrings req)
          ((List.range (pageCount t size)).flatMap shown)

/-- What the table must be for that: there are names to search, the routes found have
the text a row cannot do without, and no two of them that are equal in the requested
order lie on different pages. -/
structure Pageable (t : RouteTable) (req : ListingRequest) (size : ℕ) : Prop where
  searchable : Searchable req (GenericUpdatableRepository.live t)
  createdBy : ∀ r ∈ found t req, r.createdBy ≠ none
  onOnePage : ∀ r ∈ found t req,
    OnOnePage (requestedCompare compareStrings req) size (found t req) r

/-- What `GetAll` returns. -/
def fetched (t : RouteTable) (o : RowOrder Route) : List Route :=
  RoutesRepository.orderByDescendingCreated (o.arrange (GenericUpdatableRepository.live t))

theorem fetched_perm (t : RouteTable) (o : RowOrder Route) :
    (fetched t o).Perm (GenericUpdatableRepository.live t) :=
  (List.mergeSort_perm _ _).trans (arrange_live_perm t o)

theorem fetched_sorted (t : RouteTable) (o : RowOrder Route) :
    Sorted compareCreated (fetched t o) := by
  refine (orderByDescendingCreated_sorted _).imp (fun {r s} hrs => ?_)
  rw [isLE_compareCreated]
  exact decide_eq_true hrs

/-- What the pages are cut from. -/
theorem listed_perm (t : RouteTable) (o : RowOrder Route) (req : ListingRequest) :
    (orderedList compareStrings req (fetched t o)).Perm (found t req) :=
  (orderedList_perm compareStrings req _).trans ((fetched_perm t o).filter _)

theorem found_nodup (t : RouteTable) (req : ListingRequest) : (found t req).Nodup :=
  (live_ids_nodup t).of_map.filter _

theorem found_length_le (t : RouteTable) (req : ListingRequest) {size : ℕ} (hsize : 0 < size) :
    (GenericUpdatableRepository.live t).length ≤ pageCount t size * size
      ∧ (found t req).length ≤ pageCount t size * size := by
  have hlive : (GenericUpdatableRepository.live t).length ≤ pageCount t size * size := by
    rw [pageCount]
    have hdiv := Nat.lt_div_mul_add hsize
      (a := (GenericUpdatableRepository.live t).length + size - 1)
    omega
  exact ⟨hlive, (List.length_filter_le _ _).trans hlive⟩

/-! ## One page -/

/-- The handler answers when the stages end, with what they end in. -/
theorem listRows_eq_ok_iff {req : ListingRequest} {routes : List Route} {a : Listing} :
    listRows c compareStrings req routes = .ok a ↔
      ∃ displayed rows, displayedRoutes compareStrings req routes = .ok displayed
        ∧ (displayed.select (tableRow c)).toArray = .ok rows
        ∧ a = ⟨req.param.sEcho, routes.length, routes.length, rows⟩ := by
  rw [listRows]
  cases displayedRoutes compareStrings req routes with
  | error e => simp
  | ok displayed =>
    rw [ok_bind]
    cases hrows : (displayed.select (tableRow c)).toArray with
    | error e => simp [hrows]
    | ok rows => simp [hrows, pure, Except.pure, eq_comm]

/-- A request is answered, with the rows of what it was cut to, when the cut ends and
every route of it has a row. -/
theorem shows_iff {t : RouteTable} {o : RowOrder Route} {req : ListingRequest}
    {shown : List Route} :
    Shows c compareStrings t o req shown ↔
      ∃ displayed, displayedRoutes compareStrings req (fetched t o) = .ok displayed
        ∧ displayed.Total ∧ displayed.items = shown ∧ ∀ r ∈ shown, r.createdBy ≠ none := by
  have hroutes : getAllRoutes t o = .ok (fetched t o) := getAllRoutes_eq t o
  have hhandler : jQueryDataTablesHandler c compareStrings t o req
      = listRows c compareStrings req (fetched t o) := by
    rw [jQueryDataTablesHandler, hroutes, ok_bind]
  rw [Shows]
  constructor
  · rintro ⟨routes, displayed, a, hfetched, hdisplayed, rfl, ha, -⟩
    rw [hroutes, Except.ok.injEq] at hfetched
    subst hfetched
    rw [hhandler, listRows_eq_ok_iff] at ha
    obtain ⟨displayed', rows, hdisplayed', hrows, -⟩ := ha
    rw [hdisplayed, Except.ok.injEq] at hdisplayed'
    subst hdisplayed'
    have htotal := ((Enumerable.toArray_eq_ok_iff _ _).mp hrows).1
    rw [Enumerable.total_select_iff] at htotal
    exact ⟨displayed, hdisplayed, htotal.1, rfl,
      fun r hr => (tableRow_ok_iff c r).mp (htotal.2 r hr)⟩
  · rintro ⟨displayed, hdisplayed, htotal, rfl, hcreatedBy⟩
    have hselect : (displayed.select (tableRow c)).Total := by
      rw [Enumerable.total_select_iff]
      exact ⟨htotal, fun r hr => (tableRow_ok_iff c r).mpr (hcreatedBy r hr)⟩
    have hrows := (Enumerable.toArray_eq_ok_iff _ _).mpr ⟨hselect, rfl⟩
    refine ⟨fetched t o, displayed, ⟨req.param.sEcho, (fetched t o).length, (fetched t o).length,
      (displayed.select (tableRow c)).items⟩, hroutes, hdisplayed, rfl, ?_,
      Enumerable.forall₂_select (tableRow c) displayed hselect⟩
    rw [hhandler, listRows_eq_ok_iff]
    exact ⟨displayed, _, hdisplayed, hrows, rfl⟩

variable [Std.TransCmp compareStrings]

/-- **A page of a searchable table** is cut from the ordered list. -/
theorem shows_page_iff {t : RouteTable} {o : RowOrder Route} {req : ListingRequest} {size k : ℕ}
    (hsort : Sortable req) (hsearch : Searchable req (GenericUpdatableRepository.live t))
    {shown : List Route} :
    Shows c compareStrings t o (pageRequest req size k) shown ↔
      shown = page size k (orderedList compareStrings req (fetched t o))
        ∧ ∀ r ∈ shown, r.createdBy ≠ none := by
  have hfetched : Searchable (pageRequest req size k) (fetched t o) :=
    fun hnonempty r hr => hsearch hnonempty r ((fetched_perm t o).mem_iff.mp hr)
  -- the page changes neither the search nor the order
  have hsort' : Sortable (pageRequest req size k) := hsort
  have hdisplayed : displayedRoutes compareStrings (pageRequest req size k) (fetched t o)
      = .ok (((Enumerable.ofList (orderedList compareStrings req (fetched t o))).skip
          (k * size : ℕ)).take size) := by
    rw [displayedRoutes, orderedRoutes_eq compareStrings hsort' hfetched, ok_bind]
    rfl
  have hitems : (((Enumerable.ofList (orderedList compareStrings req (fetched t o))
      : Enumerable Exception Route).skip (k * size : ℕ)).take size).items
        = page size k (orderedList compareStrings req (fetched t o)) := by
    rw [Enumerable.items_take, Enumerable.items_skip, Enumerable.items_ofList,
      Int.toNat_natCast, Int.toNat_natCast, page]
  rw [shows_iff, hdisplayed]
  constructor
  · rintro ⟨displayed, hcut, -, hshown, hcreatedBy⟩
    rw [Except.ok.injEq] at hcut
    subst hcut
    exact ⟨hshown.symm.trans hitems, hcreatedBy⟩
  · rintro ⟨rfl, hcreatedBy⟩
    exact ⟨_, rfl, Enumerable.total_take _ _ rfl, hitems, hcreatedBy⟩

omit [Std.TransCmp compareStrings] in
/-- **The last page of a table that is not searchable** is not answered: its cut is not
filled before the search throws. -/
theorem not_shows_of_not_searchable {t : RouteTable} {req : ListingRequest} {size : ℕ}
    (hsize : 0 < size) (hsort : Sortable req)
    (hsearch : ¬ Searchable req (GenericUpdatableRepository.live t)) :
    ∃ k < pageCount t size, ∀ o shown,
      ¬ Shows c compareStrings t o (pageRequest req size k) shown := by
  have hlength := (found_length_le t req hsize).1
  have hlive : 0 < (GenericUpdatableRepository.live t).length := by
    rw [List.length_pos_iff]
    rintro hnil
    rw [hnil] at hsearch
    exact hsearch (fun _ r hr => absurd hr List.not_mem_nil)
  obtain ⟨k, hk⟩ : ∃ k, pageCount t size = k + 1 := by
    apply Nat.exists_eq_succ_of_ne_zero
    rintro hzero
    rw [hzero] at hlength
    omega
  refine ⟨k, by omega, fun o shown => ?_⟩
  have hfetched : ¬ Searchable (pageRequest req size k) (fetched t o) :=
    fun h => hsearch (fun hnonempty r hr =>
      h hnonempty r ((fetched_perm t o).mem_iff.mpr hr))
  have hsort' : Sortable (pageRequest req size k) := hsort
  obtain ⟨ordered, hordered, hends, hshort⟩ :=
    orderedRoutes_throws compareStrings hsort' hfetched
  rw [shows_iff, displayedRoutes, hordered, ok_bind]
  rintro ⟨displayed, hcut, htotal, -⟩
  rw [← Except.ok.inj hcut] at htotal
  refine Enumerable.not_total_take_skip hends ?_ hsize htotal
  rw [(fetched_perm t o).length_eq] at hshort
  rw [hk, Nat.succ_mul] at hlength
  omega

/-! ## All pages -/

/-- **The pages of a pageable table** show every route found once and in order. -/
theorem showsAll_of_pageable {t : RouteTable} {req : ListingRequest} {size : ℕ} (hsize : 0 < size)
    (hsort : Sortable req) (h : Pageable compareStrings t req size) :
    ShowsAll c compareStrings t req size := by
  intro os
  have hsorted : ∀ k, Sorted (requestedCompare compareStrings req)
      (orderedList compareStrings req (fetched t (os k))) :=
    fun k => orderedList_sorted compareStrings req (fetched_sorted t (os k))
  have hperm : ∀ k, (orderedList compareStrings req (fetched t (os k))).Perm (found t req) :=
    fun k => listed_perm compareStrings t (os k) req
  refine ⟨fun k => page size k (orderedList compareStrings req (fetched t (os k))), ?_, ?_, ?_⟩
  · intro k hk
    rw [shows_page_iff c compareStrings hsort h.searchable]
    refine ⟨rfl, fun r hr => h.createdBy r ?_⟩
    rw [← (hperm k).mem_iff]
    exact List.mem_of_mem_drop (List.mem_of_mem_take hr)
  · exact flatMap_page_perm (requestedCompare compareStrings req) hsize
      (found_length_le t req hsize).2 h.onOnePage hsorted hperm
  · exact flatMap_page_sorted (requestedCompare compareStrings req) hsize h.onOnePage hsorted
      hperm _

/-- The engine that meets two of the live routes in each other's place. -/
def exchanging (t : RouteTable) {u v : Route}
    (hu : u ∈ GenericUpdatableRepository.live t) (hv : v ∈ GenericUpdatableRepository.live t) :
    RowOrder Route where
  arrange rows :=
    if rows = GenericUpdatableRepository.live t then rows.map (Equiv.swap u v) else rows
  arrange_perm rows := by
    split_ifs with hrows
    · subst hrows
      exact map_swap_perm (live_ids_nodup t).of_map hu hv
    · exact List.Perm.refl rows

/-- Two routes found that are equal in the requested order change places in the list. -/
theorem orderedList_exchanging {t : RouteTable} {req : ListingRequest} {u v : Route}
    (hu : u ∈ found t req) (hv : v ∈ found t req)
    (huv : requestedCompare compareStrings req u v = .eq) :
    orderedList compareStrings req (fetched t (exchanging t (List.mem_of_mem_filter hu)
        (List.mem_of_mem_filter hv)))
      = (orderedList compareStrings req (fetched t .stored)).map (Equiv.swap u v) := by
  rw [requestedCompare, compareLex, Ordering.then_eq_eq] at huv
  obtain ⟨hcolumn, hcreated⟩ := huv
  rw [found, List.mem_filter] at hu hv
  -- the order by `Created` does not tell them apart, nor does the one by the column
  have hfetched : fetched t (exchanging t hu.1 hv.1)
      = (fetched t .stored).map (Equiv.swap u v) := by
    have harrange : (exchanging t hu.1 hv.1).arrange (GenericUpdatableRepository.live t)
        = (GenericUpdatableRepository.live t).map (Equiv.swap u v) := if_pos rfl
    rw [fetched, harrange]
    symm
    apply List.map_mergeSort
    intro r _ s _
    rw [← isLE_compareCreated, ← isLE_compareCreated, cmp_swap compareCreated hcreated]
  rw [hfetched]
  refine orderedList_map compareStrings (fun r => ?_)
    (cmp_swap (compareColumn compareStrings req) hcolumn) _
  rw [Equiv.swap_apply_def]
  split_ifs with hru hrv
  · rw [hru, hu.2, hv.2]
  · rw [hrv, hu.2, hv.2]
  · rfl

/-- **Two equal routes on different pages** can be given to the pages so that one is on
both. -/
theorem onOnePage_of_showsAll {t : RouteTable} {req : ListingRequest} {size : ℕ}
    (hsize : 0 < size) (hsort : Sortable req)
    (hsearch : Searchable req (GenericUpdatableRepository.live t))
    (h : ShowsAll c compareStrings t req size) :
    ∀ r ∈ found t req, OnOnePage (requestedCompare compareStrings req) size (found t req) r := by
  intro r hr
  by_contra hdivided
  have hperm := listed_perm compareStrings t .stored req
  have hsorted := orderedList_sorted compareStrings req (fetched_sorted t .stored)
  obtain ⟨k, u, v, hcut, hu, hv, huv⟩ := exists_cut (requestedCompare compareStrings req) hsize
    hsorted hperm hr hdivided
  have hufound : u ∈ found t req :=
    hperm.mem_iff.mp (List.mem_of_mem_drop (List.mem_of_mem_take hu))
  have hvfound : v ∈ found t req :=
    hperm.mem_iff.mp (List.mem_of_mem_drop (List.mem_of_mem_take hv))
  -- the two routes change places before the second page is asked for
  have hexchanged := orderedList_exchanging compareStrings hufound hvfound huv
  obtain ⟨shown, hshown, hall, -⟩ := h (fun j => if j = k + 1 then
    exchanging t (List.mem_of_mem_filter hufound) (List.mem_of_mem_filter hvfound) else .stored)
  -- both pages are asked for
  have hcount : k + 1 < pageCount t size := by
    have hlength := (found_length_le t req hsize).2
    exact Nat.lt_of_mul_lt_mul_right (lt_of_lt_of_le hcut hlength)
  have hpage : u ∈ shown k := by
    have hk := hshown k (by omega)
    rw [if_neg (Nat.ne_of_lt (Nat.lt_succ_self k)), shows_page_iff c compareStrings hsort hsearch]
      at hk
    rw [hk.1]
    exact hu
  have hpage' : u ∈ shown (k + 1) := by
    have hk := hshown (k + 1) hcount
    rw [if_pos rfl, shows_page_iff c compareStrings hsort hsearch, hexchanged, page_map] at hk
    rw [hk.1, List.mem_map]
    exact ⟨v, hv, Equiv.swap_apply_right u v⟩
  apply not_nodup_of_mem (Nat.lt_succ_self k) hcount hpage hpage'
  rw [hall.nodup_iff]
  exact found_nodup t req

/-- **The listing shows every route once, whatever the database does**, exactly when the
table is pageable for the request. -/
theorem showsAll_iff {t : RouteTable} {req : ListingRequest} {size : ℕ} (hsize : 0 < size)
    (hsort : Sortable req) :
    ShowsAll c compareStrings t req size ↔ Pageable compareStrings t req size := by
  constructor
  · intro h
    have hsearch : Searchable req (GenericUpdatableRepository.live t) := by
      by_contra hnot
      obtain ⟨k, hk, hnone⟩ := not_shows_of_not_searchable c compareStrings hsize hsort hnot
      obtain ⟨shown, hshown, -⟩ := h (fun _ => .stored)
      exact hnone _ _ (hshown k hk)
    refine ⟨hsearch, fun r hr => ?_, onOnePage_of_showsAll c compareStrings hsize hsort hsearch h⟩
    obtain ⟨shown, hshown, hall, -⟩ := h (fun _ => .stored)
    obtain ⟨k, hk, hrk⟩ := List.mem_flatMap.mp (hall.mem_iff.mpr hr)
    obtain ⟨-, -, -, -, hcreatedBy⟩ := (shows_iff c compareStrings).mp
      (hshown k (List.mem_range.mp hk))
    exact hcreatedBy r hrk
  · exact showsAll_of_pageable c compareStrings hsize hsort

end Pages

/-- The rows sorted by the second of two columns. -/
def byDistance : ListingRequest where
  param := ⟨none, none, 10, 0, some "Name,Distance"⟩
  iSortCol_0 := some "1"
  sSortDir_0 := some "asc"

theorem sortable_byDistance : Sortable byDistance :=
  ⟨some "Distance", by decide, fun _ h => by rw [← Option.some.inj h]; decide⟩

/-- The seeded routes by distance, one on a page. -/
theorem showsAll_byDistance : ShowsAll exampleCulture compare seedTable byDistance 1 :=
  (showsAll_iff exampleCulture compare (by decide) sortable_byDistance).mpr
    ⟨fun h => absurd h (by decide), by decide, by decide⟩

/-- Without a column the seeded routes are equal, and one of them can be shown twice. -/
theorem equal_created_repeated :
    ¬ ∀ (t : RouteTable) (req : ListingRequest) (size : ℕ), 0 < size → Sortable req →
      ShowsAll exampleCulture compare t req size := by
  intro h
  have hdivided := onOnePage_of_showsAll exampleCulture compare Nat.one_pos (sortable_firstRows 1)
    (fun hsearch => absurd hsearch (by decide))
    (h seedTable (firstRows 1) 1 Nat.one_pos (sortable_firstRows 1)) ruta1 (by decide)
  exact absurd hdivided (by decide)

end CgGuide.RoutesPaging
