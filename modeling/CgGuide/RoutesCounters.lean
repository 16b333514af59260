/-
The counters of the route listing.

The table's pager is driven by the two counts of an answer: the routes there are and
the routes the search found. The action counts the list it started from for both, so
the second is right only when the search found everything. The rows come from the
filtered list: on a page inside the found routes there are as many as the page is long
or as are left (`listRows_length`), if the page is answered at all. `countersAgree_iff`
is what the counters need of the routes and of the request.
-/
import CgGuide.RoutesColumns

set_option autoImplicit false

namespace CgGuide.RoutesCounters

open CgGuide.DotNet CgGuide.KeyedTable CgGuide.Entities CgGuide.DbContext CgGuide.RoutesService
open CgGuide.EditForm CgGuide.Deferred CgGuide.RoutesListing CgGuide.RoutesPaging
open CgGuide.RoutesColumns

section Counters

variable (c : Culture) (compareStrings : String → String → Ordering)

/-- The request for the page from `start` on. -/
def startingAt (req : ListingRequest) (start : ℤ) : ListingRequest :=
  { req with param := { req.param with iDisplayStart := start } }

/-- The counters of an answer are those of the routes there are and of the routes found;
the page has the rows they promise, and every page they offer is answered with rows. -/
structure Counts (req : ListingRequest) (routes : List Route) (a : Listing) : Prop where
  total : a.iTotalRecords = routes.length
  displayed : a.iTotalDisplayRecords = (routes.filter (matchesSearch req)).length
  rows : 0 ≤ req.param.iDisplayStart → req.param.iDisplayStart < a.iTotalDisplayRecords →
    0 < req.param.iDisplayLength →
    (a.aaData.length : ℤ)
      = min req.param.iDisplayLength (a.iTotalDisplayRecords - req.param.iDisplayStart)
  pages : ∀ k : ℕ, 0 < req.param.iDisplayLength →
    k * req.param.iDisplayLength < a.iTotalDisplayRecords →
    ∃ a', listRows c compareStrings (startingAt req (k * req.param.iDisplayLength)) routes = .ok a'
      ∧ a'.aaData ≠ []

/-- The request is answered, and the counters agree with the rows. -/
def CountersAgree (req : ListingRequest) (routes : List Route) : Prop :=
  ∃ a, listRows c compareStrings req routes = .ok a ∧ Counts c compareStrings req routes a

/-- `Route` has a property of this name, and the routes compare by it. -/
def ComparesBy (columnName : String) (routes : List Route) : Prop :=
  ∃ get, getProperty columnName = some get
    ∧ routes.Pairwise (fun r s => ∃ o, compareObjects compareStrings (get r) (get s) = .ok o)

/-- Every route passes the search, the column of the sort has a name, and where rows are
asked for, the routes compare by it and have a `CreatedBy`. -/
structure Complete (req : ListingRequest) (routes : List Route) : Prop where
  found : ∀ r ∈ routes, matchesSearch req r = true
  column : ∃ column, sortColumn req = .ok column
    ∧ (0 < req.param.iDisplayLength → routes ≠ [] →
      ∀ columnName, column = some columnName → ComparesBy compareStrings columnName routes)
  createdBy : 0 < req.param.iDisplayLength → ∀ r ∈ routes, r.createdBy ≠ none

/-- The search and the sort end with the routes found, or the sort throws before its
first. -/
theorem orderedRoutes_cases {req : ListingRequest} {routes : List Route}
    (hsearch : Searchable req routes) {ordered : Enumerable Exception Route}
    (h : orderedRoutes compareStrings req routes = .ok ordered) :
    ordered.Total ∧ ordered.items.Perm (routes.filter (matchesSearch req))
      ∨ ¬ ordered.Total ∧ ordered.items = [] := by
  rw [orderedRoutes, filteredRoutes_eq hsearch] at h
  cases hcolumn : sortColumn req with
  | error e =>
    rw [hcolumn, error_bind] at h
    exact absurd h (by simp)
  | ok column =>
    rw [hcolumn, ok_bind] at h
    cases column with
    | none =>
      rw [← Except.ok.inj h]
      exact Or.inl ⟨rfl, List.Perm.refl _⟩
    | some columnName =>
      rw [← Except.ok.inj h]
      exact Enumerable.orderBy_total _ _ _ _

/-- **The rows of an answer**: the length of the page, or what is left of the routes
found behind its start. -/
theorem listRows_length {req : ListingRequest} {routes : List Route} {a : Listing}
    (ha : listRows c compareStrings req routes = .ok a) (hsearch : Searchable req routes)
    (hlength : 0 < req.param.iDisplayLength) :
    a.aaData.length = min req.param.iDisplayLength.toNat
      ((routes.filter (matchesSearch req)).length - req.param.iDisplayStart.toNat) := by
  obtain ⟨displayed, rows, hdisplayed, hrows, heq⟩ :=
    (listRows_eq_ok_iff c compareStrings).mp ha
  obtain ⟨hselect, hitems⟩ := (Enumerable.toArray_eq_ok_iff _ _).mp hrows
  have hcount : a.aaData.length = displayed.items.length := by
    rw [heq, ← hitems]
    exact (Enumerable.forall₂_select (tableRow c) displayed hselect).length_eq
  cases hordered : orderedRoutes compareStrings req routes with
  | error e =>
    rw [displayedRoutes, hordered, error_bind] at hdisplayed
    exact absurd hdisplayed (by simp)
  | ok ordered =>
    rcases orderedRoutes_cases compareStrings hsearch hordered with ⟨-, hperm⟩ | ⟨hends, hnone⟩
    · rw [displayedRoutes, hordered, ok_bind] at hdisplayed
      rw [hcount, ← Except.ok.inj hdisplayed, Enumerable.items_take, Enumerable.items_skip,
        List.length_take, List.length_drop, hperm.length_eq]
    · exact absurd ha (listRows_throws c compareStrings hordered hends hnone hlength a)

/-- A search finds no route without a name. -/
theorem name_of_matchesSearch {req : ListingRequest} {r : Route}
    (hnonempty : isNullOrEmpty req.param.sSearch = false) (h : matchesSearch req r = true) :
    r.name ≠ none := by
  intro hname
  unfold matchesSearch at h
  cases hsearch : req.param.sSearch with
  | none => simp [hsearch] at hnonempty
  | some sSearch =>
    rw [hsearch] at h hnonempty
    have hne : sSearch ≠ "" := by simpa using hnonempty
    simp only [if_neg hne, hname, Option.getD_none, contains, decide_eq_true_eq] at h
    have hnil := List.eq_nil_of_infix_nil h
    exact hne (String.toList_inj.mp (by rw [hnil]; rfl))

/-- An answer was cut from routes that were searched and sorted. -/
theorem exists_ordered {req : ListingRequest} {routes : List Route} {a : Listing}
    (ha : listRows c compareStrings req routes = .ok a) :
    (a.iTotalRecords = routes.length ∧ a.iTotalDisplayRecords = routes.length)
      ∧ ∃ ordered, orderedRoutes compareStrings req routes = .ok ordered
        ∧ ∀ r ∈ (ordered.items.drop req.param.iDisplayStart.toNat).take
            req.param.iDisplayLength.toNat, r.createdBy ≠ none := by
  obtain ⟨displayed, rows, hdisplayed, hrows, heq⟩ :=
    (listRows_eq_ok_iff c compareStrings).mp ha
  refine ⟨by rw [heq]; exact ⟨rfl, rfl⟩, ?_⟩
  have hselect := ((Enumerable.toArray_eq_ok_iff _ _).mp hrows).1
  have hwritten := ((Enumerable.total_select_iff _ _).mp hselect).2
  cases hordered : orderedRoutes compareStrings req routes with
  | error e =>
    rw [displayedRoutes, hordered, error_bind] at hdisplayed
    exact absurd hdisplayed (by simp)
  | ok ordered =>
    rw [displayedRoutes, hordered, ok_bind] at hdisplayed
    rw [← Except.ok.inj hdisplayed, Enumerable.items_take, Enumerable.items_skip] at hwritten
    exact ⟨ordered, rfl, fun r hr => (tableRow_ok_iff c r).mp (hwritten r hr)⟩

/-- The sort of a list that is not empty ends when the routes compare by the column. -/
theorem total_orderBy_iff {routes : List Route} (hne : routes ≠ []) (columnName : String)
    (descending : Bool) :
    ((Enumerable.ofList routes).orderBy (orderingFunction columnName)
        (compareObjects compareStrings) descending).Total
      ↔ ComparesBy compareStrings columnName routes := by
  unfold ComparesBy
  cases hget : getProperty columnName with
  | none =>
    obtain ⟨r, hr⟩ := List.exists_mem_of_ne_nil _ hne
    have hkey : orderingFunction columnName r = .error { type := .nullReference } := by
      rw [orderingFunction, hget]
    refine iff_of_false ?_ (by simp)
    exact (Enumerable.orderBy_key_throws _ _ _ (s := Enumerable.ofList routes) hr hkey).1
  | some get =>
    rw [Enumerable.total_orderBy_iff _ get _ _ _ (Enumerable.total_ofList routes)
      (fun r _ => by rw [orderingFunction, hget])]
    simp

/-- The routes in the order of a request, sorted by the column if there is one. -/
def sortedBy (req : ListingRequest) (column : Option String) (routes : List Route) :
    Enumerable Exception Route :=
  match column with
  | none => .ofList routes
  | some columnName => (Enumerable.ofList routes).orderBy (orderingFunction columnName)
      (compareObjects compareStrings) (req.sSortDir_0 != some "asc")

theorem orderedRoutes_of_found {req : ListingRequest} {routes : List Route}
    (hfound : ∀ r ∈ routes, matchesSearch req r = true) {column : Option String}
    (hcolumn : sortColumn req = .ok column) :
    orderedRoutes compareStrings req routes = .ok (sortedBy compareStrings req column routes) := by
  have hsearch : Searchable req routes :=
    fun hnonempty r hr => name_of_matchesSearch hnonempty (hfound r hr)
  rw [orderedRoutes, hcolumn, ok_bind, filteredRoutes_eq hsearch, List.filter_eq_self.mpr hfound]
  cases column with
  | none => rfl
  | some columnName => rfl

/-- They are all of the routes, if rows are asked for. -/
theorem ordered_of_complete {req : ListingRequest} {routes : List Route}
    (h : Complete compareStrings req routes) :
    ∃ ordered, orderedRoutes compareStrings req routes = .ok ordered
      ∧ (0 < req.param.iDisplayLength → ordered.Total) ∧ ∀ r ∈ ordered.items, r ∈ routes := by
  obtain ⟨column, hcolumn, hcompares⟩ := h.column
  refine ⟨_, orderedRoutes_of_found compareStrings h.found hcolumn, ?_⟩
  cases column with
  | none => exact ⟨fun _ => rfl, fun r hr => hr⟩
  | some columnName =>
    constructor
    · intro hlength
      by_cases hne : routes = []
      · rw [hne]
        rfl
      · exact (total_orderBy_iff compareStrings hne _ _).mpr (hcompares hlength hne _ rfl)
    · intro r hr
      rcases Enumerable.orderBy_total (orderingFunction columnName)
        (compareObjects compareStrings) (req.sSortDir_0 != some "asc")
        (Enumerable.ofList routes) with ⟨-, hperm⟩ | ⟨-, hnone⟩
      · exact hperm.mem_iff.mp hr
      · simp only [sortedBy, hnone] at hr
        exact absurd hr List.not_mem_nil

/-- **A complete request is answered**, whatever page it asks for. -/
theorem listRows_of_complete {req : ListingRequest} {routes : List Route}
    (h : Complete compareStrings req routes) (start : ℤ) :
    ∃ a, listRows c compareStrings (startingAt req start) routes = .ok a := by
  obtain ⟨ordered, hordered, htotal, hmem⟩ := ordered_of_complete compareStrings h
  have hdisplayed : displayedRoutes compareStrings (startingAt req start) routes
      = .ok ((ordered.skip start).take req.param.iDisplayLength) := by
    show (orderedRoutes compareStrings req routes >>= _) = _
    rw [hordered, ok_bind]
    rfl
  by_cases hlength : 0 < req.param.iDisplayLength
  · obtain ⟨a, ha, -⟩ := listRows_of_displayed c compareStrings hdisplayed
      (Enumerable.total_take _ _ (Enumerable.total_skip _ _ (htotal hlength))) (fun r hr => by
        rw [Enumerable.items_take, Enumerable.items_skip] at hr
        exact h.createdBy hlength r
          (hmem r (List.mem_of_mem_drop (List.mem_of_mem_take hr))))
    exact ⟨a, ha⟩
  · -- a page of no rows reads nothing
    have hnone : (ordered.skip start).take req.param.iDisplayLength = .ofList [] := by
      rw [Enumerable.take, Int.toNat_of_nonpos (by omega), if_pos (Nat.zero_le _),
        List.take_zero]
      rfl
    rw [hnone] at hdisplayed
    obtain ⟨a, ha, -⟩ := listRows_of_displayed c compareStrings hdisplayed rfl
      (fun r hr => absurd hr List.not_mem_nil)
    exact ⟨a, ha⟩

/-- What is offered on pages that are answered compares, and has a `CreatedBy`. -/
theorem complete_of_pages {req : ListingRequest} {routes : List Route}
    (hfound : ∀ r ∈ routes, matchesSearch req r = true) {column : Option String}
    (hcolumn : sortColumn req = .ok column) (hlength : 0 < req.param.iDisplayLength)
    (hpages : ∀ k : ℕ, k * req.param.iDisplayLength < routes.length → ∃ a,
      listRows c compareStrings (startingAt req (k * req.param.iDisplayLength)) routes = .ok a) :
    (routes ≠ [] → ∀ columnName, column = some columnName →
        ComparesBy compareStrings columnName routes)
      ∧ ∀ r ∈ routes, r.createdBy ≠ none := by
  by_cases hne : routes = []
  · rw [hne]
    exact ⟨fun h => absurd rfl h, fun r hr => absurd hr List.not_mem_nil⟩
  have hsearch : Searchable req routes :=
    fun hnonempty r hr => name_of_matchesSearch hnonempty (hfound r hr)
  have hordered := orderedRoutes_of_found compareStrings hfound hcolumn
  -- the first page is offered, so the sort ends
  obtain ⟨a, ha⟩ := hpages 0 (by
    rw [Nat.cast_zero, zero_mul, Nat.cast_pos]
    exact List.length_pos_iff.mpr hne)
  rcases orderedRoutes_cases compareStrings hsearch hordered with
    ⟨htotal, hperm⟩ | ⟨hends, hnone⟩
  swap
  · have hordered' : orderedRoutes compareStrings
        (startingAt req ((0 : ℕ) * req.param.iDisplayLength)) routes
        = .ok (sortedBy compareStrings req column routes) := hordered
    exact absurd ha (listRows_throws c compareStrings hordered' hends hnone hlength a)
  refine ⟨fun _ columnName hname => ?_, fun r hr => ?_⟩
  · rw [hname] at htotal
    exact (total_orderBy_iff compareStrings hne _ _).mp htotal
  · -- the page the route stands on is offered too
    rw [List.filter_eq_self.mpr hfound] at hperm
    obtain ⟨i, hi, rfl⟩ := List.mem_iff_getElem.mp (hperm.mem_iff.mpr hr)
    obtain ⟨size, hsize⟩ := Int.eq_ofNat_of_zero_le (Int.le_of_lt hlength)
    have hpos : 0 < size := by omega
    have hlt : i < routes.length := hperm.length_eq ▸ hi
    have hdiv : i / size * size ≤ i := Nat.div_mul_le_self i size
    obtain ⟨a', ha'⟩ := hpages (i / size) (by
      rw [hsize]
      have hcast : ((i / size : ℕ) : ℤ) * (size : ℤ) = ((i / size * size : ℕ) : ℤ) := by
        rw [Nat.cast_mul]
      omega)
    obtain ⟨-, ordered', hordered', hwritten⟩ := exists_ordered c compareStrings ha'
    have hsame : orderedRoutes compareStrings
        (startingAt req ((i / size : ℕ) * req.param.iDisplayLength)) routes
        = orderedRoutes compareStrings req routes := rfl
    rw [hsame, hordered, Except.ok.injEq] at hordered'
    rw [← hordered'] at hwritten
    apply hwritten
    have hstart : (startingAt req ((i / size : ℕ) * req.param.iDisplayLength)).param.iDisplayStart
        = ((i / size * size : ℕ) : ℤ) := by
      show ((i / size : ℕ) : ℤ) * req.param.iDisplayLength = _
      rw [hsize, Nat.cast_mul]
    have hsize' : (startingAt req ((i / size : ℕ) * req.param.iDisplayLength)).param.iDisplayLength
        = size := hsize
    have hwithin : i - i / size * size < size := by
      have hmod := Nat.mod_lt i hpos
      have hsplit := Nat.div_add_mod' i size
      omega
    rw [hstart, hsize', Int.toNat_natCast, Int.toNat_natCast, List.mem_iff_getElem]
    refine ⟨i - i / size * size, ?_, ?_⟩
    · rw [List.length_take, List.length_drop]
      omega
    · rw [List.getElem_take, List.getElem_drop]
      congr 1
      omega

/-- **The counters agree with the rows** exactly when every route passes the search and
the sort and the rows have what they read. -/
theorem countersAgree_iff (req : ListingRequest) (routes : List Route) :
    CountersAgree c compareStrings req routes ↔ Complete compareStrings req routes := by
  constructor
  · rintro ⟨a, ha, hcounts⟩
    obtain ⟨⟨htotal, hdisplayed⟩, ordered, hordered, -⟩ := exists_ordered c compareStrings ha
    have hfound : ∀ r ∈ routes, matchesSearch req r = true := by
      have hlength := hcounts.displayed
      rw [hdisplayed] at hlength
      exact List.length_filter_eq_length_iff.mp hlength.symm
    have hpages := hcounts.pages
    rw [hdisplayed] at hpages
    cases hcolumn : sortColumn req with
    | error e =>
      rw [orderedRoutes, hcolumn, error_bind] at hordered
      exact absurd hordered (by simp)
    | ok column =>
      have hshown := fun hlength => complete_of_pages c compareStrings hfound hcolumn hlength
        (fun k hk => (hpages k hlength hk).imp fun a' h => h.1)
      exact ⟨hfound, ⟨column, hcolumn, fun hlength => (hshown hlength).1⟩,
        fun hlength => (hshown hlength).2⟩
  · intro h
    have hfound : (routes.filter (matchesSearch req)).length = routes.length :=
      List.length_filter_eq_length_iff.mpr h.found
    have hsearch : Searchable req routes :=
      fun hnonempty r hr => name_of_matchesSearch hnonempty (h.found r hr)
    obtain ⟨a, ha⟩ := listRows_of_complete c compareStrings h req.param.iDisplayStart
    have ha : listRows c compareStrings req routes = .ok a := ha
    obtain ⟨⟨htotal, hdisplayed⟩, -⟩ := exists_ordered c compareStrings ha
    refine ⟨a, ha, htotal, by rw [hdisplayed, hfound], ?_, ?_⟩
    · intro hstart hin hlength
      rw [hdisplayed] at hin ⊢
      rw [listRows_length c compareStrings ha hsearch hlength, hfound]
      omega
    · intro k hlength hoffered
      rw [hdisplayed] at hoffered
      obtain ⟨a', ha'⟩ := listRows_of_complete c compareStrings h (k * req.param.iDisplayLength)
      refine ⟨a', ha', ?_⟩
      -- the other page searches for the same text in the same routes
      have hrows := listRows_length c compareStrings ha' hsearch hlength
      have hfound' : (routes.filter (matchesSearch
          (startingAt req (k * req.param.iDisplayLength)))).length = routes.length := hfound
      rw [hfound'] at hrows
      have hstart : 0 ≤ (k : ℤ) * req.param.iDisplayLength :=
        Int.mul_nonneg (by omega) (by omega)
      rw [← List.length_pos_iff, hrows]
      show 0 < min req.param.iDisplayLength.toNat
        (routes.length - (k * req.param.iDisplayLength).toNat)
      generalize (k : ℤ) * req.param.iDisplayLength = start at hoffered hstart
      omega

end Counters

/-- The first ten routes whose name contains a text. -/
def searching (text : String) (start : ℤ) : ListingRequest where
  param := ⟨none, some text, 10, start, none⟩
  iSortCol_0 := none
  sSortDir_0 := none

/-- One of the seeded routes is found by its name, two are counted, and the second has no
row. -/
theorem search_counts_all :
    ∃ a a', listRows exampleCulture compare (searching "Ruta 1" 0) seedTable.rows = .ok a
      ∧ a.iTotalDisplayRecords = 2
      ∧ (seedTable.rows.filter (matchesSearch (searching "Ruta 1" 0))).length = 1
      ∧ listRows exampleCulture compare (searching "Ruta 1" 1) seedTable.rows = .ok a'
      ∧ a'.aaData = []
      ∧ ¬ CountersAgree exampleCulture compare (searching "Ruta 1" 0) seedTable.rows := by
  have ha : listRows exampleCulture compare (searching "Ruta 1" 0) seedTable.rows
      = .ok _ := rfl
  refine ⟨_, _, ha, rfl, by decide +kernel, rfl, rfl, ?_⟩
  rintro ⟨a, ha', hcounts⟩
  rw [ha, Except.ok.injEq] at ha'
  have hdisplayed := hcounts.displayed
  rw [← ha'] at hdisplayed
  exact absurd hdisplayed (by decide +kernel)

end CgGuide.RoutesCounters
