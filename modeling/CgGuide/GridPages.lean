/-
The button Next of the route grid.

A user who searches or sorts is back on the first page, and presses Next until nothing
changes any more. How far that goes is decided by the count of the last answer, which the
action takes from all live routes; what each page shows by a list that was fetched and
sorted for that page alone. `next_shows_all` puts the two together: on a table that is
pageable for the request, what the user has seen by the end is every route found, once and
in order, whatever order the database gave them in for each page. If the search found
fewer routes than there are, some of the last pages are empty.
-/
import CgGuide.RoutesGrid

set_option autoImplicit false

namespace CgGuide.GridPages

open CgGuide.DotNet CgGuide.KeyedTable CgGuide.Entities CgGuide.DbContext CgGuide.Repositories
open CgGuide.RoutesService CgGuide.EditForm CgGuide.Deferred CgGuide.RoutesListing
open CgGuide.Paging CgGuide.RoutesPaging CgGuide.RoutesColumns CgGuide.Runs
open CgGuide.NewestAnswer CgGuide.RoutesGrid

section Walk

variable (c : Culture) (compareStrings : String → String → Ordering)

/-- An action of the user whose answer has arrived before anything else happens. -/
def drawing (e : Action) (o : RowOrder Route) : List GridEvent :=
  [.act e, .handle o 0, .receive 0]

/-- The action and, `n` times, the button Next. The database orders the routes anew for
each page. -/
def walk (e : Action) (os : ℕ → RowOrder Route) (n : ℕ) : List GridEvent :=
  drawing e (os 0) ++ (List.range n).flatMap (fun k => drawing (.page .next) (os (k + 1)))

/-- The system after that, if nothing was under way before. -/
def walked (t : RouteTable) (g : Grid) (e : Action) (os : ℕ → RowOrder Route) (n : ℕ) :
    State RouteTable Grid ListingRequest Listing :=
  run (step (grid c compareStrings)) ⟨t, g, [], []⟩ (walk e os n)

/-- Nothing is under way and the grid is on page number `n` of what `g'` asks for, with
the answer drawn. -/
structure OnPage (t : RouteTable) (o : RowOrder Route) (g' : Grid) (n : ℕ)
    (s : State RouteTable Grid ListingRequest Listing) : Prop where
  quiet : s = ⟨t, s.client, [], []⟩
  start : s.client.iDisplayStart = n * g'.iDisplayLength
  length : s.client.iDisplayLength = g'.iDisplayLength
  search : s.client.sSearch = g'.sSearch
  sorting : s.client.aaSorting = g'.aaSorting
  records : s.client.iRecordsDisplay = (GenericUpdatableRepository.live t).length
  drawn : ∃ a, jQueryDataTablesHandler c compareStrings t o (fnAjaxParameters s.client) = .ok a
    ∧ s.client.drawn = some (shownFor (fnAjaxParameters s.client) a)

variable {c compareStrings}

/-- The action counts the live routes. -/
theorem iTotalDisplayRecords_of_handler {t : RouteTable} {o : RowOrder Route}
    {req : ListingRequest} {a : Listing}
    (h : jQueryDataTablesHandler c compareStrings t o req = .ok a) :
    a.iTotalDisplayRecords = (GenericUpdatableRepository.live t).length := by
  rw [jQueryDataTablesHandler, getAllRoutes_eq, ok_bind] at h
  obtain ⟨displayed, rows, -, -, rfl⟩ := (listRows_eq_ok_iff c compareStrings).mp h
  exact (fetched_perm t o).length_eq

/-- An action that sends a request, when it is answered. -/
theorem run_drawing {t : RouteTable} {o : RowOrder Route} {g h : Grid} {e : Action} {a : Listing}
    (hact : act g e = fnDraw h)
    (ha : jQueryDataTablesHandler c compareStrings t o (fnAjaxParameters (fnDraw h).1) = .ok a) :
    run (step (grid c compareStrings)) ⟨t, g, [], []⟩ (drawing e o)
      = ⟨t,
          { h with
            iDraw := h.iDraw + 1
            iRecordsTotal := a.iTotalRecords
            iRecordsDisplay := a.iTotalDisplayRecords
            aoData := a.aaData
            processing := false
            drawn := some (shownFor (fnAjaxParameters (fnDraw h).1) a) }, [], []⟩ := by
  have hhandled := (handle_eq_some c compareStrings).mpr ha
  have hecho : toNumber a.sEcho = some (fnDraw h).1.iDraw := by
    rw [sEcho_of_handler c compareStrings ha]
    exact toNumber_numberText _
  have hsent : step (grid c compareStrings) ⟨t, g, [], []⟩ (.act e : GridEvent)
      = ⟨t, (fnDraw h).1, [fnAjaxParameters (fnDraw h).1], []⟩ := by
    simp only [step, grid, hact]
    rfl
  have hanswered : step (grid c compareStrings)
      ⟨t, (fnDraw h).1, [fnAjaxParameters (fnDraw h).1], []⟩ (.handle o 0 : GridEvent)
      = ⟨t, (fnDraw h).1, [], [a]⟩ := by
    simp [step, hhandled]
  have hdrawn : step (grid c compareStrings) ⟨t, (fnDraw h).1, [], [a]⟩ (.receive 0 : GridEvent)
      = ⟨t, fnAjaxUpdateDraw (fnDraw h).1 a, [], []⟩ := rfl
  rw [drawing, run_cons, hsent, run_cons, hanswered, run_cons, hdrawn,
    fnAjaxUpdateDraw_newest hecho]
  rfl

/-- One that sends none. -/
theorem run_drawing_none {t : RouteTable} {o : RowOrder Route} {g : Grid} {e : Action}
    (hact : act g e = (g, none)) :
    run (step (grid c compareStrings)) ⟨t, g, [], []⟩ (drawing e o) = ⟨t, g, [], []⟩ := by
  have hnone : step (grid c compareStrings) ⟨t, g, [], []⟩ (.act e : GridEvent)
      = ⟨t, g, [], []⟩ := by
    simp only [step, grid, hact]
    rfl
  rw [drawing, run_cons, hnone]
  rfl

/-- What is shown for a request does not depend on its number. -/
theorem Shows.renumbered {t : RouteTable} {o : RowOrder Route} {req : ListingRequest}
    {shown : List Route} (h : Shows c compareStrings t o req shown) (sEcho : Option String) :
    Shows c compareStrings t o { req with param := { req.param with sEcho := sEcho } } shown := by
  -- the action computes nothing from `sEcho`
  rw [shows_iff] at h ⊢
  exact h

section Pages

variable [Std.TransCmp compareStrings] {t : RouteTable} {g' : Grid}
  (hsort : Sortable (fnAjaxParameters g'))
  (hpageable : Pageable compareStrings t (fnAjaxParameters g') g'.iDisplayLength)

include hsort hpageable

/-- Every page of what the grid asks for is answered, with the rows of its routes. -/
theorem shows_page {h : Grid} {n : ℕ} (hstart : h.iDisplayStart = n * g'.iDisplayLength)
    (hlength : h.iDisplayLength = g'.iDisplayLength) (hsearch : h.sSearch = g'.sSearch)
    (hsorting : h.aaSorting = g'.aaSorting) (o : RowOrder Route) :
    Shows c compareStrings t o (fnAjaxParameters h)
      (page g'.iDisplayLength n
        (orderedList compareStrings (fnAjaxParameters g') (fetched t o))) := by
  -- the request is that of the page, but for its number
  have hrequest : fnAjaxParameters h
      = { pageRequest (fnAjaxParameters g') g'.iDisplayLength n with
          param := { (pageRequest (fnAjaxParameters g') g'.iDisplayLength n).param with
            sEcho := some (numberText h.iDraw) } } := by
    rw [fnAjaxParameters, hstart, hlength, hsearch, hsorting]
    rfl
  rw [hrequest]
  apply Shows.renumbered
  rw [shows_page_iff c compareStrings hsort hpageable.searchable]
  -- the routes of a page are among those found, and those can be written as rows
  refine ⟨rfl, fun r hr => hpageable.createdBy r ?_⟩
  rw [← (listed_perm compareStrings t o _).mem_iff]
  exact List.mem_of_mem_drop (List.mem_of_mem_take hr)

/-- An action that sends the request for page number `n` brings the grid there. -/
theorem onPage_drawing {g h : Grid} {n : ℕ} (hstart : h.iDisplayStart = n * g'.iDisplayLength)
    (hlength : h.iDisplayLength = g'.iDisplayLength) (hsearch : h.sSearch = g'.sSearch)
    (hsorting : h.aaSorting = g'.aaSorting) {e : Action} (hact : act g e = fnDraw h)
    (o : RowOrder Route) :
    OnPage c compareStrings t o g' n
      (run (step (grid c compareStrings)) ⟨t, g, [], []⟩ (drawing e o)) := by
  obtain ⟨-, -, a, -, -, -, ha, -⟩ := shows_page (c := c) (h := (fnDraw h).1) hsort hpageable
    hstart hlength hsearch hsorting o
  rw [run_drawing hact ha]
  exact
    { quiet := rfl
      start := hstart
      length := hlength
      search := hsearch
      sorting := hsorting
      records := iTotalDisplayRecords_of_handler ha
      drawn := ⟨a, ha, rfl⟩ }

/-- **The button Next** brings the grid to the next page while there are more live routes,
and then does nothing. -/
theorem onPage_next (hpositive : 0 < g'.iDisplayLength) {n : ℕ} {o : RowOrder Route}
    {s : State RouteTable Grid ListingRequest Listing} (hs : OnPage c compareStrings t o g' n s)
    (o' : RowOrder Route) :
    if (n + 1) * g'.iDisplayLength < (GenericUpdatableRepository.live t).length then
      OnPage c compareStrings t o' g' (n + 1)
        (run (step (grid c compareStrings)) s (drawing (.page .next) o'))
    else run (step (grid c compareStrings)) s (drawing (.page .next) o') = s := by
  obtain ⟨server, g, requests, responses⟩ := s
  obtain ⟨rfl, -, rfl, rfl⟩ := State.mk.inj hs.quiet
  -- the grid pages by the length and the count of the answer it shows
  have hnext : g.iDisplayStart + g.iDisplayLength = (n + 1) * g'.iDisplayLength := by
    rw [Nat.succ_mul, ← hs.start, ← hs.length]
  have hrecords : g.iRecordsDisplay = (GenericUpdatableRepository.live server).length := hs.records
  by_cases hmore : (n + 1) * g'.iDisplayLength < (GenericUpdatableRepository.live server).length
  · rw [if_pos hmore]
    have hpage : fnPageChange .next g
        = { g with iDisplayStart := (n + 1) * g'.iDisplayLength } := by
      rw [fnPageChange, hnext, hrecords, if_pos hmore]
    have hact : act g (.page .next)
        = fnDraw { g with iDisplayStart := (n + 1) * g'.iDisplayLength } := by
      have hchanged : (n + 1) * g'.iDisplayLength ≠ g.iDisplayStart := by
        rw [← hnext, hs.length]
        omega
      rw [act, hpage, if_neg hchanged]
    exact onPage_drawing (h := { g with iDisplayStart := (n + 1) * g'.iDisplayLength })
      hsort hpageable rfl hs.length hs.search hs.sorting hact o'
  · rw [if_neg hmore]
    have hpage : fnPageChange .next g = g := by
      rw [fnPageChange, hnext, hrecords, if_neg hmore]
    apply run_drawing_none
    rw [act, hpage, if_pos rfl]

end Pages

/-- Below the number of pages there is a route behind the page. -/
theorem lt_pageCount_iff (t : RouteTable) {size n : ℕ} (hsize : 0 < size) :
    n + 1 < pageCount t size
      ↔ (n + 1) * size < (GenericUpdatableRepository.live t).length := by
  rw [pageCount, ← Nat.succ_le_iff, Nat.le_div_iff_mul_le hsize, Nat.succ_mul]
  omega

/-- One more press. -/
theorem walked_succ (t : RouteTable) (g : Grid) (e : Action) (os : ℕ → RowOrder Route) (n : ℕ) :
    walked c compareStrings t g e os (n + 1)
      = run (step (grid c compareStrings)) (walked c compareStrings t g e os n)
          (drawing (.page .next) (os (n + 1))) := by
  rw [walked, walked, ← run_append, walk, walk, List.append_assoc, List.range_succ,
    List.flatMap_append, List.flatMap_singleton]

section Presses

variable [Std.TransCmp compareStrings] {t : RouteTable} {g : Grid} {e : Action}
  (hsent : (act g e).2 ≠ none) (hfirst : (act g e).1.iDisplayStart = 0)
  (hpositive : 0 < (act g e).1.iDisplayLength) (hsort : Sortable (fnAjaxParameters (act g e).1))
  (hpageable : Pageable compareStrings t (fnAjaxParameters (act g e).1)
    (act g e).1.iDisplayLength)

include hsent hfirst hpositive hsort hpageable

/-- Where the presses lead: page after page, and no further than the last. -/
theorem onPage_walked (os : ℕ → RowOrder Route) {n : ℕ}
    (hn : n = 0 ∨ n < pageCount t (act g e).1.iDisplayLength) :
    OnPage c compareStrings t (os n) (act g e).1 n (walked c compareStrings t g e os n) := by
  -- by the number of presses: the action itself, then one page more with each
  induction n with
  | zero =>
      rcases act_cases g e with ⟨h, hact, -, -⟩ | hact | ⟨click, -, hact⟩
      · have hstart : h.iDisplayStart = 0 * (act g e).1.iDisplayLength := by
          rw [Nat.zero_mul, ← hfirst, hact]
          rfl
        have hfields : h.iDisplayLength = (act g e).1.iDisplayLength
            ∧ h.sSearch = (act g e).1.sSearch ∧ h.aaSorting = (act g e).1.aaSorting := by
          rw [hact]
          exact ⟨rfl, rfl, rfl⟩
        have honPage := onPage_drawing (c := c) hsort hpageable hstart hfields.1 hfields.2.1
          hfields.2.2 hact (os 0)
        rwa [walked, walk, List.range_zero, List.flatMap_nil, List.append_nil]
      · rw [hact] at hsent
        exact absurd rfl hsent
      · rw [hact] at hsent
        exact absurd rfl hsent
  | succ n ih =>
      have hbelow := hn.resolve_left (Nat.succ_ne_zero n)
      have hnext := onPage_next hsort hpageable hpositive (ih (Or.inr (by omega))) (os (n + 1))
      rw [if_pos ((lt_pageCount_iff t hpositive).mp hbelow)] at hnext
      rw [walked_succ]
      exact hnext

/-- The last page is where the presses stay. -/
theorem walked_stays (os : ℕ → RowOrder Route) {n : ℕ}
    (hn : pageCount t (act g e).1.iDisplayLength - 1 ≤ n) :
    walked c compareStrings t g e os n
      = walked c compareStrings t g e os (pageCount t (act g e).1.iDisplayLength - 1) := by
  -- from the last page on a press changes nothing
  induction n, hn using Nat.le_induction with
  | base => rfl
  | succ n hn ih =>
      have hlast := onPage_walked (c := c) hsent hfirst hpositive hsort hpageable os
        (n := pageCount t (act g e).1.iDisplayLength - 1) (by omega)
      have hnext := onPage_next hsort hpageable hpositive hlast (os (n + 1))
      rw [if_neg (fun hmore => by
        have hbelow := (lt_pageCount_iff t hpositive).mpr hmore
        omega)] at hnext
      rw [walked_succ, ih]
      exact hnext

end Presses

variable (c compareStrings)

/-- **Next shows everything.** An action that puts the grid on the first page of something
that can be sorted and, on a pageable table, paged, and then Next again and again: as long
as there are pages each press draws the next one; after that it does nothing; and together
they have shown every route found, once and in the requested order. -/
theorem next_shows_all [Std.TransCmp compareStrings] {t : RouteTable} {g : Grid} (hg : Regular g)
    {e : Action} (he : Offered ⟨t, g, [], []⟩ (.act e)) (hsent : (act g e).2 ≠ none)
    (hfirst : (act g e).1.iDisplayStart = 0) (hsort : ¬ SortsByUpdate (act g e).1)
    (hpageable : Pageable compareStrings t (fnAjaxParameters (act g e).1)
      (act g e).1.iDisplayLength)
    (os : ℕ → RowOrder Route) :
    ∃ shown : ℕ → List Route,
      (∀ n < pageCount t (act g e).1.iDisplayLength, ∃ d,
        (walked c compareStrings t g e os n).client.drawn = some d
          ∧ d.start = (if GenericUpdatableRepository.live t = [] then 0
            else n * (act g e).1.iDisplayLength + 1)
          ∧ List.Forall₂ (fun row r => tableRow c r = .ok row) d.rows (shown n))
      ∧ (∀ n, pageCount t (act g e).1.iDisplayLength ≤ n + 1 →
        walked c compareStrings t g e os n
          = walked c compareStrings t g e os (pageCount t (act g e).1.iDisplayLength - 1))
      ∧ ((List.range (pageCount t (act g e).1.iDisplayLength)).flatMap shown).Perm
          (found t (fnAjaxParameters (act g e).1))
      ∧ Sorted (requestedCompare compareStrings (fnAjaxParameters (act g e).1))
          ((List.range (pageCount t (act g e).1.iDisplayLength)).flatMap shown) := by
  have hregular := hg.act he
  have hpositive := positive_of_mem_aLengthMenu hregular.length
  have hsortable := sortable_fnAjaxParameters hregular hsort
  have hsorted : ∀ k, Sorted (requestedCompare compareStrings (fnAjaxParameters (act g e).1))
      (orderedList compareStrings (fnAjaxParameters (act g e).1) (fetched t (os k))) :=
    fun k => orderedList_sorted compareStrings _ (fetched_sorted t (os k))
  have hperm := fun k => listed_perm compareStrings t (os k) (fnAjaxParameters (act g e).1)
  -- page `n` is cut from the list as it was sorted for the press that drew it
  refine ⟨fun n => page (act g e).1.iDisplayLength n
    (orderedList compareStrings (fnAjaxParameters (act g e).1) (fetched t (os n))), ?_, ?_, ?_, ?_⟩
  · intro n hn
    have honPage := onPage_walked (c := c) hsent hfirst hpositive hsortable hpageable os (Or.inr hn)
    obtain ⟨a, ha, hdrawn⟩ := honPage.drawn
    obtain ⟨-, -, b, -, -, -, hb, hrows⟩ := shows_page (c := c) hsortable hpageable honPage.start
      honPage.length honPage.search honPage.sorting (os n)
    rw [ha, Except.ok.injEq] at hb
    subst hb
    refine ⟨_, hdrawn, ?_, hrows⟩
    show (if a.iTotalDisplayRecords = 0 then 0 else _) = _
    rw [← honPage.start, iTotalDisplayRecords_of_handler ha]
    simp only [List.length_eq_zero_iff]
    rfl
  · exact fun n hn => walked_stays hsent hfirst hpositive hsortable hpageable os (by omega)
  · exact flatMap_page_perm _ hpositive (found_length_le t _ hpositive).2 hpageable.onOnePage
      hsorted hperm
  · exact flatMap_page_sorted _ hpositive hpageable.onOnePage hsorted hperm _

end Walk

/-- Twelve routes, which take two pages of ten. -/
def twelveRoutes : RouteTable where
  rows := (List.range 12).map (fun k : ℕ =>
    { ruta1 with id := k + 1, name := some ("Ruta " ++ numberText (k + 10)) })
  keys_nodup := by decide
  next := 13
  key_lt_next := by decide

/-- Twelve routes after a search for what all are called, and the second page of it. -/
theorem next_shows_twelve :
    ∃ shown : ℕ → List Route,
      (∀ n < 2, ∃ d, (walked exampleCulture compare twelveRoutes fnInitialise (.keyup "Ruta")
          (fun _ => RowOrder.stored) n).client.drawn = some d
        ∧ d.start = n * 10 + 1
        ∧ List.Forall₂ (fun row r => tableRow exampleCulture r = .ok row) d.rows (shown n))
      ∧ (shown 0 ++ shown 1).Perm twelveRoutes.rows := by
  have hact : act fnInitialise (.keyup "Ruta") = fnFilterComplete "Ruta" fnInitialise := by
    rw [act, if_neg (by decide)]
  have hsort : ¬ SortsByUpdate (act fnInitialise (.keyup "Ruta")).1 := by
    rintro ⟨e, he, hcolumn⟩
    rw [hact] at he
    rw [← Option.some.inj he] at hcolumn
    exact absurd hcolumn (by decide)
  have hpageable : Pageable compare twelveRoutes
      (fnAjaxParameters (act fnInitialise (.keyup "Ruta")).1)
      (act fnInitialise (.keyup "Ruta")).1.iDisplayLength := by
    rw [hact]
    exact ⟨fun _ => by decide +kernel, by decide +kernel, by decide +kernel⟩
  obtain ⟨shown, hpages, -, hperm, -⟩ := @next_shows_all exampleCulture compare inferInstance
    twelveRoutes fnInitialise regular_fnInitialise (.keyup "Ruta") trivial
    (by rw [hact]; exact Option.some_ne_none _) (by rw [hact]; rfl) hsort hpageable
    (fun _ => RowOrder.stored)
  have hlength : (act fnInitialise (.keyup "Ruta")).1.iDisplayLength = 10 := by
    rw [hact]
    rfl
  have htwo : pageCount twelveRoutes 10 = 2 := by decide +kernel
  have hlive : GenericUpdatableRepository.live twelveRoutes ≠ [] := by decide +kernel
  have hfound : found twelveRoutes (fnAjaxParameters (act fnInitialise (.keyup "Ruta")).1)
      = twelveRoutes.rows := by
    rw [hact]
    decide +kernel
  rw [hlength, htwo] at hpages hperm
  rw [hfound] at hperm
  refine ⟨shown, fun n hn => ?_, ?_⟩
  · obtain ⟨d, hdrawn, hstart, hrows⟩ := hpages n hn
    rw [if_neg hlive] at hstart
    exact ⟨d, hdrawn, hstart, hrows⟩
  · simpa [List.range_succ] using hperm

end CgGuide.GridPages
