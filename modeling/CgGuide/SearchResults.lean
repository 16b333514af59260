/-
`SolrController.Index` with its answer, and the pages it shows.

Solr is a service outside of this repository. What it answers to a query is a parameter
here, and the results name what they need of it: that it counts the values of the fields
it was asked for and no others (`AnswersAsked`), and, where pages are put side by side,
that the pages are cut from one list of results (`AnswersWindows`).

An answer that fails with an `InvalidFieldException` is caught and shows an empty page
without links; any other exception leaves the action.
-/
import CgGuide.FacetMenu
import CgGuide.Paging

set_option autoImplicit false

namespace CgGuide.SearchResults

open CgGuide.DotNet CgGuide.KeyedTable CgGuide.Dictionaries CgGuide.Dictionaries.Dictionary
open CgGuide.UrlHelperExtensions CgGuide.SearchParametersBinder CgGuide.FacetLinks CgGuide.Runs
open CgGuide.SearchPaging CgGuide.SearchSession CgGuide.FacetMenu CgGuide.Paging

/-! ## The action -/

/-- `ISolrQueryResults<Product>`, in the members the action reads. -/
structure QueryResults (Product : Type) where
  products : List Product
  numFound : Int32
  facetFields : List (String × List (String × Int32))

/-- `SolrViewModel`. -/
structure SolrViewModel (Product : Type) where
  search : SearchParameters
  products : List Product
  totalCount : Int32
  facets : List (String × List (String × Int32))
  didYouMean : Option String
  queryError : Bool

/-- `new SearchParameters()`. -/
def newSearchParameters : SearchParameters where
  freeSearch := none
  pageIndex := 1
  pageSize := defaultPageSize
  facets := empty
  sort := none

/-- `new SolrViewModel()`. -/
def newSolrViewModel (Product : Type) : SolrViewModel Product where
  search := newSearchParameters
  products := []
  totalCount := 0
  facets := []
  didYouMean := none
  queryError := false

section Action

variable {Product σ ε : Type} (parseSortOrder : Option String → Except ε (Option σ))
  (solrQuery : SolrQuery → QueryOptions σ → Except ε (QueryResults Product))
  (isInvalidField : ε → Bool)

/-- The body of the `try` block. -/
def searchView (sp : SearchParameters) : Except ε (SolrViewModel Product) := do
  let request ← index parseSortOrder sp
  let matchingProducts ← solrQuery request.1 request.2
  return { newSolrViewModel Product with
    products := matchingProducts.products
    search := sp
    totalCount := matchingProducts.numFound
    facets := matchingProducts.facetFields }

/-- `Index`. -/
def indexAction (sp : SearchParameters) : Except ε (SolrViewModel Product) :=
  match searchView parseSortOrder solrQuery sp with
  | .ok view => .ok view
  | .error e =>
    if isInvalidField e then .ok { newSolrViewModel Product with queryError := true }
    else .error e

variable {parseSortOrder solrQuery isInvalidField}

/-- **A view of the action** shows an answer of Solr, or that there was none. -/
theorem indexAction_cases {sp : SearchParameters} {view : SolrViewModel Product}
    (h : indexAction parseSortOrder solrQuery isInvalidField sp = .ok view) :
    (∃ query options results, index parseSortOrder sp = .ok (query, options)
      ∧ solrQuery query options = .ok results ∧ view.search = sp
      ∧ view.products = results.products ∧ view.totalCount = results.numFound
      ∧ view.facets = results.facetFields ∧ view.queryError = false)
    ∨ view = { newSolrViewModel Product with queryError := true } := by
  unfold indexAction at h
  -- a query error is the only one that is caught
  cases hview : searchView parseSortOrder solrQuery sp with
  | error e =>
    simp only [hview] at h
    split_ifs at h
    exact Or.inr (Except.ok.inj h).symm
  | ok view' =>
    simp only [hview] at h
    obtain rfl := Except.ok.inj h
    left
    unfold searchView at hview
    cases hindex : index parseSortOrder sp with
    | error e =>
      rw [hindex] at hview
      exact absurd hview (by simp [bind, Except.bind])
    | ok request =>
      rw [hindex] at hview
      cases hresults : solrQuery request.1 request.2 with
      | error e => simp [bind, Except.bind, hresults] at hview
      | ok results =>
        simp only [bind, Except.bind, hresults] at hview
        obtain rfl := Except.ok.inj hview
        exact ⟨request.1, request.2, results, rfl, hresults, rfl, rfl, rfl, rfl, rfl⟩

end Action

/-! ## Sessions on what is shown -/

section Sessions

variable {Product σ ε : Type} (parseSortOrder : Option String → Except ε (Option σ))
  (isInvalidField : ε → Bool) (u : HttpUtility) (m : CaseMapping) (form : FormEncoding u)

/-- Values are counted for the fields that were asked for only. -/
def AnswersAsked (solrQuery : SolrQuery → QueryOptions σ → Except ε (QueryResults Product)) :
    Prop :=
  ∀ query options results, solrQuery query options = .ok results →
    ∀ f ∈ results.facetFields, f.1 ∈ options.facet.map SolrFacetFieldQuery.field

/-- The view may be shown at the URL, as Solr answers at the time. -/
def Shown (rawUrl : String) (view : SolrViewModel Product) : Prop :=
  ∃ sp solrQuery, bindModel m (queryString u m rawUrl) = .ok sp ∧ AnswersAsked solrQuery
    ∧ indexAction parseSortOrder solrQuery isInvalidField sp = .ok view

/-- A view at the URL has the link, or the form. -/
def OnView (Product : Type) (url : Except Exception String) : Click → Prop
  | .setFacet field value => ∃ rawUrl, ∃ view : SolrViewModel Product, url = .ok rawUrl
      ∧ Shown parseSortOrder isInvalidField u m rawUrl view
      ∧ ∃ f ∈ view.facets, f.1 = field ∧ value ∈ f.2.map Prod.fst
  | .removeFacet field => ∃ rawUrl, ∃ view : SolrViewModel Product, url = .ok rawUrl
      ∧ Shown parseSortOrder isInvalidField u m rawUrl view
      ∧ field ∈ selectedFacetFields view.search
  | .submit _ => True

/-- What the menu shows of the values. -/
def menuFacets (view : SolrViewModel Product) : List (String × List String) :=
  view.facets.map (fun f => (f.1, f.2.map Prod.fst))

variable {parseSortOrder isInvalidField u m}

/-- What a view shows is the search of its URL with the fields asked for, or nothing. -/
theorem shown_cases {rawUrl : String} {view : SolrViewModel Product}
    (h : Shown parseSortOrder isInvalidField u m rawUrl view) :
    (bindModel m (queryString u m rawUrl) = .ok view.search
      ∧ ∀ f ∈ view.facets, f.1 ∈ offeredFields view.search)
    ∨ view.queryError = true ∧ view.facets = [] ∧ view.search = newSearchParameters := by
  obtain ⟨sp, solrQuery, hsp, hasked, hview⟩ := h
  rcases indexAction_cases hview with
    ⟨query, options, results, hindex, hresults, hsearch, -, -, hfacets, -⟩ | hview
  · left
    rw [hsearch, hfacets, ← (index_offered hindex).1]
    exact ⟨hsp, hasked query options results hresults⟩
  · right
    rw [hview]
    exact ⟨rfl, rfl, rfl⟩

/-- What is on a view is on the page. -/
theorem onPage_of_onView {url : Except Exception String} {c : Click}
    (h : OnView parseSortOrder isInvalidField u m Product url c) : OnPage u m url c := by
  cases c with
  | setFacet field value =>
    obtain ⟨rawUrl, view, hurl, hshown, f, hf, rfl, -⟩ := h
    rcases shown_cases hshown with ⟨hsp, hoffered⟩ | ⟨-, hnone, -⟩
    · exact ⟨rawUrl, view.search, hurl, hsp, hoffered f hf⟩
    · rw [hnone] at hf
      exact absurd hf List.not_mem_nil
  | removeFacet field =>
    obtain ⟨rawUrl, view, hurl, hshown, hfield⟩ := h
    rcases shown_cases hshown with ⟨hsp, -⟩ | ⟨-, -, hnew⟩
    · exact ⟨rawUrl, view.search, hurl, hsp, hfield⟩
    · rw [hnew] at hfield
      exact absurd hfield List.not_mem_nil
  | submit text => trivial

end Sessions

/-- A Solr that finds no product and one value for each field it is asked for. -/
def exampleSolr (_ : SolrQuery) (options : QueryOptions Unit) :
    Except Exception (QueryResults String) :=
  .ok ⟨[], 0, options.facet.map (fun f => (f.field, [("b", 1)]))⟩

section Pages

variable {Product σ ε : Type} {parseSortOrder : Option String → Except ε (Option σ)}
  {isInvalidField : ε → Bool}
  {solrQuery : SolrQuery → QueryOptions σ → Except ε (QueryResults Product)}

/-- Answers are windows of one list of results for a query, its filters and its order. -/
def AnswersWindows (solrQuery : SolrQuery → QueryOptions σ → Except ε (QueryResults Product))
    (results : SolrQuery → List SolrQuery → List σ → List Product) : Prop :=
  ∀ query options, 0 ≤ options.start.toInt → 0 ≤ options.rows.toInt →
    ∃ answer, solrQuery query options = .ok answer
      ∧ answer.products
          = ((results query options.filterQueries options.orderBy).drop
              options.start.toInt.toNat).take options.rows.toInt.toNat
      ∧ answer.numFound.toInt = (results query options.filterQueries options.orderBy).length

/-- The page with a number, counted from zero. -/
def numbered (sp : SearchParameters) (k : ℕ) : SearchParameters :=
  { sp with pageIndex := Int32.ofNat (k + 1) }

/-- What the action asks for under an order. -/
def requested (sp : SearchParameters) (order : Option σ) : QueryOptions σ where
  filterQueries := buildFilterQueries sp
  rows := sp.pageSize
  start := firstItemIndex sp
  orderBy := order.toList
  facet := (offeredFields sp).map (fun f => { field := f, minCount := 1 })

theorem index_of_sort {sp : SearchParameters} {order : Option σ}
    (hsort : parseSortOrder sp.sort = .ok order) :
    index parseSortOrder sp = .ok (buildQuery sp, requested sp order) := by
  have horder : getSelectedSort parseSortOrder sp = .ok order.toList := by
    rw [getSelectedSort, hsort]
    rfl
  unfold index
  rw [horder]
  rfl

theorem indexAction_of_answer {sp : SearchParameters} {query : SolrQuery}
    {options : QueryOptions σ} {answer : QueryResults Product}
    (hindex : index parseSortOrder sp = .ok (query, options))
    (hanswer : solrQuery query options = .ok answer) :
    indexAction parseSortOrder solrQuery isInvalidField sp
      = .ok ⟨sp, answer.products, answer.numFound, answer.facetFields, none, false⟩ := by
  have hview : searchView parseSortOrder solrQuery sp
      = .ok ⟨sp, answer.products, answer.numFound, answer.facetFields, none, false⟩ := by
    unfold searchView
    rw [hindex]
    show (solrQuery query options >>= _) = _
    rw [hanswer]
    rfl
  rw [indexAction, hview]

/-- **One page** shows its window of the results. -/
theorem indexAction_numbered {results : SolrQuery → List SolrQuery → List σ → List Product}
    (hsolr : AnswersWindows solrQuery results) {sp : SearchParameters} {order : Option σ}
    (hsort : parseSortOrder sp.sort = .ok order) (hsize : 0 < sp.pageSize.toInt) {k : ℕ}
    (hrange : ((k : ℤ) + 1) * sp.pageSize.toInt < 2 ^ 31) :
    ∃ view, indexAction parseSortOrder solrQuery isInvalidField (numbered sp k) = .ok view
      ∧ view.products = page sp.pageSize.toInt.toNat k
          (results (buildQuery sp) (buildFilterQueries sp) order.toList)
      ∧ view.totalCount.toInt
          = (results (buildQuery sp) (buildFilterQueries sp) order.toList).length := by
  have hle : ((k : ℤ) + 1) * 1 ≤ ((k : ℤ) + 1) * sp.pageSize.toInt :=
    Int.mul_le_mul_of_nonneg_left (by omega) (by omega)
  have hnumber : (numbered sp k).pageIndex.toInt = (k : ℤ) + 1 :=
    Int32.toInt_ofNat_of_lt (by omega)
  -- as long as an `int` counts it, the window is the one meant
  have hwindow : ValidWindow (numbered sp k) :=
    validWindow_of_range (by omega) (by show 1 ≤ sp.pageSize.toInt; omega) (by
      rw [hnumber]
      exact hrange)
  have hstart : (firstItemIndex (numbered sp k)).toInt = (k : ℤ) * sp.pageSize.toInt := by
    rw [hwindow.start_exact, hnumber, Int.add_sub_cancel]
    rfl
  have hindex : index parseSortOrder (numbered sp k)
      = .ok (buildQuery (numbered sp k), requested (numbered sp k) order) := index_of_sort hsort
  obtain ⟨answer, hanswer, hproducts, hfound⟩ := hsolr (buildQuery sp)
    (requested (numbered sp k) order) hwindow.start_nonneg (Int.le_of_lt hsize)
  refine ⟨_, indexAction_of_answer hindex hanswer, ?_, hfound⟩
  rw [show answer.products = _ from hproducts]
  show ((results (buildQuery sp) (buildFilterQueries sp) order.toList).drop
      (firstItemIndex (numbered sp k)).toInt.toNat).take sp.pageSize.toInt.toNat = _
  rw [hstart, page, Int.toNat_mul (by omega) (by omega), Int.toNat_natCast]

/-- What two lists have in common place by place they have in common. -/
theorem map_eq_of_forall₂ {α β γ : Type} {f : α → γ} {g : β → γ} {l : List α} {l' : List β}
    (h : List.Forall₂ (fun a b => g b = f a) l l') : l'.map g = l.map f := by
  induction h with
  | nil => rfl
  | cons hab _ ih => rw [List.map_cons, List.map_cons, hab, ih]

/-- **Page after page.** Where Solr answers with windows of one list of results, the views
of the first `n` pages of a search, as long as an `int` counts them, are all shown; their
products one page after the other are the first results, in order and none twice or left
out, and each view counts all results. -/
theorem pages_show_results {results : SolrQuery → List SolrQuery → List σ → List Product}
    (hsolr : AnswersWindows solrQuery results) {sp : SearchParameters} {order : Option σ}
    (hsort : parseSortOrder sp.sort = .ok order) (hsize : 0 < sp.pageSize.toInt) {n : ℕ}
    (hrange : (n : ℤ) * sp.pageSize.toInt < 2 ^ 31) :
    ∃ views, (List.range n).mapM
        (fun k => indexAction parseSortOrder solrQuery isInvalidField (numbered sp k)) = .ok views
      ∧ views.flatMap SolrViewModel.products
          = (results (buildQuery sp) (buildFilterQueries sp) order.toList).take
              (n * sp.pageSize.toInt.toNat)
      ∧ ∀ view ∈ views, view.totalCount.toInt
          = (results (buildQuery sp) (buildFilterQueries sp) order.toList).length := by
  have hpages : ∀ k ∈ List.range n, ∃ view,
      indexAction parseSortOrder solrQuery isInvalidField (numbered sp k) = .ok view
      ∧ view.products = page sp.pageSize.toInt.toNat k
          (results (buildQuery sp) (buildFilterQueries sp) order.toList)
      ∧ view.totalCount.toInt
          = (results (buildQuery sp) (buildFilterQueries sp) order.toList).length := by
    intro k hk
    have hk : ((k : ℤ) + 1) * sp.pageSize.toInt ≤ (n : ℤ) * sp.pageSize.toInt :=
      Int.mul_le_mul_of_nonneg_right (by have := List.mem_range.mp hk; omega) (by omega)
    exact indexAction_numbered hsolr hsort hsize (by omega)
  obtain ⟨views, hviews, hall⟩ := mapM_returns hpages
  refine ⟨views, hviews, ?_, fun view hview => ?_⟩
  · have hproducts := map_eq_of_forall₂ (hall.imp (fun _ _ h => h.1))
    rw [List.flatMap_def, hproducts, ← List.flatMap_def, flatMap_page]
  · have hcounts := map_eq_of_forall₂ (g := fun view => view.totalCount.toInt)
      (f := fun _ => ((results (buildQuery sp) (buildFilterQueries sp) order.toList).length : ℤ))
      (hall.imp (fun _ _ h => h.2))
    have hcount := List.mem_map_of_mem (f := fun view => view.totalCount.toInt) hview
    rw [hcounts] at hcount
    obtain ⟨k, -, hk⟩ := List.mem_map.mp hcount
    exact hk.symm

end Pages

/-- A Solr with three products, which it shows in windows. -/
def threeProducts (_ : SolrQuery) (options : QueryOptions Unit) :
    Except Exception (QueryResults String) :=
  .ok ⟨(["x", "y", "z"].drop options.start.toInt.toNat).take options.rows.toInt.toNat, 3, []⟩

/-- Two pages of two products. -/
theorem pages_show_three :
    ∃ views, (List.range 2).mapM (fun k => indexAction exampleSortOrder threeProducts
        (fun _ => false) (numbered ⟨none, 1, 2, empty, none⟩ k)) = .ok views
      ∧ views.flatMap SolrViewModel.products = ["x", "y", "z"] := by
  have hsolr : AnswersWindows threeProducts (fun _ _ _ => ["x", "y", "z"]) :=
    fun query options _ _ => ⟨_, rfl, rfl, rfl⟩
  obtain ⟨views, hviews, hproducts, -⟩ := @pages_show_results _ _ _ exampleSortOrder
    (fun _ => false) threeProducts _ hsolr ⟨none, 1, 2, empty, none⟩ none rfl (by decide) 2
    (by decide)
  exact ⟨views, hviews, hproducts⟩

end CgGuide.SearchResults
