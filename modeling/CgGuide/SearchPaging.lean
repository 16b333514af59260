/-
`SolrController.Index`: the query a search sends, and the window of the results it
asks for.

The page number and the page size are whatever `int.Parse` made of the query string.
The position of the first item is computed from them twice, in `FirstItemIndex` for
the page shown and in `Index` for the query sent, both times in `int` arithmetic that
wraps around. The two agree; what they compute is the start of a window exactly for a
positive page and a positive size whose product an `int` holds (`validPaging_iff`).
Up to such a page every position lies in the window of exactly one page.
-/
import CgGuide.SearchParametersBinder
import Mathlib.Tactic.Ring

set_option autoImplicit false

namespace CgGuide.SearchPaging

open CgGuide.DotNet CgGuide.KeyedTable CgGuide.Dictionaries CgGuide.UrlHelperExtensions
open CgGuide.SearchParametersBinder

/-! ## Windows

Page `k ≥ 1` of pages of `size` positions shows the positions from `(k - 1) * size` up
to `k * size`. -/

/-- Every position is on one page. -/
theorem exists_unique_window {size : ℤ} (hsize : 0 < size) (position : ℤ) :
    ∃! k : ℤ, (k - 1) * size ≤ position ∧ position < k * size := by
  refine ⟨position / size + 1, ⟨?_, ?_⟩, ?_⟩
  · rw [Int.add_sub_cancel]
    exact Int.ediv_mul_le position (by omega)
  · exact Int.lt_ediv_add_one_mul_self position hsize
  · rintro k ⟨hstart, hlast⟩
    have hlow : k - 1 ≤ position / size := (Int.le_ediv_iff_mul_le hsize).mpr hstart
    have hhigh : position / size < k := (Int.ediv_lt_iff_lt_mul hsize).mpr hlast
    omega

/-- The page of a position that is not negative and before the end of page `n` is one
of the pages up to `n`. -/
theorem window_mem {size position k n : ℤ} (hsize : 0 < size) (hposition : 0 ≤ position)
    (hn : position < n * size) (hstart : (k - 1) * size ≤ position)
    (hlast : position < k * size) : 1 ≤ k ∧ k ≤ n := by
  have hmul : 0 < k * size := by omega
  have hpos : 0 < k := pos_of_mul_pos_left hmul (Int.le_of_lt hsize)
  have hle : k - 1 < n := lt_of_mul_lt_mul_right (by omega) (Int.le_of_lt hsize)
  omega

/-- An `int` result in range is exact. -/
theorem bmod_of_range {n : ℤ} (hlow : -2 ^ 31 ≤ n) (hhigh : n < 2 ^ 31) : n.bmod (2 ^ 32) = n :=
  Int.bmod_eq_of_le (by omega) (by omega)

/-! ## The query -/

/-- `SearchParameters.FirstItemIndex`. -/
def firstItemIndex (sp : SearchParameters) : Int32 := (sp.pageIndex - 1) * sp.pageSize

/-- `SearchParameters.LastItemIndex`. -/
def lastItemIndex (sp : SearchParameters) : Int32 := firstItemIndex sp + sp.pageSize

/-- The queries the action builds. -/
inductive SolrQuery
  | all
  | text (query : String)
  | field (name : String) (value : Option String)
deriving DecidableEq

/-- `SolrFacetFieldQuery`. -/
structure SolrFacetFieldQuery where
  field : String
  minCount : Int32
deriving DecidableEq

/-- `QueryOptions`, in the fields the action sets; the spell check has no settings. -/
structure QueryOptions (σ : Type) where
  filterQueries : List SolrQuery
  rows : Int32
  start : Int32
  orderBy : List σ
  facet : List SolrFacetFieldQuery

/-- `SolrController.AllFacetFields`. -/
def allFacetFields : List String := ["cat", "manu_exact"]

def buildQuery (sp : SearchParameters) : SolrQuery :=
  match sp.freeSearch with
  | none => .all
  | some freeSearch => if freeSearch = "" then .all else .text freeSearch

def buildFilterQueries (sp : SearchParameters) : List SolrQuery :=
  sp.facets.rows.map (fun p => .field p.1 p.2)

def selectedFacetFields (sp : SearchParameters) : List String := sp.facets.rows.map Prod.fst

section Index

-- `SortOrder.Parse` of the Solr client, which throws on a text it cannot read
variable {σ ε : Type} (parseSortOrder : Option String → Except ε (Option σ))

def getSelectedSort (sp : SearchParameters) : Except ε (List σ) :=
  (parseSortOrder sp.sort).map Option.toList

/-- `Index`, up to the query it sends. -/
def index (sp : SearchParameters) : Except ε (SolrQuery × QueryOptions σ) := do
  let start := (sp.pageIndex - 1) * sp.pageSize
  let orderBy ← getSelectedSort parseSortOrder sp
  return (buildQuery sp, {
    filterQueries := buildFilterQueries sp
    rows := sp.pageSize
    start := start
    orderBy := orderBy
    facet := (allFacetFields.filter (fun f => f ∉ selectedFacetFields sp)).map
      (fun f => { field := f, minCount := 1 }) })

/-- What is sent is the page of `FirstItemIndex`. -/
theorem index_window {sp : SearchParameters} {query : SolrQuery} {options : QueryOptions σ}
    (h : index parseSortOrder sp = .ok (query, options)) :
    options.rows = sp.pageSize ∧ options.start = firstItemIndex sp := by
  unfold index at h
  cases horder : getSelectedSort parseSortOrder sp with
  | error e =>
    rw [horder] at h
    exact absurd h (by simp [bind, Except.bind])
  | ok orderBy =>
    rw [horder] at h
    have hsent := Except.ok.inj h
    rw [Prod.mk.injEq] at hsent
    rw [← hsent.2]
    exact ⟨rfl, rfl⟩

end Index

/-! ## The window of a page -/

/-- The window of a page is what its numbers say, in exact arithmetic. -/
structure ValidWindow (sp : SearchParameters) : Prop where
  rows_pos : 0 < sp.pageSize.toInt
  start_exact : (firstItemIndex sp).toInt = (sp.pageIndex.toInt - 1) * sp.pageSize.toInt
  start_nonneg : 0 ≤ (firstItemIndex sp).toInt
  last_exact : (lastItemIndex sp).toInt = (firstItemIndex sp).toInt + sp.pageSize.toInt

/-- The position is in the window. -/
def InWindow (sp : SearchParameters) (position : ℤ) : Prop :=
  (firstItemIndex sp).toInt ≤ position ∧ position < (lastItemIndex sp).toInt

/-- The pages of the same size up to this one have windows, and each position before
the end of its window is in exactly one of them. -/
structure PagesCover (sp : SearchParameters) : Prop where
  valid : ∀ k : Int32, 1 ≤ k.toInt → k.toInt ≤ sp.pageIndex.toInt →
    ValidWindow { sp with pageIndex := k }
  adjacent : ∀ j k : Int32, 1 ≤ j.toInt → k.toInt = j.toInt + 1 →
    k.toInt ≤ sp.pageIndex.toInt →
    lastItemIndex { sp with pageIndex := j } = firstItemIndex { sp with pageIndex := k }
  cover : ∀ position : ℤ, 0 ≤ position → position < (lastItemIndex sp).toInt →
    ∃! k : Int32, 1 ≤ k.toInt ∧ k.toInt ≤ sp.pageIndex.toInt
      ∧ InWindow { sp with pageIndex := k } position

/-- A page inside the range of `int` has its window. -/
theorem validWindow_of_range {sp : SearchParameters} (hpage : 1 ≤ sp.pageIndex.toInt)
    (hsize : 1 ≤ sp.pageSize.toInt) (hrange : sp.pageIndex.toInt * sp.pageSize.toInt < 2 ^ 31) :
    ValidWindow sp := by
  have hpred : (sp.pageIndex - 1).toInt = sp.pageIndex.toInt - 1 := by
    have hhigh := sp.pageIndex.toInt_lt
    rw [Int32.toInt_sub]
    exact bmod_of_range (by simp; omega) (by simp; omega)
  have hsplit : (sp.pageIndex.toInt - 1) * sp.pageSize.toInt
      = sp.pageIndex.toInt * sp.pageSize.toInt - sp.pageSize.toInt := by ring
  have hnonneg : 0 ≤ (sp.pageIndex.toInt - 1) * sp.pageSize.toInt :=
    Int.mul_nonneg (by omega) (by omega)
  have hstart : (firstItemIndex sp).toInt = (sp.pageIndex.toInt - 1) * sp.pageSize.toInt := by
    rw [firstItemIndex, Int32.toInt_mul, hpred]
    exact bmod_of_range (by omega) (by omega)
  refine ⟨by omega, hstart, by omega, ?_⟩
  rw [lastItemIndex, Int32.toInt_add, hstart]
  exact bmod_of_range (by omega) (by omega)

theorem ValidWindow.lastItemIndex_toInt {sp : SearchParameters} (h : ValidWindow sp) :
    (lastItemIndex sp).toInt = sp.pageIndex.toInt * sp.pageSize.toInt := by
  rw [h.last_exact, h.start_exact]
  ring

/-- Only such a page has one. -/
theorem ValidWindow.range {sp : SearchParameters} (h : ValidWindow sp) :
    1 ≤ sp.pageIndex.toInt ∧ 1 ≤ sp.pageSize.toInt
      ∧ sp.pageIndex.toInt * sp.pageSize.toInt < 2 ^ 31 := by
  have hsize := h.rows_pos
  have hnonneg : 0 ≤ (sp.pageIndex.toInt - 1) * sp.pageSize.toInt := by
    rw [← h.start_exact]
    exact h.start_nonneg
  have hpage : 0 ≤ sp.pageIndex.toInt - 1 := Int.nonneg_of_mul_nonneg_left hnonneg hsize
  refine ⟨by omega, by omega, ?_⟩
  rw [← h.lastItemIndex_toInt]
  exact (lastItemIndex sp).toInt_lt

/-- The pages up to one inside the range are inside it. -/
theorem validWindow_of_le {sp : SearchParameters} (h : ValidWindow sp) {k : Int32}
    (hk : 1 ≤ k.toInt) (hle : k.toInt ≤ sp.pageIndex.toInt) :
    ValidWindow { sp with pageIndex := k } := by
  obtain ⟨-, hsize, hrange⟩ := h.range
  have hmul : k.toInt * sp.pageSize.toInt ≤ sp.pageIndex.toInt * sp.pageSize.toInt :=
    Int.mul_le_mul_of_nonneg_right hle (by omega)
  exact validWindow_of_range hk hsize (by show k.toInt * sp.pageSize.toInt < 2 ^ 31; omega)

/-- **The windows of the pages cover the positions**, without gap or overlap. -/
theorem pagesCover_of_valid {sp : SearchParameters} (h : ValidWindow sp) : PagesCover sp := by
  obtain ⟨-, hsize, -⟩ := h.range
  have hvalid : ∀ k : Int32, 1 ≤ k.toInt → k.toInt ≤ sp.pageIndex.toInt →
      ValidWindow { sp with pageIndex := k } := fun k hk hle => validWindow_of_le h hk hle
  refine ⟨hvalid, ?_, ?_⟩
  · intro j k hj hk hle
    have hwj := hvalid j hj (by omega)
    have hwk := hvalid k (by omega) hle
    apply Int32.toInt_inj.mp
    rw [hwj.lastItemIndex_toInt, hwk.start_exact]
    show j.toInt * sp.pageSize.toInt = (k.toInt - 1) * sp.pageSize.toInt
    rw [hk]
    ring
  · intro position hposition hlast
    rw [h.lastItemIndex_toInt] at hlast
    obtain ⟨k, ⟨hstart, hend⟩, hunique⟩ := exists_unique_window h.rows_pos position
    obtain ⟨hk, hkn⟩ := window_mem h.rows_pos hposition hlast hstart hend
    have hword : (Int32.ofInt k).toInt = k := by
      have hhigh := sp.pageIndex.toInt_lt
      exact Int32.toInt_ofInt_of_le (by omega) (by omega)
    -- the window of a page up to this one, as the product of its number and the size
    have hwindow : ∀ j : Int32, 1 ≤ j.toInt → j.toInt ≤ sp.pageIndex.toInt →
        (InWindow { sp with pageIndex := j } position
          ↔ (j.toInt - 1) * sp.pageSize.toInt ≤ position
            ∧ position < j.toInt * sp.pageSize.toInt) := by
      intro j hj hle
      have hw := hvalid j hj hle
      rw [InWindow, hw.lastItemIndex_toInt, hw.start_exact]
    refine ⟨Int32.ofInt k, ?_, ?_⟩
    · show _ ∧ _ ∧ _
      rw [hword]
      refine ⟨hk, hkn, ?_⟩
      rw [hwindow _ (by omega) (by omega), hword]
      exact ⟨hstart, hend⟩
    · rintro j ⟨hj, hle, hin⟩
      apply Int32.toInt_inj.mp
      rw [hword]
      exact hunique j.toInt ((hwindow j hj hle).mp hin)

/-! ## The paging of a query string -/

/-- The paging of the parameters is valid: what is sent is the window of the page, and
the windows of the pages up to it cover their positions. -/
structure ValidPaging {σ ε : Type} (parseSortOrder : Option String → Except ε (Option σ))
    (sp : SearchParameters) : Prop where
  sent : ∀ query options, index parseSortOrder sp = .ok (query, options) →
    options.rows = sp.pageSize ∧ options.start = firstItemIndex sp
  window : ValidWindow sp
  pages : PagesCover sp

section Bound

variable {m m' : CaseMapping}

/-- What the binder makes of the two numbers. -/
theorem bindModel_paging {nv : NameValueCollection m'} {sp : SearchParameters}
    (h : bindModel m nv = .ok sp) :
    sp.pageIndex = tryParse (nv.get (some "page")) 1
      ∧ sp.pageSize = tryParse (nv.get (some "pageSize")) defaultPageSize := by
  by_cases hnull : none ∈ nv.allKeys
  · rw [bindModel_null hnull] at h
    exact absurd h (by simp)
  · obtain ⟨names, -, hcopy⟩ := nvToDict_names (m := m) hnull
    obtain ⟨facets, -, hbind⟩ := bindModel_of_nvToDict hcopy
    rw [hbind] at h
    have hsp := Except.ok.inj h
    rw [← hsp]
    exact ⟨rfl, rfl⟩

/-- **The paging of a query string is valid** exactly when its page and its page size
are positive and the positions of the page are in the range of `int`. -/
theorem validPaging_iff {σ ε : Type} (parseSortOrder : Option String → Except ε (Option σ))
    {nv : NameValueCollection m'} {sp : SearchParameters} (h : bindModel m nv = .ok sp) :
    ValidPaging parseSortOrder sp
      ↔ 1 ≤ (tryParse (nv.get (some "page")) 1).toInt
        ∧ 1 ≤ (tryParse (nv.get (some "pageSize")) defaultPageSize).toInt
        ∧ (tryParse (nv.get (some "page")) 1).toInt
            * (tryParse (nv.get (some "pageSize")) defaultPageSize).toInt < 2 ^ 31 := by
  obtain ⟨hpage, hsize⟩ := bindModel_paging h
  rw [← hpage, ← hsize]
  constructor
  · intro hvalid
    exact hvalid.window.range
  · rintro ⟨hpage, hsize, hrange⟩
    have hwindow := validWindow_of_range hpage hsize hrange
    exact ⟨fun _ _ hsent => index_window parseSortOrder hsent, hwindow,
      pagesCover_of_valid hwindow⟩

end Bound

/-- The request of a page, where the client reads no sort order. -/
def exampleCollection (query : String) : NameValueCollection exampleCaseMapping :=
  ofSegments exampleCaseMapping (readQuery exampleHttpUtility query)

def exampleSortOrder : Option String → Except Exception (Option Unit) := fun _ => .ok none

/-- The second page of ten. -/
theorem validPaging_second :
    ∃ sp, bindModel exampleCaseMapping (exampleCollection "page=2&pageSize=10") = .ok sp
      ∧ ValidPaging exampleSortOrder sp := by
  obtain ⟨sp, hsp, -⟩ := @bindModel_spec exampleCaseMapping
    (exampleCollection "page=2&pageSize=10") (by decide)
  exact ⟨sp, hsp, (validPaging_iff exampleSortOrder hsp).mpr (by decide +kernel)⟩

/-- Page 0 is asked for from position -5 on. -/
theorem page_zero_invalid :
    ∃ sp, bindModel exampleCaseMapping (exampleCollection "page=0") = .ok sp
      ∧ (firstItemIndex sp).toInt = -5 ∧ ¬ ValidPaging exampleSortOrder sp := by
  obtain ⟨sp, hsp, -, hpage, hsize, -⟩ := @bindModel_spec exampleCaseMapping
    (exampleCollection "page=0") (by decide)
  have hstart : (firstItemIndex sp).toInt = -5 := by
    rw [firstItemIndex, hpage, hsize]
    decide +kernel
  refine ⟨sp, hsp, hstart, fun hvalid => ?_⟩
  have hnonneg := hvalid.window.start_nonneg
  omega

end CgGuide.SearchPaging
