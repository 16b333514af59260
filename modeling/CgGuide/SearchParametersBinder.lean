/-
`SearchParametersBinder`: the search parameters a request's query string is bound
to.

The query string is read by the framework, not by `ParseQueryString`: a segment is
cut at its first equals sign, one without an equals sign has no name, and the
values of a repeated name are kept together and read joined by commas. The binder
looks four names up in that collection and copies the rest into a dictionary, from
which it keeps the names that begin with `f_`.

What it binds is a function of what the collection answers to lookups
(`bindModel_spec`), so that two query strings with the same answers bind to the
same parameters.
-/
import CgGuide.UrlHelperExtensions

set_option autoImplicit false

namespace CgGuide.SearchParametersBinder

open CgGuide.DotNet CgGuide.KeyedTable CgGuide.Dictionaries CgGuide.Dictionaries.Dictionary
open CgGuide.UrlHelperExtensions

/-! ## `Request.QueryString` -/

/-- A `NameValueCollection`: under each name, in one of its spellings or null, the
values added for it. -/
abbrev NameValueCollection (m : CaseMapping) : Type :=
  Dictionary (fun name : Option String => name.map m.ignoreCase) (List String)

namespace NameValueCollection

variable {m : CaseMapping}

/-- `Add`. -/
def add (nv : NameValueCollection m) (name : Option String) (value : String) :
    NameValueCollection m :=
  nv.set name ((nv.lookup name).getD [] ++ [value])

/-- `nv[name]`. -/
def get (nv : NameValueCollection m) (name : Option String) : Option String :=
  (nv.lookup name).map (fun values => ",".intercalate values)

/-- `AllKeys`. -/
def allKeys (nv : NameValueCollection m) : List (Option String) := nv.rows.map Prod.fst

end NameValueCollection

/-- One segment of a query: its name, if it has one, and its value. -/
def readSegment (u : HttpUtility) (seg : String) : Option String × String :=
  match seg.toList.dropWhile (· != '=') with
  | [] => (none, u.urlDecode seg)  -- without an equals sign the segment is a value
  | _ :: value =>
    (some (u.urlDecode (String.ofList (seg.toList.takeWhile (· != '=')))),
      u.urlDecode (String.ofList value))

/-- The segments of a query, in order. -/
def readQuery (u : HttpUtility) (query : String) : List (Option String × String) :=
  if query = "" then [] else (split query '&').map (readSegment u)

def ofSegments (m : CaseMapping) (segs : List (Option String × String)) : NameValueCollection m :=
  segs.foldl (fun nv e => nv.add e.1 e.2) empty

/-- The query of a URL: what follows its first question mark. -/
def queryOf (url : String) : String := String.ofList ((url.toList.dropWhile (· != '?')).drop 1)

/-- `Request.QueryString` of a request with this `RawUrl`. -/
def queryString (u : HttpUtility) (m : CaseMapping) (rawUrl : String) : NameValueCollection m :=
  ofSegments m (readQuery u (queryOf rawUrl))

/-! ## The binder -/

/-- `SearchParameters`. -/
structure SearchParameters where
  freeSearch : Option String
  pageIndex : Int32
  pageSize : Int32
  facets : QueryDictionary (id : String → String)
  sort : Option String

/-- `SearchParameters.DefaultPageSize`. -/
def defaultPageSize : Int32 := 5

/-- `StringHelper.TryParse`: every exception of `int.Parse` gives the default. -/
def tryParse (s : Option String) (defaultValue : Int32) : Int32 :=
  (s.bind int32TryParse).getD defaultValue

/-- `StringHelper.EmptyToNull`. -/
def emptyToNull (s : Option String) : Option String := if isNullOrEmpty s then none else s

/-- `FacetRegex.IsMatch`: the text begins with `f_` in either case. -/
def isFacet (name : String) : Bool :=
  match name.toList with
  | c :: c' :: _ => (c == 'f' || c == 'F') && c' == '_'
  | _ => false

/-- `FacetRegex.Replace(name, "")` on a match. -/
def stripFacet (name : String) : String := String.ofList (name.toList.drop 2)

section Binder

-- the dictionary compares by `m`, the collection of the framework by `m'`
variable (m : CaseMapping) {m' : CaseMapping}

/-- `d[k] = nv[k]`; a dictionary has no null key. -/
def copyKey (nv : NameValueCollection m') (d : QueryDictionary m.ignoreCase) :
    Option String → Except Exception (QueryDictionary m.ignoreCase)
  | none => .error { type := .argumentNull }
  | some name => .ok (d.set name (nv.get (some name)))

/-- `NVToDict`. -/
def nvToDict (nv : NameValueCollection m') : Except Exception (QueryDictionary m.ignoreCase) :=
  nv.allKeys.foldlM (copyKey m nv) empty

/-- `ToDictionary`, with the default comparer. -/
def toDictionary (l : List (String × Option String)) :
    Except Exception (QueryDictionary (id : String → String)) :=
  match l.foldlM (fun d e => d.add e.1 e.2) (empty : QueryDictionary (id : String → String)) with
  | none => .error { type := .argument }
  | some d => .ok d

/-- The entries of `qsDict` that name a facet, under the rest of their names. -/
def facetEntries (qsDict : List (String × Option String)) : List (String × Option String) :=
  (qsDict.filter (fun k => isFacet k.1)).map (fun k => (stripFacet k.1, k.2))

/-- `BindModel`. -/
def bindModel (qs : NameValueCollection m') : Except Exception SearchParameters := do
  let qsDict ← nvToDict m qs
  let facets ← toDictionary (facetEntries qsDict.rows)
  return {
    freeSearch := emptyToNull (qs.get (some "q"))
    pageIndex := tryParse (qs.get (some "page")) 1
    pageSize := tryParse (qs.get (some "pageSize")) defaultPageSize
    sort := emptyToNull (qs.get (some "sort"))
    facets := facets }

end Binder

/-- The values bound for a facet field, its name compared ignoring case. -/
def facetValues (m : CaseMapping) (sp : SearchParameters) (field : String) : List (Option String) :=
  (sp.facets.rows.filter (fun e => decide (m.ignoreCase e.1 = m.ignoreCase field))).map Prod.snd

/-! ## Names -/

section Names

variable (m : CaseMapping)

theorem ignoreCase_facetParameter (field : String) :
    m.ignoreCase (facetParameter field) = m.fold 'f' :: m.fold '_' :: m.ignoreCase field := by
  rw [CaseMapping.ignoreCase, facetParameter, String.toList_append, List.map_append]
  rfl

/-- The names that are a facet parameter ignoring case are those the expression
matches, and what it leaves of them is the field. -/
theorem ignoreCase_eq_facetParameter_iff (name field : String) :
    m.ignoreCase name = m.ignoreCase (facetParameter field)
      ↔ isFacet name = true ∧ m.ignoreCase (stripFacet name) = m.ignoreCase field := by
  rw [ignoreCase_facetParameter]
  unfold CaseMapping.ignoreCase isFacet stripFacet
  rw [String.toList_ofList]
  rcases name.toList with _ | ⟨c, _ | ⟨c', rest⟩⟩
  · simp
  · simp
  · rw [List.map_cons, List.map_cons, List.cons.injEq, List.cons.injEq, m.fold_f,
      m.fold_underscore]
    show _ ↔ ((c == 'f' || c == 'F') && c' == '_') = true ∧ rest.map m.fold = _
    rw [Bool.and_eq_true, Bool.or_eq_true, beq_iff_eq, beq_iff_eq, beq_iff_eq, and_assoc]

end Names

/-! ## Lookups -/

section Lookups

variable {m : CaseMapping}

/-- The values a list of segments has under a name, ignoring case. -/
def valuesOf (m : CaseMapping) (segs : List (Option String × String)) (name : Option String) :
    List String :=
  (segs.filter (fun e => decide (e.1.map m.ignoreCase = name.map m.ignoreCase))).map Prod.snd

/-- A collection holds the values of its segments, in order. -/
theorem lookup_ofSegments (segs : List (Option String × String)) (name : Option String) :
    (ofSegments m segs).lookup name
      = if valuesOf m segs name = [] then none else some (valuesOf m segs name) := by
  induction segs using List.reverseRecOn with
  | nil => rfl
  | append_singleton segs e ih =>
      have hadd : ofSegments m (segs ++ [e]) = (ofSegments m segs).add e.1 e.2 := by
        rw [ofSegments, List.foldl_append]
        rfl
      have hvalues : valuesOf m (segs ++ [e]) name
          = valuesOf m segs name
            ++ if e.1.map m.ignoreCase = name.map m.ignoreCase then [e.2] else [] := by
        rw [valuesOf, List.filter_append, List.map_append, valuesOf]
        congr 1
        split_ifs with h
        · simp [h]
        · simp [h]
      rw [hadd, NameValueCollection.add, lookup_set, hvalues]
      -- the new segment is one more value under its own name and none under another
      by_cases h : e.1.map m.ignoreCase = name.map m.ignoreCase
      · have hcongr : (ofSegments m segs).lookup e.1 = (ofSegments m segs).lookup name :=
          lookup_congr _ h
        rw [if_pos h.symm, if_pos h, if_neg (by simp), hcongr, ih]
        split_ifs with hnil
        · rw [hnil, Option.getD_none]
        · rw [Option.getD_some]
      · rw [if_neg (Ne.symm h), if_neg h, List.append_nil, ih]

/-- Under a name that occurs once there is its value. -/
theorem get_ofSegments (segs : List (Option String × String)) (name : Option String) :
    (ofSegments m segs).get name
      = if valuesOf m segs name = [] then none
        else some (",".intercalate (valuesOf m segs name)) := by
  rw [NameValueCollection.get, lookup_ofSegments]
  split_ifs
  · rfl
  · rfl

/-- The keys of a collection are the names of its segments. -/
theorem mem_allKeys (nv : NameValueCollection m) (name : Option String) :
    (∃ k ∈ nv.allKeys, k.map m.ignoreCase = name.map m.ignoreCase) ↔ nv.get name ≠ none := by
  rw [NameValueCollection.get, ne_eq, Option.map_eq_none_iff, lookup, Option.map_eq_none_iff,
    nv.find?_eq_none, NameValueCollection.allKeys]
  simp

end Lookups

/-! ## What is bound -/

section Bound

variable {m m' : CaseMapping}

/-- A segment without a name makes the copy throw. -/
theorem foldlM_copyKey_null (nv : NameValueCollection m') (keys : List (Option String)) :
    ∀ d : QueryDictionary m.ignoreCase, none ∈ keys →
      keys.foldlM (copyKey m nv) d = .error { type := .argumentNull } := by
  induction keys with
  | nil => exact fun d h => absurd h List.not_mem_nil
  | cons k keys ih =>
      intro d h
      rw [List.foldlM_cons]
      cases k with
      | none => rfl
      | some name =>
        have htail : none ∈ keys := (List.mem_cons.mp h).resolve_left (by simp)
        exact ih _ htail

theorem foldlM_copyKey_names (nv : NameValueCollection m') (names : List String) :
    ∀ d : QueryDictionary m.ignoreCase, (names.map some).foldlM (copyKey m nv) d
      = .ok (d.setAll (names.map (fun name => (name, nv.get (some name))))) := by
  induction names with
  | nil => exact fun d => rfl
  | cons name names ih =>
      intro d
      rw [List.map_cons, List.foldlM_cons]
      exact ih _

theorem exists_names {keys : List (Option String)} (h : none ∉ keys) :
    ∃ names : List String, keys = names.map some := by
  induction keys with
  | nil => exact ⟨[], rfl⟩
  | cons k keys ih =>
      rw [List.mem_cons, not_or] at h
      obtain ⟨name, rfl⟩ := Option.ne_none_iff_exists'.mp (Ne.symm h.1)
      obtain ⟨names, rfl⟩ := ih h.2
      exact ⟨name :: names, rfl⟩

/-- Without one, the copy is the assignment of what is found under each key. -/
theorem nvToDict_names {nv : NameValueCollection m'} (h : none ∉ nv.allKeys) :
    ∃ names : List String, nv.allKeys = names.map some
      ∧ nvToDict m nv = .ok (ofEntries (names.map (fun name => (name, nv.get (some name))))) := by
  obtain ⟨names, hnames⟩ := exists_names h
  refine ⟨names, hnames, ?_⟩
  rw [nvToDict, hnames]
  exact foldlM_copyKey_names nv names empty

/-- It answers lookups as the collection does if both have one comparer. -/
theorem nvToDict_ok {nv : NameValueCollection m} (h : none ∉ nv.allKeys) :
    ∃ d, nvToDict m nv = .ok d ∧ ∀ name, d.lookup name = (nv.get (some name)).map some := by
  obtain ⟨names, hnames, hcopy⟩ := nvToDict_names (m := m) h
  have hnodup : (names.map m.ignoreCase).Nodup := by
    have hkeys : (nv.allKeys.map (fun name => name.map m.ignoreCase)).Nodup := by
      rw [NameValueCollection.allKeys, List.map_map]
      exact nv.keys_nodup
    rw [hnames, List.map_map] at hkeys
    apply List.Nodup.of_map some
    rw [List.map_map]
    exact hkeys
  refine ⟨ofEntries (names.map (fun name => (name, nv.get (some name)))), hcopy, fun name => ?_⟩
  have hrows : (ofEntries (names.map (fun name => (name, nv.get (some name)))) :
      QueryDictionary m.ignoreCase).rows
      = names.map (fun name => (name, nv.get (some name))) := by
    apply rows_ofEntries
    rw [List.map_map]
    exact hnodup
  have hmem := mem_allKeys nv (some name)
  rw [hnames] at hmem
  have hcongr : ∀ k, m.ignoreCase k = m.ignoreCase name →
      nv.get (some k) = nv.get (some name) := by
    intro k hk
    have hkey : (some k).map m.ignoreCase = (some name).map m.ignoreCase := congrArg some hk
    rw [NameValueCollection.get, NameValueCollection.get, lookup_congr nv hkey]
  cases hget : nv.get (some name) with
  | none =>
    rw [Option.map_none]
    by_contra hne
    obtain ⟨v, hv⟩ := Option.ne_none_iff_exists'.mp hne
    rw [lookup_eq_some, hrows] at hv
    obtain ⟨e, he, hkey, -⟩ := hv
    obtain ⟨k, hk, rfl⟩ := List.mem_map.mp he
    exact hmem.mp ⟨some k, List.mem_map_of_mem hk, congrArg some hkey⟩ hget
  | some s =>
    rw [Option.map_some, lookup_eq_some, hrows]
    obtain ⟨key, hkey, hfold⟩ := hmem.mpr (by rw [hget]; exact Option.some_ne_none s)
    obtain ⟨k, hk, rfl⟩ := List.mem_map.mp hkey
    have hk' : m.ignoreCase k = m.ignoreCase name := Option.some.inj hfold
    exact ⟨(k, nv.get (some k)), List.mem_map_of_mem hk, hk', by rw [hcongr k hk', hget]⟩

/-- Distinct keys make a dictionary of the same entries. -/
theorem toDictionary_ok {l : List (String × Option String)} (h : (l.map Prod.fst).Nodup) :
    ∃ d, toDictionary l = .ok d ∧ d.rows = l := by
  have hnodup : (l.map (fun e => id e.1)).Nodup := h
  refine ⟨ofEntries l, ?_, rows_ofEntries hnodup⟩
  rw [toDictionary, foldlM_add l empty hnodup (fun _ _ => rfl)]
  rfl

/-- No two names leave the same field: the same text behind the prefix is the
same name, ignoring case. -/
theorem nodup_facetEntries (d : QueryDictionary m.ignoreCase) :
    ((facetEntries d.rows).map Prod.fst).Nodup := by
  have hkeys : ((d.rows.filter (fun k => isFacet k.1)).map (fun e => m.ignoreCase e.1)).Nodup :=
    (List.Sublist.map _ List.filter_sublist).nodup d.keys_nodup
  have hdistinct : (d.rows.filter (fun k => isFacet k.1)).Nodup := hkeys.of_map
  have hmap : (facetEntries d.rows).map Prod.fst
      = (d.rows.filter (fun k => isFacet k.1)).map (fun k => stripFacet k.1) := by
    rw [facetEntries, List.map_map]
    rfl
  -- two entries with one field name have one parameter name, ignoring case
  rw [hmap, List.nodup_map_iff_inj_on hdistinct]
  rw [List.nodup_map_iff_inj_on hdistinct] at hkeys
  intro x hx y hy hxy
  apply hkeys x hx y hy
  have hx' := (ignoreCase_eq_facetParameter_iff m x.1 (stripFacet x.1)).mpr
    ⟨(List.mem_filter.mp hx).2, rfl⟩
  have hy' := (ignoreCase_eq_facetParameter_iff m y.1 (stripFacet y.1)).mpr
    ⟨(List.mem_filter.mp hy).2, rfl⟩
  rw [hx', hy', hxy]

/-- The values of a field are those of its parameter. -/
theorem filter_facetEntries (d : QueryDictionary m.ignoreCase) (field : String) :
    ((facetEntries d.rows).filter (fun e => decide (m.ignoreCase e.1 = m.ignoreCase field))).map
      Prod.snd = (d.lookup (facetParameter field)).toList := by
  have hfilter : ∀ k : String × Option String,
      (decide (m.ignoreCase (stripFacet k.1) = m.ignoreCase field) && isFacet k.1)
        = decide (m.ignoreCase k.1 = m.ignoreCase (facetParameter field)) := by
    intro k
    rw [Bool.eq_iff_iff, Bool.and_eq_true, decide_eq_true_eq, decide_eq_true_eq,
      ignoreCase_eq_facetParameter_iff, and_comm]
  rw [← filter_rows d (facetParameter field), facetEntries, List.filter_map, List.map_map,
    List.filter_filter, ← List.filter_congr (fun k _ => hfilter k)]
  rfl

/-- **`BindModel` throws on a segment without a name.** -/
theorem bindModel_null {nv : NameValueCollection m'} (h : none ∈ nv.allKeys) :
    bindModel m nv = .error { type := .argumentNull } := by
  rw [bindModel, nvToDict, foldlM_copyKey_null nv nv.allKeys empty h]
  rfl

/-- Where the copy succeeds the binding does, and the facets are the entries of the
copy that name one. -/
theorem bindModel_of_nvToDict {nv : NameValueCollection m'} {d : QueryDictionary m.ignoreCase}
    (hd : nvToDict m nv = .ok d) :
    ∃ facets : QueryDictionary (id : String → String), facets.rows = facetEntries d.rows
      ∧ bindModel m nv = .ok ⟨emptyToNull (nv.get (some "q")), tryParse (nv.get (some "page")) 1,
          tryParse (nv.get (some "pageSize")) defaultPageSize, facets,
          emptyToNull (nv.get (some "sort"))⟩ := by
  obtain ⟨facets, hfacets, hrows⟩ := toDictionary_ok (nodup_facetEntries d)
  refine ⟨facets, hrows, ?_⟩
  rw [bindModel, hd, ok_bind, hfacets, ok_bind]
  rfl

/-- **What `BindModel` binds**, as lookups in the collection. -/
theorem bindModel_spec {nv : NameValueCollection m} (h : none ∉ nv.allKeys) :
    ∃ sp, bindModel m nv = .ok sp
      ∧ sp.freeSearch = emptyToNull (nv.get (some "q"))
      ∧ sp.pageIndex = tryParse (nv.get (some "page")) 1
      ∧ sp.pageSize = tryParse (nv.get (some "pageSize")) defaultPageSize
      ∧ sp.sort = emptyToNull (nv.get (some "sort"))
      ∧ ∀ field, facetValues m sp field
          = ((nv.get (some (facetParameter field))).map some).toList := by
  obtain ⟨d, hd, hlookup⟩ := nvToDict_ok h
  obtain ⟨facets, hrows, hbind⟩ := bindModel_of_nvToDict hd
  refine ⟨_, hbind, rfl, rfl, rfl, rfl, fun field => ?_⟩
  rw [← hlookup, ← filter_facetEntries, ← hrows]
  rfl

end Bound

end CgGuide.SearchParametersBinder
