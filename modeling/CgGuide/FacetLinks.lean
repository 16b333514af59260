/-
Facet links: what a request made by following a `SetFacet` or `RemoveFacet` link
is bound to.

Two parsers meet here. The link is written by `ParseQueryString`, which keeps the
last value of a repeated name, and read back by the framework, which joins them.
On a query without repeated names the two agree and a link changes one facet and
the page; on any other query the link first reduces it to its last values
(`keepLast`). The other differences between the parsers, a second equals sign in a
segment and a second question mark in the URL, are hypotheses of `facet_links`.
-/
import CgGuide.SearchParametersBinder

set_option autoImplicit false

namespace CgGuide.FacetLinks

open CgGuide.DotNet CgGuide.KeyedTable CgGuide.Dictionaries CgGuide.Dictionaries.Dictionary
open CgGuide.UrlHelperExtensions CgGuide.SearchParametersBinder

/-! ## A query as both parsers read it -/

section Reading

variable (u : HttpUtility) (m : CaseMapping)

/-- The framework reads the segments a link was printed from. -/
def asRead (segs : List (String × String)) : List (Option String × String) :=
  segs.map (fun e => (some e.1, e.2))

theorem readSegment_of_segment {seg name value : String} (h : Segment u seg name value) :
    readSegment u seg = (some name, value) := by
  obtain ⟨a, b, hseg, ha, -, rfl, rfl⟩ := h
  obtain ⟨htake, hdrop⟩ := @takeWhile_append_cons a.toList b.toList '=' ha
  simp only [readSegment, hseg, hdrop, htake, String.ofList_toList]

theorem readQuery_of_query {query : String} {segs : List (String × String)}
    (h : Query u query segs) : readQuery u query = asRead segs := by
  rcases h with ⟨rfl, rfl⟩ | h
  · rfl
  · have hne : query ≠ "" := by
      rintro rfl
      have hsplit : split "" '&' = [""] := by decide
      rw [hsplit] at h
      cases h with
      | cons hseg _ =>
        obtain ⟨a, b, hempty, -⟩ := hseg
        exact absurd hempty (by simp)
    rw [readQuery, if_neg hne, asRead]
    generalize split query '&' = parts at h
    induction h with
    | nil => rfl
    | cons hpart _ ih => rw [List.map_cons, List.map_cons, readSegment_of_segment u hpart, ih]

/-- What follows the first question mark. -/
theorem queryOf_of_append {url path query : String}
    (hurl : url.toList = path.toList ++ '?' :: query.toList) (hpath : '?' ∉ path.toList) :
    queryOf url = query :=
  (before_behind_of_append hurl hpath).2

theorem queryOf_of_link {url path : String} {segs : List (String × String)}
    (h : Link u url path segs) : readQuery u (queryOf url) = asRead segs := by
  obtain ⟨hpath, ⟨rfl, rfl⟩ | ⟨query, hurl, -, hquery⟩⟩ := h
  · rw [queryOf, dropWhile_of_not_mem hpath]
    rfl
  · rw [queryOf_of_append hurl hpath]
    exact readQuery_of_query u hquery

/-- A segment the framework finds a name in, with at most one equals sign. -/
theorem segment_of_readSegment {seg : String} (hname : (readSegment u seg).1 ≠ none)
    (hcount : seg.toList.count '=' ≤ 1) :
    ∃ name value, readSegment u seg = (some name, value) ∧ Segment u seg name value := by
  rcases separator_cases hcount with hno | ⟨a, b, hseg, ha, hb⟩
  · exact absurd (by rw [readSegment, dropWhile_of_not_mem hno]) hname
  · have hsegment : Segment u seg (u.urlDecode a) (u.urlDecode b) := ⟨a, b, hseg, ha, hb, rfl, rfl⟩
    exact ⟨_, _, readSegment_of_segment u hsegment, hsegment⟩

theorem query_of_readQuery {query : String}
    (hnames : ∀ e ∈ readQuery u query, e.1 ≠ none)
    (hcount : ∀ part ∈ split query '&', part.toList.count '=' ≤ 1) :
    ∃ segs, Query u query segs := by
  by_cases hempty : query = ""
  · exact ⟨[], Or.inl ⟨hempty, rfl⟩⟩
  · rw [readQuery, if_neg hempty] at hnames
    have hparts : ∀ part ∈ split query '&', ∃ e : String × String, Segment u part e.1 e.2 := by
      intro part hpart
      obtain ⟨name, value, -, hseg⟩ := segment_of_readSegment u
        (hnames _ (List.mem_map_of_mem hpart)) (hcount part hpart)
      exact ⟨(name, value), hseg⟩
    obtain ⟨segs, hsegs⟩ : ∃ segs, List.Forall₂
        (fun part (e : String × String) => Segment u part e.1 e.2) (split query '&') segs := by
      generalize split query '&' = parts at hparts
      induction parts with
      | nil => exact ⟨[], List.Forall₂.nil⟩
      | cons part parts ih =>
          obtain ⟨e, he⟩ := hparts part List.mem_cons_self
          obtain ⟨segs, hsegs⟩ := ih (fun p hp => hparts p (List.mem_cons_of_mem _ hp))
          exact ⟨e :: segs, List.Forall₂.cons he hsegs⟩
    exact ⟨segs, Or.inr hsegs⟩

/-- **An accepted URL** whose query both parsers cut alike is a link. -/
theorem link_of_accepted {url : String} (hmark : url.toList.count '?' ≤ 1)
    (hequals : ∀ part ∈ split (queryOf url) '&', part.toList.count '=' ≤ 1)
    (hnames : ∀ e ∈ readQuery u (queryOf url), e.1 ≠ none) :
    ∃ path segs, Link u url path segs := by
  rcases separator_cases hmark with hno | ⟨path, query, hurl, hpath, hquery⟩
  · exact ⟨url, [], hno, Or.inl ⟨rfl, rfl⟩⟩
  · -- the framework and `Split` cut at the same question mark, the only one
    rw [queryOf_of_append hurl hpath] at hequals hnames
    obtain ⟨segs, hsegs⟩ := query_of_readQuery u hnames hequals
    exact ⟨path, segs, hpath, Or.inr ⟨query, hurl, hquery, hsegs⟩⟩

/-- A collection has the null name when a segment has none. -/
theorem null_mem_allKeys {segs : List (Option String × String)}
    (h : ∃ e ∈ segs, e.1 = none) : none ∈ (ofSegments m segs).allKeys := by
  obtain ⟨e, he, hnone⟩ := h
  have hvalues : valuesOf m segs none ≠ [] := by
    intro hnil
    rw [valuesOf, List.map_eq_nil_iff, List.filter_eq_nil_iff] at hnil
    exact hnil e he (by rw [hnone]; rfl)
  have hget : (ofSegments m segs).get none ≠ none := by
    rw [get_ofSegments, if_neg hvalues]
    exact Option.some_ne_none _
  obtain ⟨k, hk, hkey⟩ := (mem_allKeys _ _).mpr hget
  rw [Option.map_none, Option.map_eq_none_iff] at hkey
  rw [← hkey]
  exact hk

/-- Segments with names give no null name. -/
theorem null_not_mem_allKeys (segs : List (String × String)) :
    none ∉ (ofSegments m (asRead segs)).allKeys := by
  intro h
  have hget := (mem_allKeys (ofSegments m (asRead segs)) none).mp ⟨none, h, rfl⟩
  have hvalues : valuesOf m (asRead segs) none = [] := by
    rw [valuesOf, List.map_eq_nil_iff, List.filter_eq_nil_iff]
    intro e he
    obtain ⟨x, -, rfl⟩ := List.mem_map.mp he
    simp
  rw [get_ofSegments, if_pos hvalues] at hget
  exact hget rfl

/-- Segments that are the entries of a dictionary answer as it does. -/
theorem get_asRead_rows (d : Dictionary m.ignoreCase String) (name : String) :
    (ofSegments m (asRead d.rows)).get (some name) = d.lookup name := by
  have hvalues : valuesOf m (asRead d.rows) (some name) = (d.lookup name).toList := by
    rw [← filter_rows d name, valuesOf, asRead, List.filter_map, List.map_map]
    congr 1
    apply List.filter_congr
    intro e _
    simp [Function.comp]
  rw [get_ofSegments, hvalues]
  cases d.lookup name with
  | none => rfl
  | some s => rw [Option.toList_some, if_neg (by simp), String.intercalate_singleton]

end Reading

/-! ## Last values -/

section LastValues

variable (m : CaseMapping)

/-- The segments that have a name. -/
def withName (segs : List (Option String × String)) : List (String × String) :=
  segs.filterMap (fun e => e.1.bind (fun name => if name = "" then none else some (name, e.2)))

/-- The query with each name once, with its last value. -/
def keepLast (segs : List (Option String × String)) : List (Option String × String) :=
  asRead (ofEntries (withName segs) : Dictionary m.ignoreCase String).rows

/-- No name is repeated, ignoring case. -/
def NoRepeats (segs : List (Option String × String)) : Prop :=
  ((withName segs).map (fun e => m.ignoreCase e.1)).Nodup

theorem withName_asRead_cons (e : String × String) (segs : List (String × String)) :
    withName (asRead (e :: segs))
      = if e.1 = "" then withName (asRead segs) else e :: withName (asRead segs) := by
  split_ifs with hempty
  · simp [withName, asRead, hempty]
  · simp [withName, asRead, hempty]

theorem named_eq (segs : List (String × String)) :
    named segs = (withName (asRead segs)).map (fun e => (e.1, some e.2)) := by
  induction segs with
  | nil => rfl
  | cons e segs ih =>
      rw [named_cons, withName_asRead_cons, ih]
      split_ifs
      · rfl
      · rfl

variable {m}

/-- The dictionary the link is written from holds the last values. -/
theorem lookup_named (segs : List (String × String)) (name : String) :
    (ofEntries (named segs) : QueryDictionary m.ignoreCase).lookup name
      = ((ofEntries (withName (asRead segs)) : Dictionary m.ignoreCase String).lookup name).map
          some := by
  rw [lookup_ofEntries, lookup_ofEntries, named_eq, lastValue_map]

/-- The empty name is no other name. -/
theorem ignoreCase_empty_ne {name : String} (hname : name ≠ "") :
    m.ignoreCase "" ≠ m.ignoreCase name := by
  intro hkey
  have hnil : name.toList = [] := List.map_eq_nil_iff.mp hkey.symm
  exact hname (String.toList_eq_nil_iff.mp hnil)

/-- What a printed dictionary answers under a name. -/
theorem lookup_printed (d : QueryDictionary m.ignoreCase) {name : String} (hname : name ≠ "") :
    (ofEntries (printed d.rows) : Dictionary m.ignoreCase String).lookup name
      = (d.lookup name).map (fun v => v.getD "") := by
  ext s
  rw [lookup_eq_some, rows_ofEntries (nodup_printed m d), Option.map_eq_some_iff, printed]
  constructor
  · rintro ⟨e, he, hkey, rfl⟩
    obtain ⟨k, hk, rfl⟩ := List.mem_map.mp he
    exact ⟨k.2, (lookup_eq_some d name k.2).mpr ⟨k, (List.mem_filter.mp hk).1, hkey, rfl⟩, rfl⟩
  · rintro ⟨v, hv, rfl⟩
    obtain ⟨k, hk, hkey, rfl⟩ := (lookup_eq_some d name v).mp hv
    refine ⟨(k.1, k.2.getD ""), List.mem_map.mpr ⟨k, List.mem_filter.mpr ⟨hk, ?_⟩, rfl⟩, hkey, rfl⟩
    -- an empty key would make the name empty too
    rw [isNullOrEmpty_some, Bool.not_eq_true', beq_eq_false_iff_ne]
    intro hempty
    rw [hempty] at hkey
    exact ignoreCase_empty_ne hname hkey

/-- **A printed link answers** with the values of the dictionary it was printed
from. -/
theorem get_printed (d : QueryDictionary m.ignoreCase) {name : String} (hname : name ≠ "") :
    (ofSegments m (asRead (printed d.rows))).get (some name)
      = (d.lookup name).map (fun v => v.getD "") := by
  rw [← lookup_printed d hname, ← get_asRead_rows, rows_ofEntries (nodup_printed m d)]

/-- Without repeated names the last values are the values. -/
theorem get_keepLast {segs : List (String × String)} (h : NoRepeats m (asRead segs)) {name : String}
    (hname : name ≠ "") :
    (ofSegments m (keepLast m (asRead segs))).get (some name)
      = (ofSegments m (asRead segs)).get (some name) := by
  rw [keepLast, rows_ofEntries h, get_ofSegments, get_ofSegments]
  have hvalues : valuesOf m (asRead (withName (asRead segs))) (some name)
      = valuesOf m (asRead segs) (some name) := by
    have hcons : ∀ (e : String × String) (l : List (String × String)),
        valuesOf m (asRead (e :: l)) (some name)
          = (if m.ignoreCase e.1 = m.ignoreCase name then [e.2] else [])
            ++ valuesOf m (asRead l) (some name) := by
      intro e l
      by_cases hkey : m.ignoreCase e.1 = m.ignoreCase name
      · simp [valuesOf, asRead, hkey]
      · simp [valuesOf, asRead, hkey]
    clear h
    induction segs with
    | nil => rfl
    | cons e segs ih =>
        rw [withName_asRead_cons]
        split_ifs with hempty
        · -- a segment without a name is not looked up
          have hne : ¬ m.ignoreCase e.1 = m.ignoreCase name := by
            rw [hempty]
            exact ignoreCase_empty_ne hname
          rw [hcons e segs, if_neg hne, List.nil_append, ih]
        · rw [hcons, hcons, ih]
  rw [hvalues]

end LastValues

/-! ## The fixed names -/

section FixedNames

variable (m : CaseMapping)

/-- A name without the prefix is no facet parameter. -/
theorem ignoreCase_ne_facetParameter {name : String} (h : isFacet name = false) (field : String) :
    m.ignoreCase name ≠ m.ignoreCase (facetParameter field) := by
  intro heq
  have hfacet := ((ignoreCase_eq_facetParameter_iff m name field).mp heq).1
  rw [h] at hfacet
  exact absurd hfacet (by decide)

/-- None of the other names the binder looks up is `page`. -/
theorem ignoreCase_ne_page : ∀ name ∈ ["q", "pageSize", "sort"],
    m.ignoreCase name ≠ m.ignoreCase "page" := by
  intro name hname heq
  simp only [List.mem_cons, List.not_mem_nil, or_false] at hname
  have hlength : name.toList.length = "page".toList.length := by
    have h := congrArg List.length heq
    rwa [CaseMapping.ignoreCase, CaseMapping.ignoreCase, List.length_map, List.length_map] at h
  rcases hname with rfl | rfl | rfl
  · exact absurd hlength (by decide)
  · exact absurd hlength (by decide)
  · -- as long as `page`, but with another first letter
    have hhead : m.fold 's' = m.fold 'p' := by
      have h := congrArg (fun l => l.headD 'x') heq
      exact h
    exact m.fold_p_ne_s hhead.symm

theorem ignoreCase_facetParameter_iff (field field' : String) :
    m.ignoreCase (facetParameter field) = m.ignoreCase (facetParameter field')
      ↔ m.ignoreCase field = m.ignoreCase field' := by
  rw [ignoreCase_facetParameter, ignoreCase_facetParameter, List.cons.injEq, List.cons.injEq]
  simp

theorem facetParameter_ne_page (field : String) :
    m.ignoreCase (facetParameter field) ≠ m.ignoreCase "page" :=
  Ne.symm (ignoreCase_ne_facetParameter m (by decide) field)

theorem facetParameter_ne_empty (field : String) : facetParameter field ≠ "" := by
  intro h
  have hlist := congrArg String.toList h
  rw [facetParameter, String.toList_append] at hlist
  exact absurd hlist (by simp)

end FixedNames

/-! ## Following a link -/

/-- Two parameters objects hold the same search. -/
structure Agree (m : CaseMapping) (sp sp' : SearchParameters) : Prop where
  freeSearch : sp'.freeSearch = sp.freeSearch
  pageIndex : sp'.pageIndex = sp.pageIndex
  pageSize : sp'.pageSize = sp.pageSize
  sort : sp'.sort = sp.sort
  facets : ∀ field, facetValues m sp' field = facetValues m sp field

/-- The same search on its first page, with these values for one facet field. -/
structure FacetChanged (m : CaseMapping) (sp sp' : SearchParameters) (field : String)
    (values : List (Option String)) : Prop where
  freeSearch : sp'.freeSearch = sp.freeSearch
  pageIndex : sp'.pageIndex = 1
  pageSize : sp'.pageSize = sp.pageSize
  sort : sp'.sort = sp.sort
  facets : ∀ other, facetValues m sp' other
    = if m.ignoreCase other = m.ignoreCase field then values else facetValues m sp other

section Following

variable (u : HttpUtility) (m : CaseMapping)

/-- What the answers of two queries have to be for the second one to be bound to
the first one's search with a facet changed. -/
theorem facetChanged_of_get {nv : NameValueCollection m} {sp : SearchParameters}
    (d : QueryDictionary m.ignoreCase) (field : String) (value : Option String)
    (hnv : none ∉ nv.allKeys) (hsp : bindModel m nv = .ok sp)
    (hpage : d.lookup "page" = some (some "1"))
    (hfield : (d.lookup (facetParameter field)).map (fun v => v.getD "") = value)
    (hother : ∀ name, name ≠ "" → m.ignoreCase name ≠ m.ignoreCase "page" →
      m.ignoreCase name ≠ m.ignoreCase (facetParameter field) →
      (d.lookup name).map (fun v => v.getD "") = nv.get (some name)) :
    ∃ sp', bindModel m (ofSegments m (asRead (printed d.rows))) = .ok sp'
      ∧ FacetChanged m sp sp' field (value.map some).toList := by
  obtain ⟨sp₀, hsp₀, hfree, -, hsize, hsort, hfacets⟩ := bindModel_spec hnv
  rw [hsp, Except.ok.injEq] at hsp₀
  rw [← hsp₀] at hfree hsize hsort hfacets
  obtain ⟨sp', hsp', hfree', hpage', hsize', hsort', hfacets'⟩ :=
    bindModel_spec (null_not_mem_allKeys m (printed d.rows))
  -- the three names that are neither the page nor a facet
  have hfixed : ∀ name ∈ ["q", "pageSize", "sort"], name ≠ "" → isFacet name = false →
      (ofSegments m (asRead (printed d.rows))).get (some name) = nv.get (some name) := by
    intro name hmem hne hfacet
    rw [get_printed d hne]
    exact hother name hne (ignoreCase_ne_page m name hmem)
      (ignoreCase_ne_facetParameter m hfacet field)
  refine ⟨sp', hsp', ?_, ?_, ?_, ?_, fun other => ?_⟩
  · rw [hfree', hfree, hfixed "q" (by simp) (by decide) (by decide)]
  · rw [hpage', get_printed d (by decide), hpage]
    decide
  · rw [hsize', hsize, hfixed "pageSize" (by simp) (by decide) (by decide)]
  · rw [hsort', hsort, hfixed "sort" (by simp) (by decide) (by decide)]
  · rw [hfacets', get_printed d (facetParameter_ne_empty other)]
    split_ifs with h
    · have hkey := (ignoreCase_facetParameter_iff m other field).mpr h
      rw [lookup_congr d hkey, hfield]
    · have hkey : m.ignoreCase (facetParameter other) ≠ m.ignoreCase (facetParameter field) := by
        rw [ne_eq, ignoreCase_facetParameter_iff]
        exact h
      rw [hother (facetParameter other) (facetParameter_ne_empty other)
        (facetParameter_ne_page m other) hkey, hfacets]

/-- The names of `SetFacet`'s two parameters differ. -/
theorem nodup_setFacet (field : String) (v v' : Object) :
    ([(facetParameter field, v), ("page", v')].map (fun p => m.ignoreCase p.1)).Nodup := by
  simpa using facetParameter_ne_page m field

/-- Following a `SetFacet` link. -/
theorem setFacet_spec {rawUrl path : String} {segs : List (String × String)}
    (h : Link u rawUrl path segs) {sp : SearchParameters}
    (hsp : bindModel m (ofSegments m (keepLast m (asRead segs))) = .ok sp) (field value : String) :
    ∃ url' sp', setFacet u m rawUrl field (some value) = .ok url'
      ∧ bindModel m (queryString u m url') = .ok sp'
      ∧ FacetChanged m sp sp' field [some value] := by
  obtain ⟨url', hurl', hlink⟩ := setParameters_spec u m h
    [(facetParameter field, .string value), ("page", .int 1)] (nodup_setFacet m field _ _)
  -- two assignments, the facet first and the page over it
  have hassign : (assign (ofEntries (named segs) : QueryDictionary m.ignoreCase)
      [(facetParameter field, .string value), ("page", .int 1)])
      = ((ofEntries (named segs) : QueryDictionary m.ignoreCase).set (facetParameter field)
          (some value)).set "page" (some "1") := rfl
  rw [hassign] at hlink
  obtain ⟨sp', hsp', hchanged⟩ := facetChanged_of_get m
    (((ofEntries (named segs) : QueryDictionary m.ignoreCase).set (facetParameter field)
      (some value)).set "page" (some "1"))
    field (some value) (null_not_mem_allKeys m _) hsp
    (by rw [lookup_set, if_pos rfl])
    (by rw [lookup_set, if_neg (facetParameter_ne_page m field), lookup_set, if_pos rfl,
      Option.map_some, Option.getD_some])
    (by
      intro name _ hpage hname
      rw [lookup_set, if_neg hpage, lookup_set, if_neg hname, lookup_named, Option.map_map,
        get_asRead_rows]
      exact Option.map_id')
  refine ⟨url', sp', hurl', ?_, hchanged⟩
  rw [queryString, queryOf_of_link u hlink]
  exact hsp'

/-- Following a `RemoveFacet` link, which was printed, read and printed again. -/
theorem removeFacet_spec {rawUrl path : String} {segs : List (String × String)}
    (h : Link u rawUrl path segs) {sp : SearchParameters}
    (hsp : bindModel m (ofSegments m (keepLast m (asRead segs))) = .ok sp) (field : String) :
    ∃ url' sp', removeFacet u m rawUrl field = .ok url'
      ∧ bindModel m (queryString u m url') = .ok sp' ∧ FacetChanged m sp sp' field [] := by
  obtain ⟨noFacet, hnoFacet, hlink₁⟩ := removeParametersUrl_spec u m h (facetParameter field)
  generalize hd : (ofEntries (named segs) : QueryDictionary m.ignoreCase) = d at hlink₁
  obtain ⟨url', hurl', hlink₂⟩ := setParameters_spec u m hlink₁ [("page", .string "1")]
    (List.nodup_singleton _)
  have hassign : (assign (ofEntries (named (printed (d.remove (facetParameter field)).rows)) :
      QueryDictionary m.ignoreCase) [("page", .string "1")])
      = (ofEntries (named (printed (d.remove (facetParameter field)).rows)) :
          QueryDictionary m.ignoreCase).set "page" (some "1") := rfl
  rw [hassign] at hlink₂
  -- what is left after the first printing, read again
  have hreread : ∀ name, name ≠ "" →
      (ofEntries (named (printed (d.remove (facetParameter field)).rows)) :
        QueryDictionary m.ignoreCase).lookup name
      = ((d.remove (facetParameter field)).lookup name).map (fun v => some (v.getD "")) := by
    intro name hname
    rw [named_printed, lookup_ofEntries, lastValue_map, ← lookup_ofEntries,
      lookup_printed _ hname, Option.map_map]
    rfl
  obtain ⟨sp', hsp', hchanged⟩ := facetChanged_of_get m
    ((ofEntries (named (printed (d.remove (facetParameter field)).rows)) :
      QueryDictionary m.ignoreCase).set "page" (some "1"))
    field none (null_not_mem_allKeys m _) hsp
    (by rw [lookup_set, if_pos rfl])
    (by
      rw [lookup_set, if_neg (facetParameter_ne_page m field),
        hreread _ (facetParameter_ne_empty field), lookup_remove, if_pos rfl]
      rfl)
    (by
      intro name hname hpage hother
      rw [lookup_set, if_neg hpage, hreread name hname, lookup_remove, if_neg hother, ← hd,
        lookup_named, Option.map_map, Option.map_map, get_asRead_rows]
      exact Option.map_id')
  refine ⟨url', sp', ?_, ?_, hchanged⟩
  · rw [removeFacet, hnoFacet]
    exact hurl'
  · rw [queryString, queryOf_of_link u hlink₂]
    exact hsp'

/-- **Facet links.** For a URL that the binder accepts, in which the two parsers
cut the query alike: the binding of the query with each repeated name at its last
value exists and is the binding of the query itself if no name is repeated, and
the links of `SetFacet` and `RemoveFacet` are bound to it with that one facet set
or absent and the page 1. -/
theorem facet_links {rawUrl : String} {sp : SearchParameters}
    (hbind : bindModel m (queryString u m rawUrl) = .ok sp)
    (hmark : rawUrl.toList.count '?' ≤ 1)
    (hequals : ∀ part ∈ split (queryOf rawUrl) '&', part.toList.count '=' ≤ 1) :
    ∃ spLast, bindModel m (ofSegments m (keepLast m (readQuery u (queryOf rawUrl)))) = .ok spLast
      ∧ (NoRepeats m (readQuery u (queryOf rawUrl)) → Agree m sp spLast)
      ∧ (∀ field value, ∃ url' sp', setFacet u m rawUrl field (some value) = .ok url'
          ∧ bindModel m (queryString u m url') = .ok sp'
          ∧ FacetChanged m spLast sp' field [some value])
      ∧ (∀ field, ∃ url' sp', removeFacet u m rawUrl field = .ok url'
          ∧ bindModel m (queryString u m url') = .ok sp'
          ∧ FacetChanged m spLast sp' field []) := by
  -- the binder refuses a segment without a name, so an accepted query has none
  have hnames : ∀ e ∈ readQuery u (queryOf rawUrl), e.1 ≠ none := by
    intro e he hnone
    rw [queryString, bindModel_null (null_mem_allKeys m ⟨e, he, hnone⟩)] at hbind
    exact absurd hbind (by simp)
  obtain ⟨path, segs, hlink⟩ := link_of_accepted u hmark hequals hnames
  rw [queryString, queryOf_of_link u hlink] at hbind
  rw [queryOf_of_link u hlink]
  obtain ⟨spLast, hlast, hfree', hpage', hsize', hsort', hfacets'⟩ :=
    bindModel_spec (null_not_mem_allKeys m
      (ofEntries (withName (asRead segs)) : Dictionary m.ignoreCase String).rows)
  refine ⟨spLast, hlast, fun hrepeats => ?_, fun field value => ?_, fun field => ?_⟩
  · obtain ⟨sp₀, hsp₀, hfree, hpage, hsize, hsort, hfacets⟩ :=
      bindModel_spec (null_not_mem_allKeys m segs)
    rw [hbind, Except.ok.injEq] at hsp₀
    rw [← hsp₀] at hfree hpage hsize hsort hfacets
    have hget : ∀ name, name ≠ "" → (ofSegments m (asRead (ofEntries (withName (asRead segs)) :
        Dictionary m.ignoreCase String).rows)).get (some name)
        = (ofSegments m (asRead segs)).get (some name) :=
      fun name hname => get_keepLast hrepeats hname
    refine ⟨?_, ?_, ?_, ?_, fun field => ?_⟩
    · rw [hfree', hfree, hget "q" (by decide)]
    · rw [hpage', hpage, hget "page" (by decide)]
    · rw [hsize', hsize, hget "pageSize" (by decide)]
    · rw [hsort', hsort, hget "sort" (by decide)]
    · rw [hfacets', hfacets, hget _ (facetParameter_ne_empty field)]
  · exact setFacet_spec u m hlink hlast field value
  · exact removeFacet_spec u m hlink hlast field

end Following

/-- What `/s?q=a&F_color=red&page=3` is bound to. -/
def redPage : SearchParameters where
  freeSearch := some "a"
  pageIndex := 3
  pageSize := 5
  facets := ⟨[("color", some "red")], by decide⟩
  sort := none

/-- The link that sets a second facet there keeps the search and the first one. -/
theorem facet_links_red :
    ∃ url' sp', setFacet exampleHttpUtility exampleCaseMapping "/s?q=a&F_color=red&page=3" "cat"
        (some "b") = .ok url'
      ∧ bindModel exampleCaseMapping (queryString exampleHttpUtility exampleCaseMapping url')
          = .ok sp'
      ∧ sp'.freeSearch = some "a" ∧ sp'.pageIndex = 1
      ∧ facetValues exampleCaseMapping sp' "Cat" = [some "b"]
      ∧ facetValues exampleCaseMapping sp' "color" = [some "red"] := by
  have hbind : bindModel exampleCaseMapping (queryString exampleHttpUtility exampleCaseMapping
      "/s?q=a&F_color=red&page=3") = .ok redPage := rfl
  obtain ⟨spLast, -, hagree, hset, -⟩ := facet_links exampleHttpUtility exampleCaseMapping hbind
    (by decide) (by decide)
  have hlast := hagree (by unfold NoRepeats; decide)
  obtain ⟨url', sp', hurl', hsp', hchanged⟩ := hset "cat" "b"
  refine ⟨url', sp', hurl', hsp', ?_, hchanged.pageIndex, ?_, ?_⟩
  · rw [hchanged.freeSearch, hlast.freeSearch]
    rfl
  · rw [hchanged.facets, if_pos (by decide)]
  · rw [hchanged.facets, if_neg (by decide), hlast.facets]
    rfl

/-- On a URL that names the search twice a link changes the search: the binder
reads both values joined, the link keeps the last. -/
theorem setFacet_drops_repeated :
    ¬ ∀ (rawUrl : String) (sp : SearchParameters),
      bindModel exampleCaseMapping (queryString exampleHttpUtility exampleCaseMapping rawUrl)
        = .ok sp →
      ∀ field value, ∃ url' sp',
        setFacet exampleHttpUtility exampleCaseMapping rawUrl field (some value) = .ok url'
          ∧ bindModel exampleCaseMapping (queryString exampleHttpUtility exampleCaseMapping url')
              = .ok sp'
          ∧ FacetChanged exampleCaseMapping sp sp' field [some value] := by
  intro h
  obtain ⟨url', sp', hurl', hsp', hchanged⟩ := h "/s?q=a&q=b" ⟨some "a,b", 1, 5, empty, none⟩ rfl
    "cat" "x"
  have hlink : setFacet exampleHttpUtility exampleCaseMapping "/s?q=a&q=b" "cat" (some "x")
      = .ok "/s?q=b&f_cat=x&page=1" := rfl
  rw [hlink, Except.ok.injEq] at hurl'
  have hbound : bindModel exampleCaseMapping (queryString exampleHttpUtility exampleCaseMapping
      "/s?q=b&f_cat=x&page=1") = .ok ⟨some "b", 1, 5, ⟨[("cat", some "x")], by decide⟩, none⟩ := rfl
  rw [← hurl', hbound, Except.ok.injEq] at hsp'
  have hfree := hchanged.freeSearch
  rw [← hsp'] at hfree
  exact absurd hfree (by decide)

end CgGuide.FacetLinks
