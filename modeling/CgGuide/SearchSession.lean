/-
A session on the search page: from URL to URL by the links the page shows.

The search page keeps no state on the server. What its user has chosen so far is in
the URL, and every link of the page is that URL rewritten: `SetFacet` for each value
of a facet that is offered, `RemoveFacet` for each facet that is chosen, and the form,
which starts a search over. `Search` is what the user takes the page to be, a search
with at most one value for each facet field, and `Search.click` what a click is meant
to do to it. Following the links does exactly that, over any number of clicks
(`session_shows`).
-/
import CgGuide.FacetLinks
import CgGuide.Runs

set_option autoImplicit false

namespace CgGuide.SearchSession

open CgGuide.DotNet CgGuide.KeyedTable CgGuide.Dictionaries CgGuide.Dictionaries.Dictionary
open CgGuide.UrlHelperExtensions CgGuide.SearchParametersBinder CgGuide.FacetLinks CgGuide.Runs

/-! ## Searches -/

/-- A search as its user sees it. -/
@[ext] structure Search where
  freeSearch : Option String
  sort : Option String
  pageSize : Int32
  pageIndex : Int32
  /-- The value chosen for a facet field. -/
  facet : String → Option String

/-- What can be clicked: a facet value, a chosen facet, and the button of the form. -/
inductive Click
  | setFacet (field value : String)
  | removeFacet (field : String)
  | submit (text : String)
deriving DecidableEq

section Abstract

variable (m : CaseMapping)

/-- One facet field, in any spelling, has this value from now on. -/
def Search.withFacet (s : Search) (field : String) (value : Option String) : Search :=
  { s with
    pageIndex := 1
    facet := fun other =>
      if m.ignoreCase other = m.ignoreCase field then value else s.facet other }

/-- A new search for a text. -/
def Search.start (text : String) : Search where
  freeSearch := emptyToNull (some text)
  sort := none
  pageSize := defaultPageSize
  pageIndex := 1
  facet := fun _ => none

/-- What a click is meant to do. -/
def Search.click (s : Search) : Click → Search
  | .setFacet field value => s.withFacet m field (some value)
  | .removeFacet field => s.withFacet m field none
  | .submit text => .start text

/-- The search that bound parameters stand for. -/
def searchOf (sp : SearchParameters) : Search where
  freeSearch := sp.freeSearch
  sort := sp.sort
  pageSize := sp.pageSize
  pageIndex := sp.pageIndex
  facet := fun field => (facetValues m sp field).head?.join

/-- A facet changed is one value changed. -/
theorem searchOf_facetChanged {sp sp' : SearchParameters} {field : String} {value : Option String}
    (h : FacetChanged m sp sp' field (value.map some).toList) :
    searchOf m sp' = (searchOf m sp).withFacet m field value := by
  ext1
  · exact h.freeSearch
  · exact h.sort
  · exact h.pageSize
  · exact h.pageIndex
  · funext other
    show (facetValues m sp' other).head?.join
      = if m.ignoreCase other = m.ignoreCase field then value
        else (facetValues m sp other).head?.join
    rw [h.facets]
    split_ifs
    · cases value with
      | none => rfl
      | some v => rfl
    · rfl

end Abstract

/-! ## Following the links -/

/-- How the browser encodes the fields of a form. -/
structure FormEncoding (u : HttpUtility) where
  encode : String → String
  urlDecode_encode : ∀ s, u.urlDecode (encode s) = s
  encode_plain : ∀ s, ∀ c ∈ (encode s).toList, c ≠ '&' ∧ c ≠ '=' ∧ c ≠ '?'

section Links

variable (u : HttpUtility) (m : CaseMapping) (form : FormEncoding u)

/-- The URL of the form's request; `action` is the URL of the form. -/
def submitted (action text : String) : String :=
  action ++ "?" ++ form.encode "q" ++ "=" ++ form.encode text

/-- The URL behind what is clicked on the page of this URL. -/
def follow (action rawUrl : String) : Click → Except Exception String
  | .setFacet field value => setFacet u m rawUrl field (some value)
  | .removeFacet field => removeFacet u m rawUrl field
  | .submit text => .ok (submitted u form action text)

/-- One click of a session; one that has failed stays where it is. -/
def click (action : String) (url : Except Exception String) (c : Click) :
    Except Exception String := do
  let rawUrl ← url
  follow u m form action rawUrl c

/-- A URL that both parsers read alike, without repeated names. -/
def Plain (rawUrl : String) : Prop :=
  ∃ path segs, Link u rawUrl path segs ∧ NoRepeats m (asRead segs)

/-- A dictionary prints no name twice. -/
theorem noRepeats_printed (d : QueryDictionary m.ignoreCase) :
    NoRepeats m (asRead (printed d.rows)) := by
  -- what is printed is read back, and the keys of a dictionary differ
  have hkept : (withName (asRead (printed d.rows))).map (fun e => (e.1, some e.2))
      = (printed d.rows).map (fun e => (e.1, some e.2)) := by
    rw [← named_eq, named_printed]
  have hnames := congrArg (fun l => l.map (fun e => m.ignoreCase e.1)) hkept
  simp only [List.map_map] at hnames
  rw [NoRepeats]
  exact hnames ▸ nodup_printed m d

/-- Two collections that answer alike are bound to the same search. -/
theorem agree_of_get {nv nv' : NameValueCollection m} {sp : SearchParameters}
    (hnv : none ∉ nv.allKeys) (hnv' : none ∉ nv'.allKeys)
    (hget : ∀ name, name ≠ "" → nv'.get (some name) = nv.get (some name))
    (hsp : bindModel m nv = .ok sp) : ∃ sp', bindModel m nv' = .ok sp' ∧ Agree m sp sp' := by
  obtain ⟨sp₀, hsp₀, hfree, hpage, hsize, hsort, hfacets⟩ := bindModel_spec hnv
  rw [hsp, Except.ok.injEq] at hsp₀
  rw [← hsp₀] at hfree hpage hsize hsort hfacets
  -- the binder looks up five kinds of names, and both collections answer them alike
  obtain ⟨sp', hsp', hfree', hpage', hsize', hsort', hfacets'⟩ := bindModel_spec hnv'
  refine ⟨sp', hsp', ?_, ?_, ?_, ?_, fun field => ?_⟩
  · rw [hfree', hfree, hget "q" (by decide)]
  · rw [hpage', hpage, hget "page" (by decide)]
  · rw [hsize', hsize, hget "pageSize" (by decide)]
  · rw [hsort', hsort, hget "sort" (by decide)]
  · rw [hfacets', hfacets, hget _ (facetParameter_ne_empty field)]

/-- On a plain URL the last values are all there is. -/
theorem agree_keepLast {segs : List (String × String)} (h : NoRepeats m (asRead segs))
    {sp : SearchParameters} (hsp : bindModel m (ofSegments m (asRead segs)) = .ok sp) :
    ∃ spLast, bindModel m (ofSegments m (keepLast m (asRead segs))) = .ok spLast
      ∧ Agree m sp spLast :=
  agree_of_get m (null_not_mem_allKeys m segs) (null_not_mem_allKeys m _)
    (fun _ hname => get_keepLast h hname) hsp

/-- A facet changed in a search that agrees with another is changed in that one. -/
theorem facetChanged_of_agree {sp spLast sp' : SearchParameters} {field : String}
    {values : List (Option String)} (hagree : Agree m sp spLast)
    (h : FacetChanged m spLast sp' field values) : FacetChanged m sp sp' field values where
  freeSearch := h.freeSearch.trans hagree.freeSearch
  pageIndex := h.pageIndex
  pageSize := h.pageSize.trans hagree.pageSize
  sort := h.sort.trans hagree.sort
  facets := by
    intro other
    rw [h.facets, hagree.facets]

/-- **A `SetFacet` link** of a plain URL leads to a plain URL. -/
theorem follow_setFacet {rawUrl : String} (hplain : Plain u m rawUrl) {sp : SearchParameters}
    (hsp : bindModel m (queryString u m rawUrl) = .ok sp) (field value : String) :
    ∃ url' sp', setFacet u m rawUrl field (some value) = .ok url' ∧ Plain u m url'
      ∧ bindModel m (queryString u m url') = .ok sp'
      ∧ FacetChanged m sp sp' field [some value] := by
  obtain ⟨path, segs, hlink, hrepeats⟩ := hplain
  rw [queryString, queryOf_of_link u hlink] at hsp
  -- the link builds on the last value of each name, the binder on all of them
  obtain ⟨spLast, hlast, hagree⟩ := agree_keepLast m hrepeats hsp
  obtain ⟨url', sp', hurl', hsp', hchanged⟩ := setFacet_spec u m hlink hlast field value
  obtain ⟨url'', hurl'', hlink'⟩ := setParameters_spec u m hlink
    [(facetParameter field, .string value), ("page", .int 1)] (nodup_setFacet m field _ _)
  have hsame : url'' = url' := Except.ok.inj (hurl''.symm.trans hurl')
  rw [hsame] at hlink'
  exact ⟨url', sp', hurl', ⟨path, _, hlink', noRepeats_printed m _⟩, hsp',
    facetChanged_of_agree m hagree hchanged⟩

/-- **A `RemoveFacet` link** does too. -/
theorem follow_removeFacet {rawUrl : String} (hplain : Plain u m rawUrl) {sp : SearchParameters}
    (hsp : bindModel m (queryString u m rawUrl) = .ok sp) (field : String) :
    ∃ url' sp', removeFacet u m rawUrl field = .ok url' ∧ Plain u m url'
      ∧ bindModel m (queryString u m url') = .ok sp' ∧ FacetChanged m sp sp' field [] := by
  obtain ⟨path, segs, hlink, hrepeats⟩ := hplain
  rw [queryString, queryOf_of_link u hlink] at hsp
  obtain ⟨spLast, hlast, hagree⟩ := agree_keepLast m hrepeats hsp
  obtain ⟨url', sp', hurl', hsp', hchanged⟩ := removeFacet_spec u m hlink hlast field
  -- the link is printed twice, and what is printed last is plain
  obtain ⟨noFacet, hnoFacet, hlink₁⟩ := removeParametersUrl_spec u m hlink (facetParameter field)
  obtain ⟨url'', hurl'', hlink₂⟩ := setParameters_spec u m hlink₁ [("page", .string "1")]
    (List.nodup_singleton _)
  have hsame : url'' = url' := by
    rw [removeFacet, hnoFacet, ok_bind] at hurl'
    exact Except.ok.inj (hurl''.symm.trans hurl')
  rw [hsame] at hlink₂
  exact ⟨url', sp', hurl', ⟨path, _, hlink₂, noRepeats_printed m _⟩, hsp',
    facetChanged_of_agree m hagree hchanged⟩

/-! ### The form -/

/-- The form's URL has one parameter. -/
theorem link_submitted {action : String} (haction : '?' ∉ action.toList) (text : String) :
    Link u (submitted u form action text) action [("q", text)] := by
  -- the only separator in the text is the `=` between its two parts
  have hplain : ∀ c ∈ (form.encode "q" ++ "=" ++ form.encode text).toList, c ≠ '&' ∧ c ≠ '?' := by
    intro c hc
    rw [String.toList_append, String.toList_append, List.mem_append, List.mem_append] at hc
    rcases hc with (hc | hc) | hc
    · have h := form.encode_plain "q" c hc
      exact ⟨h.1, h.2.2⟩
    · have hequals : c = '=' := by simpa using hc
      rw [hequals]
      decide
    · have h := form.encode_plain text c hc
      exact ⟨h.1, h.2.2⟩
  refine ⟨haction, Or.inr ⟨form.encode "q" ++ "=" ++ form.encode text, ?_, ?_, Or.inr ?_⟩⟩
  · simp only [submitted, String.toList_append, List.append_assoc]
    rfl
  · exact fun hc => (hplain '?' hc).2 rfl
  · rw [split_of_not_mem (fun hc => (hplain '&' hc).1 rfl)]
    refine List.Forall₂.cons ⟨form.encode "q", form.encode text, ?_, ?_, ?_,
      form.urlDecode_encode "q", form.urlDecode_encode text⟩ List.Forall₂.nil
    · simp only [String.toList_append, List.append_assoc]
      rfl
    · exact fun hc => (form.encode_plain "q" '=' hc).2.1 rfl
    · exact fun hc => (form.encode_plain text '=' hc).2.1 rfl

/-- No other name the binder looks up is `q`: they are longer. -/
theorem ignoreCase_ne_q {name : String} (h : 1 < name.toList.length) :
    m.ignoreCase "q" ≠ m.ignoreCase name := by
  intro heq
  have hlength := congrArg List.length heq
  rw [CaseMapping.ignoreCase, CaseMapping.ignoreCase, List.length_map, List.length_map] at hlength
  have hq : "q".toList.length = 1 := rfl
  omega

/-- **The form** starts a search for its text. -/
theorem follow_submit {action : String} (haction : '?' ∉ action.toList) (text : String) :
    Plain u m (submitted u form action text)
      ∧ ∃ sp', bindModel m (queryString u m (submitted u form action text)) = .ok sp'
          ∧ searchOf m sp' = Search.start text := by
  have hlink := link_submitted u form haction text
  refine ⟨⟨action, _, hlink, List.nodup_singleton _⟩, ?_⟩
  obtain ⟨sp', hsp', hfree, hpage, hsize, hsort, hfacets⟩ :=
    bindModel_spec (null_not_mem_allKeys m [("q", text)])
  -- the only parameter answers to `q` and to nothing longer
  have hget : ∀ name : String, 1 < name.toList.length →
      (ofSegments m (asRead [("q", text)])).get (some name) = none := by
    intro name hname
    have hne := ignoreCase_ne_q m hname
    rw [get_ofSegments, if_pos (by simp [valuesOf, asRead, hne])]
  have hq : (ofSegments m (asRead [("q", text)])).get (some "q") = some text := by
    rw [get_ofSegments]
    simp [valuesOf, asRead]
  refine ⟨sp', ?_, ?_⟩
  · rw [queryString, queryOf_of_link u hlink]
    exact hsp'
  · ext1
    · show sp'.freeSearch = _
      rw [hfree, hq]
      rfl
    · show sp'.sort = _
      rw [hsort, hget "sort" (by decide)]
      rfl
    · show sp'.pageSize = _
      rw [hsize, hget "pageSize" (by decide)]
      rfl
    · show sp'.pageIndex = _
      rw [hpage, hget "page" (by decide)]
      rfl
    · funext field
      show (facetValues m sp' field).head?.join = none
      have hlong : 1 < (facetParameter field).toList.length := by
        rw [facetParameter, String.toList_append, List.length_append]
        have htwo : "f_".toList.length = 2 := rfl
        omega
      rw [hfacets, hget _ hlong]
      rfl

/-! ## Sessions -/

/-- The URL a session has come to shows a search. -/
def Shows (url : Except Exception String) (s : Search) : Prop :=
  ∃ rawUrl sp, url = .ok rawUrl ∧ Plain u m rawUrl
    ∧ bindModel m (queryString u m rawUrl) = .ok sp ∧ searchOf m sp = s

/-- **One click** does to the page what it is meant to do to the search. -/
theorem shows_click {action : String} (haction : '?' ∉ action.toList)
    {url : Except Exception String} {s : Search} (h : Shows u m url s) (c : Click) :
    Shows u m (click u m form action url c) (s.click m c) := by
  obtain ⟨rawUrl, sp, rfl, hplain, hsp, rfl⟩ := h
  cases c with
  | setFacet field value =>
    obtain ⟨url', sp', hurl', hplain', hsp', hchanged⟩ :=
      follow_setFacet u m hplain hsp field value
    exact ⟨url', sp', hurl', hplain', hsp', searchOf_facetChanged m hchanged⟩
  | removeFacet field =>
    obtain ⟨url', sp', hurl', hplain', hsp', hchanged⟩ := follow_removeFacet u m hplain hsp field
    exact ⟨url', sp', hurl', hplain', hsp', searchOf_facetChanged m hchanged⟩
  | submit text =>
    obtain ⟨hplain', sp', hsp', hsearch⟩ := follow_submit u m form haction text
    exact ⟨_, sp', rfl, hplain', hsp', hsearch⟩

/-- An accepted URL without repeated names, in which the parsers cut the query alike. -/
theorem shows_of_accepted {rawUrl : String} {sp : SearchParameters}
    (hbind : bindModel m (queryString u m rawUrl) = .ok sp)
    (hmark : rawUrl.toList.count '?' ≤ 1)
    (hequals : ∀ part ∈ split (queryOf rawUrl) '&', part.toList.count '=' ≤ 1)
    (hrepeats : NoRepeats m (readQuery u (queryOf rawUrl))) :
    Shows u m (.ok rawUrl) (searchOf m sp) := by
  -- a part without a name would have made the binder throw
  have hnames : ∀ e ∈ readQuery u (queryOf rawUrl), e.1 ≠ none := by
    intro e he hnone
    rw [queryString, bindModel_null (null_mem_allKeys m ⟨e, he, hnone⟩)] at hbind
    exact absurd hbind (by simp)
  obtain ⟨path, segs, hlink⟩ := link_of_accepted u hmark hequals hnames
  rw [queryOf_of_link u hlink] at hrepeats
  exact ⟨rawUrl, sp, rfl, ⟨path, segs, hlink, hrepeats⟩, hbind, rfl⟩

/-- **Sessions.** From a page whose URL repeats no name, and has no second question mark and
no second equals sign in a part of its query, every session of clicks comes to a page that
the binder accepts, and the search bound there is the one the clicks lead to: each field
has the value it was given last, the page is the first one, and the rest is as it was or
as the form set it. -/
theorem session_shows {action : String} (haction : '?' ∉ action.toList) {rawUrl : String}
    {sp : SearchParameters} (hbind : bindModel m (queryString u m rawUrl) = .ok sp)
    (hmark : rawUrl.toList.count '?' ≤ 1)
    (hequals : ∀ part ∈ split (queryOf rawUrl) '&', part.toList.count '=' ≤ 1)
    (hrepeats : NoRepeats m (readQuery u (queryOf rawUrl))) (clicks : List Click) :
    ∃ rawUrl' sp', run (click u m form action) (.ok rawUrl) clicks = .ok rawUrl'
      ∧ bindModel m (queryString u m rawUrl') = .ok sp'
      ∧ searchOf m sp' = run (Search.click m) (searchOf m sp) clicks := by
  have hrun : Shows u m (run (click u m form action) (.ok rawUrl) clicks)
      (run (Search.click m) (searchOf m sp) clicks) :=
    run_related (R := Shows u m) (fun _ _ c h => shows_click u m form haction h c)
      (shows_of_accepted u m hbind hmark hequals hrepeats)
  obtain ⟨rawUrl', sp', hurl', -, hsp', hsearch⟩ := hrun
  exact ⟨rawUrl', sp', hurl', hsp', hsearch⟩

end Links

/-- A browser that encodes as the server does. -/
def exampleForm : FormEncoding exampleHttpUtility where
  encode := exampleHttpUtility.urlEncode
  urlDecode_encode := exampleHttpUtility.urlDecode_urlEncode
  encode_plain := exampleHttpUtility.urlEncode_plain

/-- Three clicks on the page `redPage`: the facet that was chosen there stays, one of the
two others is taken back in another spelling. -/
theorem session_shows_red :
    ∃ rawUrl' sp', run (click exampleHttpUtility exampleCaseMapping exampleForm "/s")
        (.ok "/s?q=a&F_color=red&page=3")
        [.setFacet "cat" "b", .setFacet "manu_exact" "x", .removeFacet "Cat"] = .ok rawUrl'
      ∧ bindModel exampleCaseMapping (queryString exampleHttpUtility exampleCaseMapping rawUrl')
          = .ok sp'
      ∧ (searchOf exampleCaseMapping sp').freeSearch = some "a"
      ∧ (searchOf exampleCaseMapping sp').facet "color" = some "red"
      ∧ (searchOf exampleCaseMapping sp').facet "cat" = none
      ∧ (searchOf exampleCaseMapping sp').facet "manu_exact" = some "x" := by
  have hbind : bindModel exampleCaseMapping (queryString exampleHttpUtility exampleCaseMapping
      "/s?q=a&F_color=red&page=3") = .ok redPage := rfl
  obtain ⟨rawUrl', sp', hurl', hsp', hsearch⟩ := session_shows exampleHttpUtility
    exampleCaseMapping exampleForm (by decide : '?' ∉ "/s".toList) hbind (by decide) (by decide)
    (by unfold NoRepeats; decide)
    [.setFacet "cat" "b", .setFacet "manu_exact" "x", .removeFacet "Cat"]
  refine ⟨rawUrl', sp', hurl', hsp', ?_, ?_, ?_, ?_⟩
  · rw [hsearch]
    rfl
  · rw [hsearch]
    decide
  · rw [hsearch]
    decide
  · rw [hsearch]
    decide

/-! ## The order of the clicks -/

section Order

variable (u : HttpUtility) (m : CaseMapping) (form : FormEncoding u)

/-- What a link says of a facet field: its value, or that it has none. -/
def Click.choice : Click → Option (String × Option String)
  | .setFacet field value => some (field, some value)
  | .removeFacet field => some (field, none)
  | .submit _ => none

/-- The last word of some clicks on a facet field. -/
def lastChoice (clicks : List Click) (field : String) : Option (Option String) :=
  lastValue m.ignoreCase (clicks.filterMap Click.choice) field

/-- A link is one facet changed. -/
theorem click_of_choice (s : Search) {c : Click} {field : String} {value : Option String}
    (h : c.choice = some (field, value)) : s.click m c = s.withFacet m field value := by
  cases c with
  | setFacet field' value' =>
    obtain ⟨rfl, rfl⟩ := Prod.mk.inj (Option.some.inj h)
    rfl
  | removeFacet field' =>
    obtain ⟨rfl, rfl⟩ := Prod.mk.inj (Option.some.inj h)
    rfl
  | submit text => exact absurd h (by simp [Click.choice])

/-- **After a number of links** a field has the value of the last link on it, and the
page is the first one if there was any. -/
theorem run_links (s : Search) {clicks : List Click} (h : ∀ c ∈ clicks, c.choice ≠ none) :
    run (Search.click m) s clicks
      = { s with
          pageIndex := if clicks = [] then s.pageIndex else 1
          facet := fun field => (lastChoice m clicks field).getD (s.facet field) } := by
  -- by the last click, which decides about its own field
  induction clicks using List.reverseRecOn with
  | nil => rfl
  | append_singleton clicks c ih =>
      obtain ⟨⟨field, value⟩, hc⟩ := Option.ne_none_iff_exists'.mp (h c (by simp))
      have hlast : run (Search.click m) s (clicks ++ [c])
          = (run (Search.click m) s clicks).click m c := run_append _ _ _ _
      rw [hlast, click_of_choice m _ hc, ih (fun c' hc' => h c' (by simp [hc']))]
      unfold Search.withFacet
      congr 1
      · rw [if_neg (by simp)]
      · funext other
        have hchoices : (clicks ++ [c]).filterMap Click.choice
            = clicks.filterMap Click.choice ++ [(field, value)] := by
          rw [List.filterMap_append, List.filterMap_cons, hc, List.filterMap_nil]
        rw [lastChoice, hchoices, lastValue_append_singleton]
        by_cases hname : m.ignoreCase other = m.ignoreCase field
        · rw [if_pos hname, if_pos hname]
          rfl
        · rw [if_neg hname, if_neg hname]
          rfl

/-- Links that say nothing of any field are none. -/
theorem eq_nil_of_lastChoice {clicks : List Click} (h : ∀ c ∈ clicks, c.choice ≠ none)
    (hnone : ∀ field, lastChoice m clicks field = none) : clicks = [] := by
  cases clicks with
  | nil => rfl
  | cons c clicks =>
    obtain ⟨⟨field, value⟩, hc⟩ := Option.ne_none_iff_exists'.mp (h c List.mem_cons_self)
    have hmem : (field, value) ∈ (c :: clicks).filterMap Click.choice := by
      rw [List.filterMap_cons_some hc]
      exact List.mem_cons_self
    exact absurd rfl ((lastValue_eq_none _ _).mp (hnone field) _ hmem)

/-- **The order of links** on different fields does not matter, nor what was clicked on a
field before: two sessions from one such page in which the last link on each field is the
same come to the same search. -/
theorem session_order {action : String} (haction : '?' ∉ action.toList) {rawUrl : String}
    {sp : SearchParameters} (hbind : bindModel m (queryString u m rawUrl) = .ok sp)
    (hmark : rawUrl.toList.count '?' ≤ 1)
    (hequals : ∀ part ∈ split (queryOf rawUrl) '&', part.toList.count '=' ≤ 1)
    (hrepeats : NoRepeats m (readQuery u (queryOf rawUrl))) {clicks clicks' : List Click}
    (hlinks : ∀ c ∈ clicks, c.choice ≠ none) (hlinks' : ∀ c ∈ clicks', c.choice ≠ none)
    (hlast : ∀ field, lastChoice m clicks field = lastChoice m clicks' field) :
    ∃ url url' sp₁ sp₂, run (click u m form action) (.ok rawUrl) clicks = .ok url
      ∧ run (click u m form action) (.ok rawUrl) clicks' = .ok url'
      ∧ bindModel m (queryString u m url) = .ok sp₁
      ∧ bindModel m (queryString u m url') = .ok sp₂
      ∧ searchOf m sp₁ = searchOf m sp₂ := by
  have hstart := shows_of_accepted u m hbind hmark hequals hrepeats
  have hreach : ∀ cs, Shows u m (run (click u m form action) (.ok rawUrl) cs)
      (run (Search.click m) (searchOf m sp) cs) := fun cs =>
    run_related (R := Shows u m) (fun _ _ c h => shows_click u m form haction h c) hstart
  obtain ⟨url, sp₁, hurl, -, hsp₁, hsearch⟩ := hreach clicks
  obtain ⟨url', sp₂, hurl', -, hsp₂, hsearch'⟩ := hreach clicks'
  have hempty : clicks = [] ↔ clicks' = [] := by
    constructor
    · rintro rfl
      exact eq_nil_of_lastChoice m hlinks' (fun field => (hlast field).symm)
    · rintro rfl
      exact eq_nil_of_lastChoice m hlinks hlast
  refine ⟨url, url', sp₁, sp₂, hurl, hurl', hsp₁, hsp₂, ?_⟩
  rw [hsearch, hsearch', run_links m _ hlinks, run_links m _ hlinks']
  simp only [hlast, hempty]

end Order

/-- A facet chosen, replaced and joined by another, against the two choices in the other
order. -/
theorem session_order_red :
    ∃ url url' sp₁ sp₂, run (click exampleHttpUtility exampleCaseMapping exampleForm "/s")
        (.ok "/s?q=a&F_color=red&page=3")
        [.setFacet "cat" "a", .setFacet "cat" "b", .setFacet "manu_exact" "x"] = .ok url
      ∧ run (click exampleHttpUtility exampleCaseMapping exampleForm "/s")
        (.ok "/s?q=a&F_color=red&page=3")
        [.setFacet "manu_exact" "x", .setFacet "cat" "b"] = .ok url'
      ∧ bindModel exampleCaseMapping (queryString exampleHttpUtility exampleCaseMapping url)
          = .ok sp₁
      ∧ bindModel exampleCaseMapping (queryString exampleHttpUtility exampleCaseMapping url')
          = .ok sp₂
      ∧ searchOf exampleCaseMapping sp₁ = searchOf exampleCaseMapping sp₂ := by
  have hbind : bindModel exampleCaseMapping (queryString exampleHttpUtility exampleCaseMapping
      "/s?q=a&F_color=red&page=3") = .ok redPage := rfl
  refine session_order exampleHttpUtility exampleCaseMapping exampleForm
    (by decide : '?' ∉ "/s".toList) hbind (by decide) (by decide) (by unfold NoRepeats; decide)
    (by decide) (by decide) (fun field => ?_)
  have hapart : exampleCaseMapping.ignoreCase "cat"
      ≠ exampleCaseMapping.ignoreCase "manu_exact" := by decide
  -- only the two fields named are looked up, and each finds its last value
  simp only [lastChoice, lastValue, Click.choice, List.filterMap_cons, List.filterMap_nil,
    List.reverse_cons, List.reverse_nil, List.nil_append, List.cons_append, List.find?_cons]
  by_cases hcat : exampleCaseMapping.ignoreCase "cat" = exampleCaseMapping.ignoreCase field
  · rw [← hcat, decide_eq_false hapart.symm, decide_eq_true rfl]
  · rw [decide_eq_false hcat]

end CgGuide.SearchSession
