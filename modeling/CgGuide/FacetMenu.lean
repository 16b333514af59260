/-
The facet menu of the search page, over a session.

The page shows every chosen facet under the name of its product property, with a link
that removes it, and asks Solr for the values of the facet fields that are not chosen,
which it shows with links that choose them. The field names come from three places that
nothing ties together: the query string, the list of facet fields in the controller and
the fields `Product` is mapped to. A name that is not mapped fails the page, and one in
another spelling is shown as chosen and offered again.

Clicking only what is on the page, this does not happen. The invariant is `MenuUrl`: the
facet parameters of the URL name facet fields, as the controller spells them. Every link
of such a page leads to such a URL (`menuPage_click`).
-/
import CgGuide.FacetBinding
import CgGuide.SearchPaging
import CgGuide.SearchSession

set_option autoImplicit false

namespace CgGuide.FacetMenu

open CgGuide.DotNet CgGuide.KeyedTable CgGuide.Dictionaries CgGuide.Dictionaries.Dictionary
open CgGuide.UrlHelperExtensions CgGuide.SearchParametersBinder CgGuide.FacetLinks CgGuide.Runs
open CgGuide.FacetBinding CgGuide.SearchPaging CgGuide.SearchSession

/-! ## Rendering the menu -/

/-- The Solr fields that the properties of `Product` are mapped to. -/
def productFields : List (String × String) :=
  [("id", "Id"), ("name", "Name"), ("manu_exact", "Manufacturer"), ("cat", "Categories"),
    ("price", "Price"), ("inStock", "InStock"), ("weight", "Weight")]

/-- What can fail while the page is rendered: a field without a property, or a link. -/
inductive RenderError
  | keyNotFound
  | link (e : Exception)

/-- `SolrFieldPropName<Product>`. -/
def solrFieldPropName (fieldName : String) : Except RenderError String :=
  match productFields.find? (fun e => decide (e.1 = fieldName)) with
  | none => .error .keyNotFound
  | some e => .ok e.2

/-- A link of the page. -/
structure Anchor where
  heading : String
  href : String
  text : Option String

section Rendering

variable (u : HttpUtility) (m : CaseMapping)

/-- A link whose URL is computed while the page is rendered. -/
def anchor (heading : String) (href : Except Exception String) (text : Option String) :
    Except RenderError Anchor :=
  match href with
  | .error e => .error (.link e)
  | .ok href => .ok ⟨heading, href, text⟩

/-- One pass of the loop over `Model.Search.Facets`. -/
def renderChosen (rawUrl : String) (f : String × Option String) : Except RenderError Anchor := do
  let heading ← solrFieldPropName f.1
  anchor heading (removeFacet u m rawUrl f.1) f.2

/-- One pass of the loop over `Model.Facets`. -/
def renderOffered (rawUrl : String) (f : String × List String) :
    Except RenderError (List Anchor) := do
  let heading ← solrFieldPropName f.1
  f.2.mapM (fun value => anchor heading (setFacet u m rawUrl f.1 (some value)) (some value))

/-- The left column of the page. -/
def renderMenu (rawUrl : String) (sp : SearchParameters) (facets : List (String × List String)) :
    Except RenderError (List Anchor × List (List Anchor)) := do
  let chosen ← sp.facets.rows.mapM (renderChosen u m rawUrl)
  let offered ← facets.mapM (renderOffered u m rawUrl)
  return (chosen, offered)

/-! ## Menus that do not fail -/

/-- A loop without a failing pass does not fail, and collects what the passes return. -/
theorem mapM_returns {ε α β : Type} {f : α → Except ε β} {P : α → β → Prop} {l : List α}
    (h : ∀ a ∈ l, ∃ b, f a = .ok b ∧ P a b) : ∃ bs, l.mapM f = .ok bs ∧ List.Forall₂ P l bs := by
  induction l with
  | nil => exact ⟨[], rfl, List.Forall₂.nil⟩
  | cons a l ih =>
      obtain ⟨b, hb, hab⟩ := h a List.mem_cons_self
      obtain ⟨bs, hbs, hall⟩ := ih (fun a' ha' => h a' (List.mem_cons_of_mem _ ha'))
      refine ⟨b :: bs, ?_, List.Forall₂.cons hab hall⟩
      rw [List.mapM_cons, hb, hbs]
      rfl

/-- The facet fields are fields of a product. -/
theorem solrFieldPropName_returns {field : String} (h : field ∈ allFacetFields) :
    ∃ heading, solrFieldPropName field = .ok heading := by
  rcases List.mem_cons.mp h with rfl | h
  · exact ⟨"Categories", rfl⟩
  · obtain rfl := List.mem_singleton.mp h
    exact ⟨"Manufacturer", rfl⟩

/-- On a plain URL a menu of facet fields does not fail. -/
theorem renderMenu_returns {rawUrl : String} (hplain : Plain u m rawUrl) {sp : SearchParameters}
    (hsp : bindModel m (queryString u m rawUrl) = .ok sp) {facets : List (String × List String)}
    (hchosen : ∀ field ∈ selectedFacetFields sp, field ∈ allFacetFields)
    (hoffered : ∀ f ∈ facets, f.1 ∈ allFacetFields) :
    ∃ menu, renderMenu u m rawUrl sp facets = .ok menu := by
  obtain ⟨chosen, hleft, -⟩ := @mapM_returns _ _ _ (renderChosen u m rawUrl) (fun _ _ => True)
    sp.facets.rows (by
      intro f hf
      obtain ⟨heading, hheading⟩ :=
        solrFieldPropName_returns (hchosen f.1 (List.mem_map_of_mem hf))
      obtain ⟨url', -, hurl', -⟩ := follow_removeFacet u m hplain hsp f.1
      refine ⟨⟨heading, url', f.2⟩, ?_, trivial⟩
      rw [renderChosen, hheading, hurl']
      rfl)
  obtain ⟨offered, hright, -⟩ := @mapM_returns _ _ _ (renderOffered u m rawUrl)
    (fun _ _ => True) facets (by
      intro f hf
      obtain ⟨heading, hheading⟩ := solrFieldPropName_returns (hoffered f hf)
      obtain ⟨anchors, hanchors, -⟩ := @mapM_returns _ _ _
        (fun value => anchor heading (setFacet u m rawUrl f.1 (some value)) (some value))
        (fun _ _ => True) f.2 (by
          intro value _
          obtain ⟨url', -, hurl', -⟩ := follow_setFacet u m hplain hsp f.1 value
          refine ⟨⟨heading, url', some value⟩, ?_, trivial⟩
          rw [hurl']
          rfl)
      refine ⟨anchors, ?_, trivial⟩
      rw [renderOffered, hheading]
      exact hanchors)
  refine ⟨(chosen, offered), ?_⟩
  rw [renderMenu, hleft]
  show (facets.mapM (renderOffered u m rawUrl) >>= fun offered => pure (chosen, offered)) = _
  rw [hright]
  rfl

end Rendering

/-! ## The fields a session can choose -/

section Fields

variable (u : HttpUtility) (m : CaseMapping) (form : FormEncoding u)

/-- The facet fields whose values the page asks Solr for. -/
def offeredFields (sp : SearchParameters) : List String :=
  allFacetFields.filter (fun f => f ∉ selectedFacetFields sp)

theorem index_offered {σ ε : Type} {parseSortOrder : Option String → Except ε (Option σ)}
    {sp : SearchParameters} {query : SolrQuery} {options : QueryOptions σ}
    (h : index parseSortOrder sp = .ok (query, options)) :
    options.facet.map SolrFacetFieldQuery.field = offeredFields sp
      ∧ options.filterQueries = sp.facets.rows.map (fun p => .field p.1 p.2) := by
  unfold index at h
  cases horder : getSelectedSort parseSortOrder sp with
  | error e =>
    rw [horder] at h
    exact absurd h (by simp [bind, Except.bind])
  | ok orderBy =>
    rw [horder] at h
    have hsent := Except.ok.inj h
    rw [Prod.mk.injEq] at hsent
    rw [← hsent.2]
    refine ⟨?_, rfl⟩
    rw [List.map_map]
    exact List.map_id' _

/-- A plain URL whose facet parameters name facet fields, as they are spelled there. -/
def MenuUrl (rawUrl : String) : Prop :=
  ∃ path segs, Link u rawUrl path segs ∧ NoRepeats m (asRead segs)
    ∧ ∀ e ∈ segs, isFacet e.1 = true → stripFacet e.1 ∈ allFacetFields

variable {u m}

theorem MenuUrl.plain {rawUrl : String} (h : MenuUrl u m rawUrl) : Plain u m rawUrl := by
  obtain ⟨path, segs, hlink, hrepeats, -⟩ := h
  exact ⟨path, segs, hlink, hrepeats⟩

/-- The binder accepts it. -/
theorem MenuUrl.bound {rawUrl : String} (h : MenuUrl u m rawUrl) :
    ∃ sp, bindModel m (queryString u m rawUrl) = .ok sp := by
  obtain ⟨path, segs, hlink, -⟩ := h
  obtain ⟨sp, hsp, -⟩ := bindModel_spec (null_not_mem_allKeys m segs)
  refine ⟨sp, ?_⟩
  rw [queryString, queryOf_of_link u hlink]
  exact hsp

/-- The fields chosen there are facet fields. -/
theorem MenuUrl.selected {rawUrl : String} (h : MenuUrl u m rawUrl) {sp : SearchParameters}
    (hsp : bindModel m (queryString u m rawUrl) = .ok sp) :
    ∀ field ∈ selectedFacetFields sp, field ∈ allFacetFields := by
  obtain ⟨path, segs, hlink, -, hfields⟩ := h
  rw [queryString, queryOf_of_link u hlink] at hsp
  obtain ⟨facets, hrows, hbind⟩ :=
    bindModel_of_nvToDict (nvToDict_seen m (null_not_mem_allKeys m segs))
  rw [hsp, Except.ok.injEq] at hbind
  rw [hbind]
  intro field hfield
  rw [selectedFacetFields, hrows, facetEntries, List.map_map] at hfield
  obtain ⟨e, he, rfl⟩ := List.mem_map.mp hfield
  obtain ⟨hcopied, hfacet⟩ := List.mem_filter.mp he
  -- the entry was copied from under a name of the query
  obtain ⟨x, hx, hname⟩ := List.mem_map.mp (name_of_copy m hcopied)
  obtain ⟨y, hy, rfl⟩ := List.mem_map.mp hx
  have hsame : y.1 = e.1 := Option.some.inj hname
  show stripFacet e.1 ∈ allFacetFields
  rw [← hsame]
  exact hfields y hy (hsame ▸ hfacet)

/-! ### What the links write -/

theorem mem_keys_of_printed {rows : List (String × Option String)} {e : String × String}
    (h : e ∈ printed rows) : e.1 ∈ rows.map Prod.fst := by
  obtain ⟨k, hk, rfl⟩ := List.mem_map.mp h
  exact List.mem_map_of_mem (List.mem_filter.mp hk).1

/-- The dictionary a link is written from has the names of the query. -/
theorem mem_of_key_named {segs : List (String × String)} {k : String}
    (h : k ∈ (ofEntries (named segs) : QueryDictionary m.ignoreCase).rows.map Prod.fst) :
    k ∈ segs.map Prod.fst := by
  rcases mem_keys_setAll _ _ h with h | h
  · exact absurd h List.not_mem_nil
  · obtain ⟨e, he, rfl⟩ := List.mem_map.mp h
    obtain ⟨x, hx, rfl⟩ := List.mem_map.mp he
    exact List.mem_map_of_mem (List.mem_filter.mp hx).1

theorem isFacet_page : isFacet "page" = false := by decide

theorem stripFacet_facetParameter (field : String) : stripFacet (facetParameter field) = field := by
  rw [stripFacet, facetParameter, String.toList_append]
  exact String.ofList_toList

/-- **Choosing a facet field** adds no other name. -/
theorem menuUrl_setFacet {rawUrl url' : String} (h : MenuUrl u m rawUrl) {field : String}
    (hfield : field ∈ allFacetFields) (value : String)
    (hurl' : setFacet u m rawUrl field (some value) = .ok url') : MenuUrl u m url' := by
  obtain ⟨path, segs, hlink, -, hfields⟩ := h
  obtain ⟨url'', hurl'', hlink'⟩ := setParameters_spec u m hlink
    [(facetParameter field, .string value), ("page", .int 1)] (nodup_setFacet m field _ _)
  obtain rfl := Except.ok.inj (hurl''.symm.trans hurl')
  refine ⟨path, _, hlink', noRepeats_printed m _, fun e he hfacet => ?_⟩
  rcases mem_keys_setAll _ _ (mem_keys_of_printed he) with hold | hnew
  · obtain ⟨x, hx, hname⟩ := List.mem_map.mp (mem_of_key_named hold)
    rw [← hname]
    exact hfields x hx (hname ▸ hfacet)
  · have hcases : e.1 = facetParameter field ∨ e.1 = "page" := by simpa using hnew
    rcases hcases with hname | hname
    · rw [hname, stripFacet_facetParameter]
      exact hfield
    · rw [hname, isFacet_page] at hfacet
      exact absurd hfacet Bool.false_ne_true

/-- **Removing one** leaves names that were there. -/
theorem menuUrl_removeFacet {rawUrl url' : String} (h : MenuUrl u m rawUrl) {field : String}
    (hurl' : removeFacet u m rawUrl field = .ok url') : MenuUrl u m url' := by
  obtain ⟨path, segs, hlink, -, hfields⟩ := h
  obtain ⟨noFacet, hnoFacet, hlink₁⟩ := removeParametersUrl_spec u m hlink (facetParameter field)
  obtain ⟨url'', hurl'', hlink₂⟩ := setParameters_spec u m hlink₁ [("page", .string "1")]
    (List.nodup_singleton _)
  rw [removeFacet, hnoFacet, ok_bind] at hurl'
  obtain rfl := Except.ok.inj (hurl''.symm.trans hurl')
  refine ⟨path, _, hlink₂, noRepeats_printed m _, fun e he hfacet => ?_⟩
  rcases mem_keys_setAll _ _ (mem_keys_of_printed he) with hold | hnew
  · obtain ⟨x, hx, hname⟩ := List.mem_map.mp (mem_of_key_named hold)
    -- what was printed first are the names of the query without the field's
    obtain ⟨k, hk, hkname⟩ := List.mem_map.mp (mem_keys_of_printed hx)
    have hkey : k.1 ∈ (ofEntries (named segs) : QueryDictionary m.ignoreCase).rows.map Prod.fst :=
      List.mem_map_of_mem (List.mem_filter.mp hk).1
    obtain ⟨y, hy, hyname⟩ := List.mem_map.mp (mem_of_key_named hkey)
    have hsame : y.1 = e.1 := hyname.trans (hkname.trans hname)
    rw [← hsame]
    exact hfields y hy (hsame ▸ hfacet)
  · have hname : e.1 = "page" := by simpa using hnew
    rw [hname, isFacet_page] at hfacet
    exact absurd hfacet Bool.false_ne_true

theorem menuUrl_submitted {action : String} (haction : '?' ∉ action.toList) (text : String) :
    MenuUrl u m (submitted u form action text) := by
  refine ⟨action, _, link_submitted u form haction text, List.nodup_singleton _, ?_⟩
  intro e he hfacet
  rw [List.mem_singleton.mp he] at hfacet
  exact absurd hfacet (by decide : ¬ isFacet "q" = true)

end Fields

/-! ## Sessions of clicks on what is there -/

section Sessions

variable (u : HttpUtility) (m : CaseMapping) (form : FormEncoding u)

/-- The page of a URL may show the link, or shows the form. -/
def OnPage (url : Except Exception String) : Click → Prop
  | .setFacet field _ => ∃ rawUrl sp, url = .ok rawUrl
      ∧ bindModel m (queryString u m rawUrl) = .ok sp ∧ field ∈ offeredFields sp
  | .removeFacet field => ∃ rawUrl sp, url = .ok rawUrl
      ∧ bindModel m (queryString u m rawUrl) = .ok sp ∧ field ∈ selectedFacetFields sp
  | .submit _ => True

/-- A session has come to a URL that names facet fields only. -/
def MenuPage (url : Except Exception String) : Prop :=
  ∃ rawUrl, url = .ok rawUrl ∧ MenuUrl u m rawUrl

/-- **One click** on the page. -/
theorem menuPage_click {action : String} (haction : '?' ∉ action.toList)
    (url : Except Exception String) (c : Click) (h : MenuPage u m url) (hc : OnPage u m url c) :
    MenuPage u m (click u m form action url c) := by
  obtain ⟨rawUrl, rfl, hmenu⟩ := h
  obtain ⟨sp, hsp⟩ := hmenu.bound
  cases c with
  | setFacet field value =>
    obtain ⟨rawUrl', sp', hurl, -, hoffered⟩ := hc
    obtain ⟨url', -, hurl', -⟩ := follow_setFacet u m hmenu.plain hsp field value
    have hfield : field ∈ allFacetFields := (List.mem_filter.mp hoffered).1
    exact ⟨url', hurl', menuUrl_setFacet hmenu hfield value hurl'⟩
  | removeFacet field =>
    obtain ⟨url', -, hurl', -⟩ := follow_removeFacet u m hmenu.plain hsp field
    exact ⟨url', hurl', menuUrl_removeFacet hmenu hurl'⟩
  | submit text => exact ⟨_, rfl, menuUrl_submitted form haction text⟩

/-- Some of the elements of a list, and those that are left, are the list. -/
theorem append_filter_perm {α : Type} [DecidableEq α] {l all : List α} (hl : l.Nodup)
    (hall : all.Nodup) (hsub : ∀ x ∈ l, x ∈ all) :
    (l ++ all.filter (fun x => x ∉ l)).Perm all := by
  rw [List.perm_ext_iff_of_nodup ?_ hall]
  · intro x
    rw [List.mem_append, List.mem_filter, decide_eq_true_eq]
    constructor
    · rintro (hx | ⟨hx, -⟩)
      · exact hsub x hx
      · exact hx
    · intro hx
      by_cases hxl : x ∈ l
      · exact Or.inl hxl
      · exact Or.inr ⟨hx, hxl⟩
  · rw [List.nodup_append]
    refine ⟨hl, hall.filter _, ?_⟩
    rintro x hx y hy rfl
    exact of_decide_eq_true (List.mem_filter.mp hy).2 hx

/-- A session starts on a page without facets. -/
theorem menuPage_start {rawUrl : String} {sp : SearchParameters}
    (hbind : bindModel m (queryString u m rawUrl) = .ok sp)
    (hmark : rawUrl.toList.count '?' ≤ 1)
    (hequals : ∀ part ∈ split (queryOf rawUrl) '&', part.toList.count '=' ≤ 1)
    (hrepeats : NoRepeats m (readQuery u (queryOf rawUrl)))
    (hfacets : ∀ e ∈ readQuery u (queryOf rawUrl), ∀ name, e.1 = some name →
      isFacet name = false) : MenuPage u m (.ok rawUrl) := by
  have hnames : ∀ e ∈ readQuery u (queryOf rawUrl), e.1 ≠ none := by
    intro e he hnone
    rw [queryString, bindModel_null (null_mem_allKeys m ⟨e, he, hnone⟩)] at hbind
    exact absurd hbind (by simp)
  obtain ⟨path, segs, hlink⟩ := link_of_accepted u hmark hequals hnames
  rw [queryOf_of_link u hlink] at hrepeats hfacets
  refine ⟨rawUrl, rfl, path, segs, hlink, hrepeats, fun e he hfacet => ?_⟩
  rw [hfacets (some e.1, e.2) (List.mem_map_of_mem he) e.1 rfl] at hfacet
  exact absurd hfacet Bool.false_ne_true

variable {u m}

/-- **On such a page** the fields that are chosen and those that are offered are the facet
fields, each once. -/
theorem MenuUrl.partition {rawUrl : String} (h : MenuUrl u m rawUrl) {sp : SearchParameters}
    (hsp : bindModel m (queryString u m rawUrl) = .ok sp) :
    (selectedFacetFields sp ++ offeredFields sp).Perm allFacetFields :=
  append_filter_perm sp.facets.keys_nodup (by decide) (h.selected hsp)

end Sessions

end CgGuide.FacetMenu
