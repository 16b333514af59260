/-
When `BindModel` binds, and which facets it binds.

The copy of the query string into a dictionary throws on a segment without an
equals sign, whose name the framework leaves null; nothing else in the binder does
(`bindModel_ok_iff`). In particular the facet dictionary, built with another
comparer than the one the keys were merged by, never meets a key twice: what is
left of two names behind the prefix is one text only if the names were one key
before. So the facets are one entry for each class of names (`facets_bound`).
-/
import CgGuide.FacetLinks

set_option autoImplicit false

namespace CgGuide.FacetBinding

open CgGuide.DotNet CgGuide.KeyedTable CgGuide.Dictionaries CgGuide.Dictionaries.Dictionary
open CgGuide.UrlHelperExtensions CgGuide.SearchParametersBinder CgGuide.FacetLinks

variable (u : HttpUtility)

/-! ## The names of a query -/

theorem readSegment_eq (seg : String) :
    readSegment u seg = if '=' ∈ seg.toList
      then (some (u.urlDecode (before seg '=')), u.urlDecode (behind seg '='))
      else (none, u.urlDecode seg) := by
  by_cases h : '=' ∈ seg.toList
  · obtain ⟨hseg, hname⟩ := toList_before_behind h
    obtain ⟨htake, hdrop⟩ := @takeWhile_append_cons _ (behind seg '=').toList '=' hname
    rw [← hseg] at htake hdrop
    rw [if_pos h, readSegment, hdrop, htake]
    simp only [String.ofList_toList]
  · rw [if_neg h, readSegment, dropWhile_of_not_mem h]

/-- A query has a segment without a name when it has a part without an equals sign. -/
theorem exists_null_iff (query : String) :
    (∃ e ∈ readQuery u query, e.1 = none)
      ↔ ¬ (query = "" ∨ ∀ part ∈ split query '&', '=' ∈ part.toList) := by
  rw [readQuery]
  by_cases hempty : query = ""
  · rw [if_pos hempty]
    simp [hempty]
  · rw [if_neg hempty, or_iff_right hempty]
    push Not
    simp only [List.mem_map, exists_exists_and_eq_and]
    refine exists_congr (fun part => and_congr_right (fun _ => ?_))
    rw [readSegment_eq]
    by_cases h : '=' ∈ part.toList
    · rw [if_pos h]
      simp [h]
    · rw [if_neg h]
      simp [h]

variable (m : CaseMapping) {m' : CaseMapping}

/-- The keys of a collection are names of its segments. -/
theorem mem_of_mem_allKeys {segs : List (Option String × String)} {k : Option String}
    (h : k ∈ (ofSegments m' segs).allKeys) : ∃ e ∈ segs, e.1 = k := by
  induction segs using List.reverseRecOn with
  | nil => exact absurd h List.not_mem_nil
  | append_singleton segs e ih =>
      rw [ofSegments, List.foldl_append, List.foldl_cons, List.foldl_nil,
        NameValueCollection.allKeys, NameValueCollection.add, keys_set, List.mem_append] at h
      rcases h with h | h
      · obtain ⟨x, hx, hk⟩ := ih h
        exact ⟨x, List.mem_append_left _ hx, hk⟩
      · split_ifs at h
        · exact absurd h List.not_mem_nil
        · exact ⟨e, List.mem_append_right _ (List.mem_singleton_self e),
            (List.mem_singleton.mp h).symm⟩

/-- Every name is one of the keys, as the collection compares them. -/
theorem exists_key {segs : List (Option String × String)} {e : Option String × String}
    (h : e ∈ segs) :
    ∃ k ∈ (ofSegments m' segs).allKeys, k.map m'.ignoreCase = e.1.map m'.ignoreCase := by
  -- the segment itself is one of the values under its name
  have hvalues : valuesOf m' segs e.1 ≠ [] := by
    rw [valuesOf, ne_eq, List.map_eq_nil_iff, List.filter_eq_nil_iff]
    intro hall
    simpa using hall e h
  rw [mem_allKeys, get_ofSegments, if_neg hvalues]
  exact Option.some_ne_none _

/-! ## When the binder throws -/

/-- **`BindModel` returns** exactly when every part of the query has an equals sign,
or there is no query. -/
theorem bindModel_ok_iff (query : String) :
    (∃ sp, bindModel m (ofSegments m' (readQuery u query)) = .ok sp)
      ↔ query = "" ∨ ∀ part ∈ split query '&', '=' ∈ part.toList := by
  rw [← not_iff_not, ← exists_null_iff u query]
  constructor
  · intro hnone
    by_contra hnull
    have hkeys : none ∉ (ofSegments m' (readQuery u query)).allKeys :=
      fun h => hnull (mem_of_mem_allKeys h)
    obtain ⟨names, -, hcopy⟩ := nvToDict_names (m := m) hkeys
    obtain ⟨facets, -, hbind⟩ := bindModel_of_nvToDict hcopy
    exact hnone ⟨_, hbind⟩
  · rintro hnull ⟨sp, hbind⟩
    rw [bindModel_null (null_mem_allKeys m' hnull)] at hbind
    exact absurd hbind (by simp)

/-- A word typed behind the question mark is a segment without a name. -/
theorem bindModel_throws :
    ¬ ∀ query, ∃ sp, bindModel exampleCaseMapping
      (ofSegments exampleCaseMapping (readQuery exampleHttpUtility query)) = .ok sp := by
  intro h
  obtain ⟨sp, hsp⟩ := h "red"
  have hthrown : bindModel exampleCaseMapping
      (ofSegments exampleCaseMapping (readQuery exampleHttpUtility "red"))
      = .error { type := .argumentNull } := rfl
  rw [hthrown] at hsp
  exact absurd hsp (by simp)

/-! ## Which facets are bound -/

/-- What `NVToDict` goes through: each key of the collection with its value. -/
def seen (nv : NameValueCollection m') : List (String × Option String) :=
  nv.allKeys.filterMap (fun k => k.map (fun name => (name, nv.get (some name))))

theorem nvToDict_seen {nv : NameValueCollection m'} (h : none ∉ nv.allKeys) :
    nvToDict m nv = .ok (ofEntries (seen nv)) := by
  obtain ⟨names, hnames, hcopy⟩ := nvToDict_names (m := m) h
  rw [hcopy, seen, hnames, List.filterMap_map]
  have hsome : ((fun k : Option String => k.map (fun name => (name, nv.get (some name)))) ∘ some)
      = some ∘ fun name => (name, nv.get (some name)) := rfl
  rw [hsome, List.filterMap_eq_map]

/-- An entry of the copy is under a name of the query. -/
theorem name_of_copy {segs : List (Option String × String)} {e : String × Option String}
    (he : e ∈ (ofEntries (seen (ofSegments m' segs)) : QueryDictionary m.ignoreCase).rows) :
    some e.1 ∈ segs.map Prod.fst := by
  rcases mem_keys_setAll _ _ (List.mem_map_of_mem he) with h | h
  · exact absurd h List.not_mem_nil
  · obtain ⟨x, hx, hx'⟩ := List.mem_map.mp h
    obtain ⟨k, hk, hk'⟩ := List.mem_filterMap.mp hx
    obtain ⟨name, rfl, rfl⟩ := Option.map_eq_some_iff.mp hk'
    obtain ⟨y, hy, hy'⟩ := mem_of_mem_allKeys hk
    rw [← hx']
    exact List.mem_map.mpr ⟨y, hy, hy'⟩

/-- The class of a name has a key in the collection, so the copy has a value for it. -/
theorem exists_lastValue {segs : List (Option String × String)} {name : String}
    (hfiner : ∀ a b, m'.ignoreCase a = m'.ignoreCase b → m.ignoreCase a = m.ignoreCase b)
    (hmem : some name ∈ segs.map Prod.fst) :
    ∃ value, lastValue m.ignoreCase (seen (ofSegments m' segs)) name = some value := by
  obtain ⟨segment, hsegment, hsegmentname⟩ := List.mem_map.mp hmem
  obtain ⟨k, hk, hkname⟩ := @exists_key m' _ _ hsegment
  rw [hsegmentname, Option.map_some, Option.map_eq_some_iff] at hkname
  obtain ⟨key, rfl, hkey⟩ := hkname
  have hseen : (key, (ofSegments m' segs).get (some key)) ∈ seen (ofSegments m' segs) :=
    List.mem_filterMap.mpr ⟨some key, hk, rfl⟩
  apply Option.ne_none_iff_exists'.mp
  rw [ne_eq, lastValue_eq_none]
  exact fun hnone => hnone _ hseen (hfiner key name hkey)

/-- A facet parameter is, ignoring case, the prefix in front of what stripping it
leaves. -/
theorem isFacet_iff (name : String) :
    isFacet name = true ↔ m.ignoreCase name = m.ignoreCase (facetParameter (stripFacet name)) := by
  rw [ignoreCase_eq_facetParameter_iff]
  simp

/-- **The facets that are bound**, for a query all of whose parameters have a name: one
entry for each class of facet parameters, under one of the class's names without its
prefix and with the last value seen, and no other entry. -/
theorem facets_bound {query : String} (hnames : ∀ e ∈ readQuery u query, e.1 ≠ none)
    (hfiner : ∀ a b, m'.ignoreCase a = m'.ignoreCase b → m.ignoreCase a = m.ignoreCase b) :
    ∃ sp, bindModel m (ofSegments m' (readQuery u query)) = .ok sp
      ∧ (∀ name, some name ∈ (readQuery u query).map Prod.fst → isFacet name = true →
          ∃ entry ∈ sp.facets.rows,
            (∃ name', some name' ∈ (readQuery u query).map Prod.fst
              ∧ m.ignoreCase name' = m.ignoreCase name ∧ isFacet name' = true
              ∧ entry.1 = stripFacet name')
            ∧ lastValue m.ignoreCase (seen (ofSegments m' (readQuery u query))) name = some entry.2
            ∧ ∀ entry' ∈ sp.facets.rows,
                m.ignoreCase (facetParameter entry'.1) = m.ignoreCase name → entry' = entry)
      ∧ ∀ entry ∈ sp.facets.rows, ∃ name, some name ∈ (readQuery u query).map Prod.fst
          ∧ isFacet name = true ∧ entry.1 = stripFacet name := by
  generalize hsegs : readQuery u query = segs at hnames
  have hkeys : none ∉ (ofSegments m' segs).allKeys := by
    intro h
    obtain ⟨e, he, hnone⟩ := mem_of_mem_allKeys h
    exact hnames e he hnone
  obtain ⟨facets, hrows, hbind⟩ := bindModel_of_nvToDict (nvToDict_seen m hkeys)
  generalize hd : (ofEntries (seen (ofSegments m' segs)) :
    QueryDictionary m.ignoreCase) = d at hrows
  have hname : ∀ e ∈ d.rows, some e.1 ∈ segs.map Prod.fst := by
    intro e he
    rw [← hd] at he
    exact name_of_copy m he
  refine ⟨_, hbind, fun name hmem hfacet => ?_, fun entry hentry => ?_⟩
  · obtain ⟨value, hlast⟩ := exists_lastValue m hfiner hmem
    have hlookup := hlast
    rw [← lookup_ofEntries, hd, lookup_eq_some] at hlookup
    obtain ⟨e, he, hclass, rfl⟩ := hlookup
    have hefacet : isFacet e.1 = true := by
      have hparameter := hclass.trans ((isFacet_iff m name).mp hfacet)
      exact ((ignoreCase_eq_facetParameter_iff m e.1 (stripFacet name)).mp hparameter).1
    refine ⟨(stripFacet e.1, e.2), ?_, ⟨e.1, hname e he, hclass, hefacet, rfl⟩, hlast, ?_⟩
    · rw [hrows]
      exact List.mem_map.mpr ⟨e, List.mem_filter.mpr ⟨he, hefacet⟩, rfl⟩
    · intro entry' hentry' hclass'
      rw [hrows] at hentry'
      obtain ⟨x, hx, rfl⟩ := List.mem_map.mp hentry'
      obtain ⟨hxmem, hxfacet⟩ := List.mem_filter.mp hx
      -- stripping loses no distinction: the prefix is the same in front of both
      have hsame : m.ignoreCase x.1 = m.ignoreCase e.1 := by
        rw [hclass, (isFacet_iff m x.1).mp hxfacet]
        exact hclass'
      rw [d.eq_of_key_eq hxmem he hsame]
  · rw [hrows] at hentry
    obtain ⟨e, he, rfl⟩ := List.mem_map.mp hentry
    exact ⟨e.1, hname e (List.mem_filter.mp he).1, (List.mem_filter.mp he).2, rfl⟩

/-- Two spellings of one facet parameter, and one with the prefix twice. -/
theorem facets_bound_spellings :
    ∃ sp, bindModel exampleCaseMapping (ofSegments exampleCaseMapping
        (readQuery exampleHttpUtility "F_color=red&f_COLOR=blue&f_f_x=1")) = .ok sp
      ∧ ∀ entry ∈ sp.facets.rows, ∃ name,
          some name ∈ (readQuery exampleHttpUtility "F_color=red&f_COLOR=blue&f_f_x=1").map Prod.fst
          ∧ isFacet name = true ∧ entry.1 = stripFacet name := by
  obtain ⟨sp, hsp, -, hentries⟩ := @facets_bound exampleHttpUtility exampleCaseMapping
    exampleCaseMapping "F_color=red&f_COLOR=blue&f_f_x=1" (by decide) (fun _ _ h => h)
  exact ⟨sp, hsp, hentries⟩

end CgGuide.FacetBinding
