/-
`SetParameters` and `RemoveParametersUrl` as operations on the parameters of a URL.

Both read the text between the first and the second question mark of the URL
(`secondPart`), change the dictionary and print it behind the path. What they leave
is said here by what the printed query reads back as: the dictionary they started
from with the entries assigned (`setParameters_reads`) or the keys removed
(`removeParametersUrl_reads`), whichever comparer the dictionary had. The laws of
chained links follow from these two.

The query of a URL goes on behind a second question mark, and what stands there the
code never sees. `Survives` says of the text of a query when that does not matter
(`keepsOthers_iff`).
-/
import CgGuide.FacetLinks
import CgGuide.QueryStrings

set_option autoImplicit false

namespace CgGuide.ParameterLinks

open CgGuide.DotNet CgGuide.KeyedTable CgGuide.Dictionaries CgGuide.Dictionaries.Dictionary
open CgGuide.UrlHelperExtensions CgGuide.SearchParametersBinder CgGuide.FacetLinks
open CgGuide.QueryStrings

/-! ## The parts of a URL -/

/-- The text before the first question mark. -/
def pathOf (url : String) : String := before url '?'

/-- `parts[1]`, where there is one: the text up to a second question mark. -/
def secondPart (url : String) : Option String := (split url '?')[1]?

theorem headD_split (url : String) : (split url '?').headD "" = pathOf url := by
  rw [split_eq]
  rfl

theorem secondPart_eq (url : String) :
    secondPart url = if '?' ∈ url.toList then some (before (queryOf url) '?') else none := by
  rw [secondPart, split_eq]
  by_cases h : '?' ∈ url.toList
  · rw [if_pos h, if_pos h, List.getElem?_cons_succ, split_eq]
    rfl
  · rw [if_neg h, if_neg h]
    rfl

/-- The parts of a printed link. -/
theorem parts_of_printed {path query : String} (hpath : '?' ∉ path.toList)
    (hquery : '?' ∉ query.toList) :
    pathOf (path ++ "?" ++ query) = path ∧ queryOf (path ++ "?" ++ query) = query
      ∧ secondPart (path ++ "?" ++ query) = some query := by
  have hurl : (path ++ "?" ++ query).toList = path.toList ++ '?' :: query.toList := by
    rw [String.toList_append, String.toList_append, List.append_assoc]
    rfl
  refine ⟨(before_behind_of_append hurl hpath).1, queryOf_of_append hurl hpath, ?_⟩
  rw [secondPart, split_url hurl hpath hquery]
  rfl

theorem question_not_mem_pathOf (url : String) : '?' ∉ (pathOf url).toList := by
  by_cases h : '?' ∈ url.toList
  · exact (toList_before_behind h).2
  · rw [pathOf, before_of_not_mem h]
    exact h

/-! ## What a link reads back as -/

section Links

variable (u : HttpUtility) (m : CaseMapping)

/-- A read dictionary has no empty key and no null. -/
theorem lookup_parsed {s : Option String} {d : QueryDictionary m.ignoreCase}
    (h : parseQueryString u m s = .ok d) {name : String} {v : Option String}
    (hv : d.lookup name = some v) : name ≠ "" ∧ ∃ t, v = some t := by
  cases s with
  | none =>
    rw [parseQueryString, Except.ok.injEq] at h
    rw [← h, lookup_empty] at hv
    exact absurd hv.symm (Option.some_ne_none v)
  | some s =>
    rw [((parseQueryString_ok_iff u m s d).mp h).2, lookup_ofEntries, storedEntries,
      lastValue_eq_some] at hv
    obtain ⟨seg, ⟨pre, post, hsegs, -⟩, hkey, rfl⟩ := hv
    refine ⟨?_, _, rfl⟩
    rintro rfl
    have hmem : seg ∈ namedSegments s := by
      rw [hsegs]
      exact List.mem_append_right _ List.mem_cons_self
    have hname : nameOf seg ≠ "" := by simpa using (List.mem_filter.mp hmem).2
    have hdecoded : keyOf u seg ≠ "" := fun h => hname ((u.urlDecode_eq_empty _).mp h)
    exact ignoreCase_empty_ne hdecoded hkey.symm

/-- The entries a parameter list is read back as: null counts as empty. -/
def entries (parameters : List (String × Object)) : List (String × Option String) :=
  parameters.map (fun p => (p.1, some ((toNullOrString p.2).getD "")))

/-- Assigning read values over a read dictionary, or reading the values assigned. -/
theorem lookup_setAll_entries {d : QueryDictionary m.ignoreCase}
    (hd : ∀ name v, d.lookup name = some v → name ≠ "" ∧ ∃ t, v = some t)
    (parameters : List (String × Object)) (name : String) :
    (d.setAll (entries parameters)).lookup name
      = ((assign d parameters).lookup name).map (fun v => some (v.getD "")) := by
  rw [entries, assign, lookup_setAll, lookup_setAll,
    lastValue_map (fun v => some ((toNullOrString v).getD "")), lastValue_map toNullOrString]
  cases lastValue m.ignoreCase parameters name with
  | some v => rfl
  | none =>
    rw [Option.map_none, Option.map_none, Option.none_or]
    cases hname : d.lookup name with
    | none => rfl
    | some v =>
      obtain ⟨-, t, rfl⟩ := hd name v hname
      rfl

/-- What is printed of a dictionary without an empty key answers as it does. -/
theorem lookup_reread (d : QueryDictionary m.ignoreCase) (hd : d.lookup "" = none)
    (name : String) :
    (ofEntries ((printed d.rows).map (fun e => (e.1, some e.2))) :
        QueryDictionary m.ignoreCase).lookup name
      = (d.lookup name).map (fun v => some (v.getD "")) := by
  have hprinted : (ofEntries ((printed d.rows).map (fun e => (e.1, some e.2))) :
      QueryDictionary m.ignoreCase).lookup name
      = ((ofEntries (printed d.rows) : Dictionary m.ignoreCase String).lookup name).map some := by
    rw [lookup_ofEntries, lastValue_map, ← lookup_ofEntries]
  by_cases hname : name = ""
  · rw [hprinted, hname, hd, Option.map_none, Option.map_eq_none_iff, lookup,
      Option.map_eq_none_iff, Table.find?_eq_none, rows_ofEntries (nodup_printed m d)]
    -- entries under the empty key are not printed
    intro e he hkey
    rw [printed] at he
    obtain ⟨k, hk, rfl⟩ := List.mem_map.mp he
    have hempty : k.1 ≠ "" := by simpa using (List.mem_filter.mp hk).2
    exact ignoreCase_empty_ne hempty hkey.symm
  · rw [hprinted, lookup_printed d hname, Option.map_map]
    rfl

/-- Nothing is stored under the empty key. -/
theorem lookup_empty_key {d : QueryDictionary m.ignoreCase}
    (hd : ∀ name v, d.lookup name = some v → name ≠ "" ∧ ∃ t, v = some t) :
    d.lookup "" = none := by
  by_contra hne
  obtain ⟨v, hv⟩ := Option.ne_none_iff_exists'.mp hne
  exact (hd "" v hv).1 rfl

theorem lookup_assign_empty {d : QueryDictionary m.ignoreCase}
    (hd : ∀ name v, d.lookup name = some v → name ≠ "" ∧ ∃ t, v = some t)
    {parameters : List (String × Object)} (hkeys : ∀ p ∈ parameters, p.1 ≠ "") :
    (assign d parameters).lookup "" = none := by
  have hnew : lastValue m.ignoreCase parameters "" = none := by
    rw [lastValue, Option.map_eq_none_iff, List.find?_eq_none]
    intro p hp
    have hne := ignoreCase_empty_ne (m := m) (hkeys p (List.mem_reverse.mp hp))
    simpa using Ne.symm hne
  rw [assign, lookup_setAll, lastValue_map toNullOrString, hnew, lookup_empty_key m hd]
  rfl

/-- **`SetParameters`** on a URL with a query. -/
theorem setParameters_of_some {url query : String} {d : QueryDictionary m.ignoreCase}
    (hquery : secondPart url = some query) (hd : parseQueryString u m (secondPart url) = .ok d)
    (parameters : List (String × Object)) :
    setParameters u m url parameters
      = .ok (pathOf url ++ "?" ++ dictToQuerystring u (assign d parameters).rows) := by
  rw [hquery] at hd
  rw [secondPart] at hquery
  simp only [setParameters, hquery, headD_split, hd]
  rfl

/-- On one without a query the parameters themselves are printed. -/
theorem setParameters_of_none {url : String} (hquery : secondPart url = none)
    {parameters : List (String × Object)} (hnodup : (parameters.map Prod.fst).Nodup) :
    setParameters u m url parameters = .ok (pathOf url ++ "?"
      ++ dictToQuerystring u (parameters.map (fun p => (p.1, toNullOrString p.2)))) := by
  have hrows : (assign (empty : QueryDictionary (id : String → String)) parameters).rows
      = parameters.map (fun p => (p.1, toNullOrString p.2)) :=
    rows_assign_empty parameters hnodup
  rw [secondPart] at hquery
  simp only [setParameters, hquery, headD_split, hrows]

/-- **`RemoveParametersUrl`** prints what is left of the dictionary it starts from. -/
theorem removeParametersUrl_eq {url : String} {d : QueryDictionary m.ignoreCase}
    (hd : parseQueryString u m (secondPart url) = .ok d) (ks : List String) :
    removeParametersUrl u m url ks
      = .ok (pathOf url ++ "?" ++ dictToQuerystring u (ks.foldl remove d).rows) := by
  cases hquery : secondPart url with
  | none =>
    rw [hquery, parseQueryString, Except.ok.injEq] at hd
    rw [secondPart] at hquery
    simp only [removeParametersUrl, hquery, headD_split, ← hd, rows_foldl_remove]
    rfl
  | some query =>
    rw [hquery] at hd
    rw [secondPart] at hquery
    simp only [removeParametersUrl, hquery, headD_split, hd]
    rfl

/-- What a printed link reads back as. -/
theorem reads_printed {path : String} (hpath : '?' ∉ path.toList)
    (qs : List (String × Option String)) :
    pathOf (path ++ "?" ++ dictToQuerystring u qs) = path
      ∧ secondPart (path ++ "?" ++ dictToQuerystring u qs)
          = some (queryOf (path ++ "?" ++ dictToQuerystring u qs))
      ∧ parseQueryString u m (some (queryOf (path ++ "?" ++ dictToQuerystring u qs)))
          = .ok (ofEntries ((printed qs).map (fun e => (e.1, some e.2)))) := by
  obtain ⟨hpath', hquery, hsecond⟩ :=
    parts_of_printed hpath (question_not_mem_dictToQuerystring u qs)
  refine ⟨hpath', ?_, ?_⟩
  · rw [hsecond, hquery]
  · rw [hquery]
    exact parseQueryString_printed u m qs

/-- **`SetParameters`** on a URL whose second part reads as `d`: the same path, and
a query that reads as `d` with the parameters assigned. -/
theorem setParameters_reads {url : String} {d : QueryDictionary m.ignoreCase}
    (hd : parseQueryString u m (secondPart url) = .ok d) {parameters : List (String × Object)}
    (hnodup : (parameters.map Prod.fst).Nodup) (hkeys : ∀ p ∈ parameters, p.1 ≠ "") :
    ∃ url' d', setParameters u m url parameters = .ok url' ∧ pathOf url' = pathOf url
      ∧ secondPart url' = some (queryOf url')
      ∧ parseQueryString u m (some (queryOf url')) = .ok d'
      ∧ ∀ name, d'.lookup name = (d.setAll (entries parameters)).lookup name := by
  have hparsed : ∀ name v, d.lookup name = some v → name ≠ "" ∧ ∃ t, v = some t :=
    fun name v hv => lookup_parsed u m hd hv
  cases hquery : secondPart url with
  | none =>
    obtain ⟨hpath, hsecond, hread⟩ := reads_printed u m (question_not_mem_pathOf url)
      (parameters.map (fun p => (p.1, toNullOrString p.2)))
    refine ⟨_, _, setParameters_of_none u m hquery hnodup, hpath, hsecond, hread, fun name => ?_⟩
    have hkeys' : ∀ e ∈ parameters.map (fun p => (p.1, toNullOrString p.2)), e.1 ≠ "" := by
      intro e he
      obtain ⟨p, hp, rfl⟩ := List.mem_map.mp he
      exact hkeys p hp
    rw [hquery, parseQueryString, Except.ok.injEq] at hd
    rw [printed_of_keys hkeys', List.map_map, List.map_map, ← hd]
    rfl
  | some query =>
    obtain ⟨hpath, hsecond, hread⟩ := reads_printed u m (question_not_mem_pathOf url)
      (assign d parameters).rows
    refine ⟨_, _, setParameters_of_some u m hquery hd parameters, hpath, hsecond, hread,
      fun name => ?_⟩
    rw [lookup_reread m _ (lookup_assign_empty m hparsed hkeys), lookup_setAll_entries m hparsed]

/-- **`RemoveParametersUrl`** on such a URL: the same path, and a query that reads as
`d` without the keys. -/
theorem removeParametersUrl_reads {url : String} {d : QueryDictionary m.ignoreCase}
    (hd : parseQueryString u m (secondPart url) = .ok d) (ks : List String) :
    ∃ url' d', removeParametersUrl u m url ks = .ok url' ∧ pathOf url' = pathOf url
      ∧ parseQueryString u m (some (queryOf url')) = .ok d'
      ∧ ∀ name, d'.lookup name
          = if ∃ k ∈ ks, m.ignoreCase k = m.ignoreCase name then none else d.lookup name := by
  obtain ⟨hpath, -, hread⟩ := reads_printed u m (question_not_mem_pathOf url)
    (ks.foldl remove d).rows
  have hleft : ∀ name, (ks.foldl remove d).lookup name
      = if ∃ k ∈ ks, m.ignoreCase k = m.ignoreCase name then none else d.lookup name :=
    fun name => lookup_foldl_remove ks name d
  have hempty : (ks.foldl remove d).lookup "" = none := by
    rw [hleft, lookup_empty_key m (fun name v hv => lookup_parsed u m hd hv), ite_self]
  refine ⟨_, _, removeParametersUrl_eq u m hd ks, hpath, hread, fun name => ?_⟩
  rw [lookup_reread m _ hempty, hleft]
  split_ifs with hremoved
  · rfl
  · cases hname : d.lookup name with
    | none => rfl
    | some v =>
      obtain ⟨-, t, rfl⟩ := lookup_parsed u m hd hname
      rfl

/-! ## Changing some parameters and keeping the others -/

/-- A URL whose query is empty or made of segments with a name and one equals sign. -/
def Regular (url : String) : Prop :=
  queryOf url = "" ∨ ∀ seg ∈ split (queryOf url) '&', nameOf seg ≠ "" ∧ seg.toList.count '=' = 1

/-- `SetParameters` keeps the path, and its query reads as that of `url` overridden
by the parameters. -/
def SetsParameters (url : String) (p : Dictionary (id : String → String) Object) : Prop :=
  ∃ url' d d', setParameters u m url p.rows = .ok url' ∧ pathOf url' = pathOf url
    ∧ parseQueryString u m (some (queryOf url)) = .ok d
    ∧ parseQueryString u m (some (queryOf url')) = .ok d'
    ∧ ∀ name, d'.lookup name = (d.setAll (entries p.rows)).lookup name

/-- `RemoveParametersUrl` keeps the path, and its query reads as that of `url` without
the keys. -/
def RemovesParameters (url : String) (ks : List String) : Prop :=
  ∃ url' d d', removeParametersUrl u m url ks = .ok url' ∧ pathOf url' = pathOf url
    ∧ parseQueryString u m (some (queryOf url)) = .ok d
    ∧ parseQueryString u m (some (queryOf url')) = .ok d'
    ∧ ∀ name, d'.lookup name
        = if ∃ k ∈ ks, m.ignoreCase k = m.ignoreCase name then none else d.lookup name

/-- The segments of a query of which the code does not see all. -/
def cutOff (query : String) : List String :=
  (split (dropQuestionMark query) '&').drop ((split (before query '?') '&').length - 1)

/-- What a change of `names` needs of a query with a second question mark. -/
structure Survives (query : String) (names : List String) : Prop where
  /-- The question mark does not cut a name. -/
  uncut : ∀ seg ∈ namedSegments (before query '?'), '=' ∈ seg.toList
  /-- Of the segments it cuts off, each is replaced by a later one of its name, has its name
  among `names`, or gives its name the value that it has in front of the question mark. -/
  repeated : ∀ seg ∈ cutOff query, IsLast m.ignoreCase (keyOf u) (namedSegments query) seg →
    (∃ k ∈ names, m.ignoreCase k = m.ignoreCase (keyOf u seg))
      ∨ ∃ seg', IsLast m.ignoreCase (keyOf u) (namedSegments (before query '?')) seg'
        ∧ m.ignoreCase (keyOf u seg') = m.ignoreCase (keyOf u seg)
        ∧ u.urlDecode (valueOf seg') = u.urlDecode (valueOf seg)

/-- Apart from `names`, what the code reads of a URL is what its whole query reads as. -/
def KeepsOthers (url : String) (names : List String) : Prop :=
  ∃ d d', parseQueryString u m (secondPart url) = .ok d
    ∧ parseQueryString u m (some (queryOf url)) = .ok d'
    ∧ ∀ name, (∀ k ∈ names, m.ignoreCase k ≠ m.ignoreCase name) → d.lookup name = d'.lookup name

/-- The second part of a URL reads, or there is one and it does not. -/
theorem reads_or_throws (url : String) :
    (∃ d, parseQueryString u m (secondPart url) = .ok d)
      ∨ ∃ query e, secondPart url = some query ∧ parseQueryString u m (some query) = .error e := by
  cases hread : parseQueryString u m (secondPart url) with
  | ok d => exact Or.inl ⟨d, rfl⟩
  | error e =>
    cases hquery : secondPart url with
    | none =>
      rw [hquery, parseQueryString] at hread
      exact absurd hread (by simp)
    | some query =>
      rw [hquery] at hread
      exact Or.inr ⟨query, e, rfl, hread⟩

/-- Both functions fail where the second part does not read. -/
theorem exists_read_of_setParameters {url url' : String} {parameters : List (String × Object)}
    (h : setParameters u m url parameters = .ok url') :
    ∃ d, parseQueryString u m (secondPart url) = .ok d := by
  refine (reads_or_throws u m url).resolve_right ?_
  rintro ⟨query, e, hquery, hread⟩
  rw [secondPart] at hquery
  simp [setParameters, hquery, hread] at h

theorem exists_read_of_removeParametersUrl {url url' : String} {ks : List String}
    (h : removeParametersUrl u m url ks = .ok url') :
    ∃ d, parseQueryString u m (secondPart url) = .ok d := by
  refine (reads_or_throws u m url).resolve_right ?_
  rintro ⟨query, e, hquery, hread⟩
  rw [secondPart] at hquery
  simp [removeParametersUrl, hquery, hread] at h

/-- Overriding gives the parameters their values and leaves the others. -/
theorem lookup_override (d : QueryDictionary m.ignoreCase)
    (p : Dictionary (id : String → String) Object) (name : String) :
    ((∀ k ∈ p.rows.map Prod.fst, m.ignoreCase k ≠ m.ignoreCase name) →
        (d.setAll (entries p.rows)).lookup name = d.lookup name)
      ∧ (¬ (∀ k ∈ p.rows.map Prod.fst, m.ignoreCase k ≠ m.ignoreCase name) →
        ∀ d' : QueryDictionary m.ignoreCase,
          (d.setAll (entries p.rows)).lookup name = (d'.setAll (entries p.rows)).lookup name) := by
  have hnone : lastValue m.ignoreCase (entries p.rows) name = none
      ↔ ∀ k ∈ p.rows.map Prod.fst, m.ignoreCase k ≠ m.ignoreCase name := by
    rw [lastValue_eq_none, entries, List.forall_mem_map, List.forall_mem_map]
  constructor
  · intro h
    rw [lookup_setAll, hnone.mpr h, Option.none_or]
  · intro h d'
    obtain ⟨v, hv⟩ := Option.ne_none_iff_exists'.mp (mt hnone.mp h)
    rw [lookup_setAll, lookup_setAll, hv, Option.some_or, Option.some_or]

theorem setsParameters_iff (url : String) {p : Dictionary (id : String → String) Object}
    (hp : ∀ e ∈ p.rows, e.1 ≠ "") :
    SetsParameters u m url p ↔ KeepsOthers u m url (p.rows.map Prod.fst) := by
  have hnodup : (p.rows.map Prod.fst).Nodup := p.keys_nodup
  constructor
  · rintro ⟨url', d', dset, hset, -, hwhole, hread, hlookup⟩
    obtain ⟨d, hd⟩ := exists_read_of_setParameters u m hset
    obtain ⟨url₁, d₁, hset₁, -, -, hread₁, hlookup₁⟩ := setParameters_reads u m hd hnodup hp
    rw [hset, Except.ok.injEq] at hset₁
    rw [← hset₁, hread, Except.ok.injEq] at hread₁
    refine ⟨d, d', hd, hwhole, fun name hname => ?_⟩
    -- a name that is not given is read before and after
    rw [← (lookup_override m d p name).1 hname, ← hlookup₁, ← hread₁, hlookup,
      (lookup_override m d' p name).1 hname]
  · rintro ⟨d, d', hd, hwhole, hothers⟩
    obtain ⟨url', dset, hset, hpath, -, hread, hlookup⟩ := setParameters_reads u m hd hnodup hp
    refine ⟨url', d', dset, hset, hpath, hwhole, hread, fun name => ?_⟩
    rw [hlookup]
    by_cases hname : ∀ k ∈ p.rows.map Prod.fst, m.ignoreCase k ≠ m.ignoreCase name
    · rw [(lookup_override m d p name).1 hname, (lookup_override m d' p name).1 hname]
      exact hothers name hname
    · exact (lookup_override m d p name).2 hname d'

theorem removesParameters_iff (url : String) (ks : List String) :
    RemovesParameters u m url ks ↔ KeepsOthers u m url ks := by
  have hremoved : ∀ name, (∃ k ∈ ks, m.ignoreCase k = m.ignoreCase name)
      ↔ ¬ ∀ k ∈ ks, m.ignoreCase k ≠ m.ignoreCase name := by
    intro name
    simp
  constructor
  · rintro ⟨url', d', dleft, hremove, -, hwhole, hread, hlookup⟩
    obtain ⟨d, hd⟩ := exists_read_of_removeParametersUrl u m hremove
    obtain ⟨url₁, d₁, hremove₁, -, hread₁, hlookup₁⟩ := removeParametersUrl_reads u m hd ks
    rw [hremove, Except.ok.injEq] at hremove₁
    rw [← hremove₁, hread, Except.ok.injEq] at hread₁
    refine ⟨d, d', hd, hwhole, fun name hname => ?_⟩
    have hkept : ¬ ∃ k ∈ ks, m.ignoreCase k = m.ignoreCase name := by
      rw [hremoved, not_not]
      exact hname
    have hbefore := hlookup₁ name
    have hafter := hlookup name
    rw [if_neg hkept] at hbefore hafter
    rw [← hbefore, ← hread₁, hafter]
  · rintro ⟨d, d', hd, hwhole, hothers⟩
    obtain ⟨url', dleft, hremove, hpath, hread, hlookup⟩ := removeParametersUrl_reads u m hd ks
    refine ⟨url', d', dleft, hremove, hpath, hwhole, hread, fun name => ?_⟩
    rw [hlookup]
    split_ifs with hname
    · rfl
    · rw [hremoved, not_not] at hname
      exact hothers name hname

/-! ### Behind a second question mark -/

/-- The reader drops a question mark that comes first, and no other. -/
theorem dropQuestionMark_of_mem {query : String} (hmark : '?' ∈ query.toList) :
    dropQuestionMark query = if before query '?' = "" then behind query '?' else query := by
  obtain ⟨hquery, -⟩ := toList_before_behind hmark
  split_ifs with hempty
  · rw [hempty] at hquery
    have hquery : query.toList = '?' :: (behind query '?').toList := hquery
    rw [dropQuestionMark, hquery]
    simp only [String.ofList_toList]
  · unfold dropQuestionMark
    split
    · next tail htail =>
      have htail' : query.toList = "".toList ++ '?' :: (String.ofList tail).toList := by
        rw [htail, String.toList_ofList (l := tail)]
        rfl
      exact absurd (before_behind_of_append htail' List.not_mem_nil).1 hempty
    · rfl

/-- The segments of a query and of the text in front of its question mark: the same up to
the one the question mark stands in. -/
theorem segments_cut {query : String} (hmark : '?' ∈ query.toList) :
    ∃ front x, split (before query '?') '&' = front ++ [x]
      ∧ split (dropQuestionMark query) '&' = front ++ cutOff query
      ∧ (x ≠ "" → ∃ (y : String) (rest : List String),
          cutOff query = (x ++ String.ofList ('?' :: y.toList)) :: rest)
      ∧ ((∀ seg ∈ split query '&', seg.toList.count '=' = 1) →
          (∀ seg ∈ front ++ cutOff query, seg.toList.count '=' = 1) ∧ x.toList.count '=' ≤ 1) := by
  obtain ⟨hquery, hfront⟩ := toList_before_behind hmark
  obtain ⟨front, x, y, rest, hbefore, hbehind, hsplit⟩ := split_around (c := '&') hquery (by decide)
  have hcount : ∀ z : String, (z ++ String.ofList ('?' :: y.toList)).toList.count '='
      = z.toList.count '=' + y.toList.count '=' := by
    intro z
    rw [String.toList_append, String.toList_ofList, List.count_append,
      List.count_cons_of_ne (by decide)]
  by_cases hempty : before query '?' = ""
  · -- the question mark comes first, and the reader drops it
    have hdrop : split (dropQuestionMark query) '&' = y :: rest := by
      rw [dropQuestionMark_of_mem hmark, if_pos hempty, hbehind]
    have hnothing : split (before query '?') '&' = [""] := by
      rw [hempty]
      decide
    have hcut : cutOff query = y :: rest := by
      rw [cutOff, hdrop, hnothing]
      rfl
    rw [hnothing] at hbefore
    have hbefore : [] ++ [""] = front ++ [x] := hbefore
    obtain ⟨rfl, hx⟩ := List.append_inj' hbefore rfl
    obtain rfl := List.head_eq_of_cons_eq hx
    refine ⟨[], "", hnothing, by rw [hdrop, hcut, List.nil_append], fun h => absurd rfl h, ?_⟩
    intro hone
    rw [hsplit] at hone
    refine ⟨fun seg hseg => ?_, by decide⟩
    rw [List.nil_append, hcut] at hseg
    rcases List.mem_cons.mp hseg with rfl | hseg
    · have h := hone _ List.mem_cons_self
      rw [hcount] at h
      simpa using h
    · exact hone _ (List.mem_cons_of_mem _ hseg)
  · have hdrop : dropQuestionMark query = query := by
      rw [dropQuestionMark_of_mem hmark, if_neg hempty]
    have hcut : cutOff query = (x ++ String.ofList ('?' :: y.toList)) :: rest := by
      rw [cutOff, hdrop, hsplit, hbefore, List.length_append, List.length_singleton,
        Nat.add_sub_cancel, List.drop_left]
    refine ⟨front, x, hbefore, by rw [hdrop, hsplit, hcut], fun _ => ⟨y, rest, hcut⟩, ?_⟩
    intro hone
    rw [hcut, ← hsplit]
    refine ⟨hone, ?_⟩
    have h := hone (x ++ String.ofList ('?' :: y.toList)) (by
      rw [hsplit]
      exact List.mem_append_right _ List.mem_cons_self)
    rw [hcount] at h
    omega

/-- A name that is not cut is the same in front of the question mark. -/
theorem nameOf_append {x rest : String} (h : '=' ∈ x.toList) : nameOf (x ++ rest) = nameOf x := by
  obtain ⟨hx, hname⟩ := toList_before_behind h
  have hlong : (x ++ rest).toList = (before x '=').toList
      ++ '=' :: (String.ofList ((behind x '=').toList ++ rest.toList)).toList := by
    rw [String.toList_append, String.toList_ofList, hx, List.append_assoc, List.cons_append]
  exact (before_behind_of_append hlong hname).1

/-- With one equals sign there is none in the value. -/
theorem nameOf_valueOf {seg : String} (h : seg.toList.count '=' ≤ 1) :
    nameOf (valueOf seg) = valueOf seg := by
  apply before_of_not_mem
  by_cases hmem : '=' ∈ seg.toList
  · obtain ⟨hseg, -⟩ := toList_before_behind hmem
    have hcount := congrArg (List.count '=') hseg
    rw [List.count_append, List.count_cons_self] at hcount
    rw [← List.count_eq_zero]
    show (behind seg '=').toList.count '=' = 0
    omega
  · rw [valueOf, behind_of_not_mem hmem]
    exact List.not_mem_nil

/-- **Two lists of segments**, the second with other segments behind the first ones: what
stands behind them in the first list has its name in the second. -/
theorem lastValue_prefix_iff (front : List String) {left right : List String}
    (hleft : ∀ x ∈ left, ∃ y ∈ right, keyOf u x = keyOf u y) (value : String → Option String)
    (names : List String) :
    (∀ name, (∀ k ∈ names, m.ignoreCase k ≠ m.ignoreCase name) →
        lastValue m.ignoreCase ((front ++ left).map (fun seg => (keyOf u seg, value seg))) name
          = lastValue m.ignoreCase
              ((front ++ right).map (fun seg => (keyOf u seg, value seg))) name)
      ↔ ∀ seg ∈ right, IsLast m.ignoreCase (keyOf u) (front ++ right) seg →
          (∃ k ∈ names, m.ignoreCase k = m.ignoreCase (keyOf u seg))
            ∨ ∃ seg', IsLast m.ignoreCase (keyOf u) (front ++ left) seg'
              ∧ m.ignoreCase (keyOf u seg') = m.ignoreCase (keyOf u seg)
              ∧ value seg' = value seg := by
  constructor
  · intro h seg _ hlast
    by_cases hname : ∃ k ∈ names, m.ignoreCase k = m.ignoreCase (keyOf u seg)
    · exact Or.inl hname
    · push Not at hname
      have hvalue := h (keyOf u seg) hname
      rw [lastValue_of_isLast hlast value, lastValue_eq_some] at hvalue
      exact Or.inr hvalue
  · intro h name hname
    cases hvalue : lastValue m.ignoreCase
        ((front ++ right).map (fun seg => (keyOf u seg, value seg))) name with
    | none =>
      rw [lastValue_eq_none, List.forall_mem_map] at hvalue ⊢
      intro seg hseg
      rcases List.mem_append.mp hseg with hseg | hseg
      · exact hvalue seg (List.mem_append_left _ hseg)
      · obtain ⟨y, hy, hkey⟩ := hleft seg hseg
        show m.ignoreCase (keyOf u seg) ≠ _
        rw [hkey]
        exact hvalue y (List.mem_append_right _ hy)
    | some v =>
      obtain ⟨seg, hlast, hkey, rfl⟩ := (lastValue_eq_some _ _ _ _ _).mp hvalue
      rw [lastValue_eq_some]
      by_cases hright : seg ∈ right
      · rcases h seg hright hlast with ⟨k, hk, hsame⟩ | ⟨seg', hlast', hkey', hvalue'⟩
        · exact absurd (hsame.trans hkey) (hname k hk)
        · exact ⟨seg', hlast', hkey'.trans hkey, hvalue'⟩
      · -- nothing of its name stands behind it in the first list either
        obtain ⟨pre, post, hsplit, hpost⟩ := hlast
        rcases List.append_eq_append_iff.mp hsplit with ⟨mid, hpre, hmid⟩ | ⟨mid, hfront, hmid⟩
        · have hmem : seg ∈ right := by
            rw [hmid]
            exact List.mem_append_right _ List.mem_cons_self
          exact absurd hmem hright
        · cases mid with
          | nil =>
            have hmem : seg ∈ right := by
              rw [List.nil_append] at hmid
              rw [← hmid]
              exact List.mem_cons_self
            exact absurd hmem hright
          | cons seg' mid =>
            rw [List.cons_append] at hmid
            obtain ⟨rfl, rfl⟩ := List.cons.inj hmid
            refine ⟨seg, ⟨pre, mid ++ left, ?_, fun y hy => ?_⟩, hkey, rfl⟩
            · rw [hfront, List.append_assoc, List.cons_append]
            · rcases List.mem_append.mp hy with hy | hy
              · exact hpost y (List.mem_append_left _ hy)
              · obtain ⟨z, hz, hsame⟩ := hleft y hy
                rw [hsame]
                exact hpost z (List.mem_append_right _ hz)

/-- A regular query is read to its end if it has no question mark. -/
theorem keepsOthers_of_regular {url : String} (hregular : Regular url)
    (hmark : '?' ∉ (queryOf url).toList) (names : List String) : KeepsOthers u m url names := by
  have hdrop : dropQuestionMark (queryOf url) = queryOf url := dropQuestionMark_of_not_mem hmark
  have hequals : ∀ seg ∈ namedSegments (queryOf url), '=' ∈ seg.toList := by
    intro seg hseg
    rcases hregular with hempty | hsegs
    · rw [hempty] at hseg
      have hnone : namedSegments "" = [] := by decide
      rw [hnone] at hseg
      exact absurd hseg List.not_mem_nil
    · rw [namedSegments, hdrop] at hseg
      have hcount := (hsegs seg (List.mem_filter.mp hseg).1).2
      exact List.count_pos_iff.mp (by omega)
  have hwhole := (parseQueryString_ok_iff u m (queryOf url) _).mpr ⟨hequals, rfl⟩
  refine ⟨_, _, ?_, hwhole, fun name _ => rfl⟩
  rw [secondPart_eq]
  by_cases hquery : '?' ∈ url.toList
  · rw [if_pos hquery, before_of_not_mem hmark]
    exact hwhole
  · have hempty : queryOf url = "" := behind_of_not_mem hquery
    rw [if_neg hquery, hempty]
    rfl

/-- The named segments of a query and of the text in front of its question mark. What stands
in the second only is the name that the question mark follows. -/
theorem namedSegments_cut {query : String} (hmark : '?' ∈ query.toList)
    (hone : ∀ seg ∈ split query '&', seg.toList.count '=' = 1) :
    ∃ front left, namedSegments (before query '?') = front ++ left
      ∧ namedSegments query = front ++ (cutOff query).filter (fun seg => nameOf seg ≠ "")
      ∧ (∀ seg ∈ namedSegments query, seg.toList.count '=' = 1)
      ∧ (∀ seg ∈ namedSegments (before query '?'), seg.toList.count '=' ≤ 1)
      ∧ ((∀ seg ∈ namedSegments (before query '?'), '=' ∈ seg.toList) → ∀ seg ∈ left,
          ∃ seg' ∈ (cutOff query).filter (fun seg => nameOf seg ≠ ""),
            keyOf u seg = keyOf u seg') := by
  obtain ⟨front, x, hbefore, hwhole, hcut, hcounts⟩ := segments_cut hmark
  obtain ⟨hcount, hx⟩ := hcounts hone
  have hread : namedSegments (before query '?')
      = front.filter (fun seg => nameOf seg ≠ "") ++ [x].filter (fun seg => nameOf seg ≠ "") := by
    rw [namedSegments, dropQuestionMark_of_not_mem (toList_before_behind hmark).2, hbefore,
      List.filter_append]
  refine ⟨_, _, hread, by rw [namedSegments, hwhole, List.filter_append], ?_, ?_, ?_⟩
  · intro seg hseg
    rw [namedSegments, hwhole] at hseg
    exact hcount seg (List.mem_filter.mp hseg).1
  · intro seg hseg
    rw [hread, ← List.filter_append] at hseg
    rcases List.mem_append.mp (List.mem_filter.mp hseg).1 with hfront | hlast
    · exact (hcount seg (List.mem_append_left _ hfront)).le
    · rw [List.mem_singleton.mp hlast]
      exact hx
  · intro huncut seg hseg
    obtain ⟨hsegx, hname⟩ := List.mem_filter.mp hseg
    obtain rfl := List.mem_singleton.mp hsegx
    have hnonempty : seg ≠ "" := by
      rintro rfl
      exact absurd hname (by decide)
    -- the question mark stands in a value, and the name in front of it is whole
    obtain ⟨y, rest, hcons⟩ := hcut hnonempty
    have hequal : '=' ∈ seg.toList := huncut seg (by
      rw [hread]
      exact List.mem_append_right _ hseg)
    have hsame : nameOf (seg ++ String.ofList ('?' :: y.toList)) = nameOf seg :=
      nameOf_append hequal
    refine ⟨seg ++ String.ofList ('?' :: y.toList), ?_, by rw [keyOf, keyOf, hsame]⟩
    rw [hcons, List.mem_filter, hsame]
    exact ⟨List.mem_cons_self, hname⟩

/-- What two readings of the query have in common, by their segments. -/
theorem keepsOthers_iff_lastValue {url : String} (hurl : '?' ∈ url.toList)
    (hequals : ∀ seg ∈ namedSegments (queryOf url), '=' ∈ seg.toList) (names : List String) :
    KeepsOthers u m url names
      ↔ (∀ seg ∈ namedSegments (before (queryOf url) '?'), '=' ∈ seg.toList)
        ∧ ∀ name, (∀ k ∈ names, m.ignoreCase k ≠ m.ignoreCase name) →
            lastValue m.ignoreCase (storedEntries u (namedSegments (before (queryOf url) '?'))) name
              = lastValue m.ignoreCase (storedEntries u (namedSegments (queryOf url))) name := by
  have hsecond : secondPart url = some (before (queryOf url) '?') := by
    rw [secondPart_eq, if_pos hurl]
  constructor
  · rintro ⟨d, d', hd, hd', hothers⟩
    rw [hsecond] at hd
    obtain ⟨huncut, heq⟩ := (parseQueryString_ok_iff u m _ _).mp hd
    obtain ⟨-, heq'⟩ := (parseQueryString_ok_iff u m _ _).mp hd'
    refine ⟨huncut, fun name hname => ?_⟩
    have h := hothers name hname
    rwa [heq, heq', lookup_ofEntries, lookup_ofEntries] at h
  · rintro ⟨huncut, hothers⟩
    have hd := (parseQueryString_ok_iff u m _ _).mpr ⟨huncut, rfl⟩
    have hd' := (parseQueryString_ok_iff u m _ _).mpr ⟨hequals, rfl⟩
    rw [← hsecond] at hd
    refine ⟨_, _, hd, hd', fun name hname => ?_⟩
    rw [lookup_ofEntries, lookup_ofEntries]
    exact hothers name hname

/-- A regular query with a question mark is read in front of it as in whole, apart from
some names, exactly when what is cut off survives. -/
theorem keepsOthers_cut_iff {url : String} (hregular : Regular url)
    (hmark : '?' ∈ (queryOf url).toList) (names : List String) :
    KeepsOthers u m url names ↔ Survives u m (queryOf url) names := by
  have hurl : '?' ∈ url.toList := by
    by_contra hno
    have hempty : queryOf url = "" := behind_of_not_mem hno
    rw [hempty] at hmark
    exact absurd hmark List.not_mem_nil
  have hsegs : ∀ seg ∈ split (queryOf url) '&', nameOf seg ≠ "" ∧ seg.toList.count '=' = 1 := by
    refine hregular.resolve_left ?_
    intro hempty
    rw [hempty] at hmark
    exact absurd hmark List.not_mem_nil
  obtain ⟨front, left, hread, hnamed, hone, hatmost, hleft⟩ :=
    namedSegments_cut u hmark (fun seg hseg => (hsegs seg hseg).2)
  have hequals : ∀ seg ∈ namedSegments (queryOf url), '=' ∈ seg.toList := by
    intro seg hseg
    have hcount := hone seg hseg
    exact List.count_pos_iff.mp (by omega)
  have hmem : ∀ {l : List String} {seg : String}, IsLast m.ignoreCase (keyOf u) l seg →
      seg ∈ l := by
    rintro l seg ⟨pre, post, rfl, -⟩
    exact List.mem_append_right _ List.mem_cons_self
  -- in both lists a segment has no second equals sign, so its value is stored whole
  have hvalue : ∀ seg, seg ∈ namedSegments (before (queryOf url) '?')
      ∨ seg ∈ namedSegments (queryOf url) → nameOf (valueOf seg) = valueOf seg := by
    rintro seg (hseg | hseg)
    · exact nameOf_valueOf (hatmost seg hseg)
    · exact nameOf_valueOf (hone seg hseg).le
  have hkept := fun huncut => lastValue_prefix_iff u m front (hleft huncut)
    (fun seg => some (u.urlDecode (nameOf (valueOf seg)))) names
  rw [← hread, ← hnamed] at hkept
  rw [keepsOthers_iff_lastValue u m hurl hequals]
  constructor
  · rintro ⟨huncut, hothers⟩
    refine ⟨huncut, fun seg hseg hlast => ?_⟩
    have hin := List.mem_filter.mp (hmem hlast)
    refine ((hkept huncut).mp hothers seg (List.mem_filter.mpr ⟨hseg, hin.2⟩) hlast).imp_right ?_
    rintro ⟨seg', hlast', hkey, hsame⟩
    refine ⟨seg', hlast', hkey, ?_⟩
    rw [hvalue seg' (Or.inl (hmem hlast')), hvalue seg (Or.inr (hmem hlast))] at hsame
    exact Option.some.inj hsame
  · rintro ⟨huncut, hrepeated⟩
    refine ⟨huncut, (hkept huncut).mpr (fun seg hseg hlast => ?_)⟩
    refine (hrepeated seg (List.mem_filter.mp hseg).1 hlast).imp_right ?_
    rintro ⟨seg', hlast', hkey, hsame⟩
    refine ⟨seg', hlast', hkey, ?_⟩
    rw [hvalue seg' (Or.inl (hmem hlast')), hvalue seg (Or.inr (hmem hlast)), hsame]

/-- **Setting and removing parameters keeps the others** of a regular query exactly when
it has no second question mark, or what that cuts off survives. -/
theorem keepsOthers_iff {url : String} (hregular : Regular url) :
    (∀ p : Dictionary (id : String → String) Object, (∀ e ∈ p.rows, e.1 ≠ "") →
        (SetsParameters u m url p ↔ '?' ∉ (queryOf url).toList
          ∨ Survives u m (queryOf url) (p.rows.map Prod.fst)))
      ∧ ∀ ks, RemovesParameters u m url ks ↔ '?' ∉ (queryOf url).toList
          ∨ Survives u m (queryOf url) ks := by
  have hkeeps : ∀ names, KeepsOthers u m url names
      ↔ '?' ∉ (queryOf url).toList ∨ Survives u m (queryOf url) names := by
    intro names
    by_cases hmark : '?' ∈ (queryOf url).toList
    · rw [or_iff_right (not_not.mpr hmark)]
      exact keepsOthers_cut_iff u m hregular hmark names
    · exact iff_of_true (keepsOthers_of_regular u m hregular hmark names) (Or.inl hmark)
  refine ⟨fun p hp => ?_, fun ks => ?_⟩
  · exact (setsParameters_iff u m url hp).trans (hkeeps _)
  · exact (removesParameters_iff u m url ks).trans (hkeeps ks)

end Links

/-- The parameters from the second question mark on are set again, and the first is kept. -/
theorem keepsOthers_question :
    SetsParameters exampleHttpUtility exampleCaseMapping "/s?a=1&b=x?y&c=2"
      ⟨[("B", .string "3"), ("c", .int 4)], by decide⟩ := by
  have hregular : Regular "/s?a=1&b=x?y&c=2" := Or.inr (by decide)
  have hnames : ∀ seg ∈ cutOff (queryOf "/s?a=1&b=x?y&c=2"), ∃ k ∈ ["B", "c"],
      exampleCaseMapping.ignoreCase k
        = exampleCaseMapping.ignoreCase (keyOf exampleHttpUtility seg) := by decide
  exact ((keepsOthers_iff exampleHttpUtility exampleCaseMapping hregular).1 _ (by decide)).mpr
    (Or.inr ⟨by decide, fun seg hseg _ => Or.inl (hnames seg hseg)⟩)

/-- What stands behind a second question mark is lost. -/
theorem setParameters_second_question :
    ¬ ∀ (url : String) (p : Dictionary (id : String → String) Object), Regular url →
      (∀ e ∈ p.rows, e.1 ≠ "") → SetsParameters exampleHttpUtility exampleCaseMapping url p := by
  intro h
  obtain ⟨url', d, d', hset, -, hwhole, hread, hlookup⟩ :=
    h "/s?a=x?y&b=1" ⟨[("c", .int 1)], by decide⟩ (Or.inr (by decide)) (by decide)
  have hlink : setParameters exampleHttpUtility exampleCaseMapping "/s?a=x?y&b=1" [("c", .int 1)]
      = .ok "/s?a=x&c=1" := rfl
  rw [hlink, Except.ok.injEq] at hset
  have hbefore : (parseQueryString exampleHttpUtility exampleCaseMapping
      (some (queryOf "/s?a=x?y&b=1"))).map
        (fun d => (d.setAll (entries [("c", .int 1)])).lookup "b")
      = .ok (some (some "1")) := rfl
  have hafter : (parseQueryString exampleHttpUtility exampleCaseMapping
      (some (queryOf "/s?a=x&c=1"))).map (fun d => d.lookup "b") = .ok none := rfl
  rw [← hset] at hread
  rw [hwhole] at hbefore
  rw [hread] at hafter
  have hlost : none = some (some "1") :=
    (Except.ok.inj hafter).symm.trans ((hlookup "b").trans (Except.ok.inj hbefore))
  exact absurd hlost (by simp)

/-! ## Chains of links -/

section Chains

variable (u : HttpUtility) (m : CaseMapping)

/-- Two links that are there and whose queries answer alike. -/
def ReadAlike (link link' : Except Exception String) : Prop :=
  ∃ url url' d d', link = .ok url ∧ link' = .ok url'
    ∧ parseQueryString u m (some (queryOf url)) = .ok d
    ∧ parseQueryString u m (some (queryOf url')) = .ok d'
    ∧ ∀ name, d.lookup name = d'.lookup name

/-- What printing keeps of the entries that are not removed. -/
theorem dictToQuerystring_filter (ks : List String) (qs : List (String × Option String)) :
    dictToQuerystring u (((printed qs).map (fun e => (e.1, some e.2))).filter
        (fun e => decide (∀ k ∈ ks, m.ignoreCase e.1 ≠ m.ignoreCase k)))
      = dictToQuerystring u (qs.filter
          (fun e => decide (∀ k ∈ ks, m.ignoreCase e.1 ≠ m.ignoreCase k))) := by
  have hprinted : ((printed qs).map (fun e => (e.1, some e.2))).filter
      (fun e => decide (∀ k ∈ ks, m.ignoreCase e.1 ≠ m.ignoreCase k))
      = (printed (qs.filter (fun e => decide (∀ k ∈ ks, m.ignoreCase e.1 ≠ m.ignoreCase k)))).map
          (fun e => (e.1, some e.2)) := by
    rw [printed, printed, List.map_map, List.map_map, List.filter_map, List.filter_filter,
      List.filter_filter]
    congr 1
    apply List.filter_congr
    intro e _
    rw [Bool.and_comm]
    rfl
  rw [hprinted, dictToQuerystring_printed]

/-- **Removing from a printed link** prints the entries that are not removed. -/
theorem removeParametersUrl_printed {path : String} (hpath : '?' ∉ path.toList)
    {qs : List (String × Option String)} (hnodup : (qs.map (fun e => m.ignoreCase e.1)).Nodup)
    (ks : List String) :
    removeParametersUrl u m (path ++ "?" ++ dictToQuerystring u qs) ks
      = .ok (path ++ "?" ++ dictToQuerystring u (qs.filter
          (fun e => decide (∀ k ∈ ks, m.ignoreCase e.1 ≠ m.ignoreCase k)))) := by
  obtain ⟨hpath', hsecond, hread⟩ := reads_printed u m hpath qs
  have hrows := rows_reread m ⟨qs, hnodup⟩
  rw [← hsecond] at hread
  rw [removeParametersUrl_eq u m hread, hpath', rows_foldl_remove, hrows,
    dictToQuerystring_filter]

/-- `SetParameter` is `SetParameters` with one object. -/
theorem exists_setParameters (key : String) (value : Option String) :
    ∃ o, ∀ url, setParameter u m url key value = setParameters u m url [(key, o)] :=
  ⟨_, fun _ => rfl⟩

/-- A parameter that is set and removed is removed. -/
theorem removeParametersUrl_setParameter {url : String} {d : QueryDictionary m.ignoreCase}
    (hd : parseQueryString u m (secondPart url) = .ok d) (key : String) (value : Option String) :
    (setParameter u m url key value >>= fun url' => removeParametersUrl u m url' [key])
      = removeParametersUrl u m url [key] := by
  obtain ⟨o, hobject⟩ := exists_setParameters u m key value
  have hnodup : ([(key, o)].map Prod.fst).Nodup := List.nodup_singleton _
  -- what is printed between, of which the key is removed
  obtain ⟨qs, hset, hnodup, hleft⟩ : ∃ qs : List (String × Option String),
      setParameters u m url [(key, o)] = .ok (pathOf url ++ "?" ++ dictToQuerystring u qs)
        ∧ (qs.map (fun e => m.ignoreCase e.1)).Nodup
        ∧ qs.filter (fun e => decide (∀ k ∈ [key], m.ignoreCase e.1 ≠ m.ignoreCase k))
            = (d.remove key).rows := by
    cases hquery : secondPart url with
    | none =>
      rw [hquery, parseQueryString, Except.ok.injEq] at hd
      -- without a query the code prints the parameter alone, and nothing is left
      refine ⟨_, setParameters_of_none u m hquery hnodup, List.nodup_singleton _, ?_⟩
      rw [← hd]
      simp [remove, Table.erase, empty]
    | some query =>
      refine ⟨_, setParameters_of_some u m hquery hd _, Table.keys_nodup _, ?_⟩
      -- the assignment touched only the entry that is removed
      have hrows := rows_foldl_remove [key] (d.set key (toNullOrString o))
      exact hrows.symm.trans (rows_remove_set d key (toNullOrString o))
  rw [hobject, hset, ok_bind, removeParametersUrl_printed u m (question_not_mem_pathOf url) hnodup,
    hleft, removeParametersUrl_eq u m hd, List.foldl_cons, List.foldl_nil]

/-- What is removed twice is removed once. -/
theorem removeParametersUrl_removeParametersUrl {url : String} {d : QueryDictionary m.ignoreCase}
    (hd : parseQueryString u m (secondPart url) = .ok d) (ks : List String) :
    (removeParametersUrl u m url ks >>= fun url' => removeParametersUrl u m url' ks)
      = removeParametersUrl u m url ks := by
  rw [removeParametersUrl_eq u m hd, ok_bind,
    removeParametersUrl_printed u m (question_not_mem_pathOf url) (Table.keys_nodup _),
    rows_foldl_remove, List.filter_filter]
  simp only [Bool.and_self]

/-- The keys may be removed in any order. -/
theorem removeParametersUrl_perm {url : String} {d : QueryDictionary m.ignoreCase}
    (hd : parseQueryString u m (secondPart url) = .ok d) {ks ks' : List String} (h : ks.Perm ks') :
    removeParametersUrl u m url ks = removeParametersUrl u m url ks' := by
  have hsame : (fun e : String × Option String =>
      decide (∀ k ∈ ks, m.ignoreCase e.1 ≠ m.ignoreCase k))
      = fun e => decide (∀ k ∈ ks', m.ignoreCase e.1 ≠ m.ignoreCase k) := by
    funext e
    simp only [h.mem_iff]
  rw [removeParametersUrl_eq u m hd, removeParametersUrl_eq u m hd, rows_foldl_remove,
    rows_foldl_remove, hsame]

/-- Two changes in a row read as their assignments in a row. -/
theorem setParameters_setParameters {url : String} {d : QueryDictionary m.ignoreCase}
    (hd : parseQueryString u m (secondPart url) = .ok d) {p q : List (String × Object)}
    (hp : (p.map Prod.fst).Nodup) (hpkeys : ∀ e ∈ p, e.1 ≠ "") (hq : (q.map Prod.fst).Nodup)
    (hqkeys : ∀ e ∈ q, e.1 ≠ "") :
    ∃ url' d', (setParameters u m url p >>= fun url' => setParameters u m url' q) = .ok url'
      ∧ parseQueryString u m (some (queryOf url')) = .ok d'
      ∧ ∀ name, d'.lookup name = ((lastValue m.ignoreCase (entries q) name).or
          (lastValue m.ignoreCase (entries p) name)).or (d.lookup name) := by
  obtain ⟨url₁, d₁, hset₁, -, hsecond₁, hread₁, hlookup₁⟩ := setParameters_reads u m hd hp hpkeys
  -- a printed link has no second question mark, so the next change reads all of it
  rw [← hsecond₁] at hread₁
  obtain ⟨url₂, d₂, hset₂, -, -, hread₂, hlookup₂⟩ := setParameters_reads u m hread₁ hq hqkeys
  refine ⟨url₂, d₂, ?_, hread₂, fun name => ?_⟩
  · rw [hset₁]
    exact hset₂
  · rw [hlookup₂, lookup_setAll, hlookup₁, lookup_setAll, Option.or_assoc]

/-- One parameters object over another, their keys compared ignoring case. -/
def overrideParameters (p q : Dictionary (id : String → String) Object) :
    Dictionary m.ignoreCase Object :=
  (ofEntries p.rows).setAll q.rows

theorem readAlike_override {url : String} {d : QueryDictionary m.ignoreCase}
    (hd : parseQueryString u m (secondPart url) = .ok d)
    {p q : Dictionary (id : String → String) Object} (hp : ∀ e ∈ p.rows, e.1 ≠ "")
    (hq : ∀ e ∈ q.rows, e.1 ≠ "") :
    ReadAlike u m (setParameters u m url p.rows >>= fun url' => setParameters u m url' q.rows)
      (setParameters u m url (overrideParameters m p q).rows) := by
  have hvalue : ∀ name, (overrideParameters m p q).lookup name
      = (lastValue m.ignoreCase q.rows name).or (lastValue m.ignoreCase p.rows name) := by
    intro name
    rw [overrideParameters, lookup_setAll, lookup_ofEntries]
  have hnodup : ((overrideParameters m p q).rows.map Prod.fst).Nodup := by
    apply List.Nodup.of_map m.ignoreCase
    rw [List.map_map]
    exact (overrideParameters m p q).keys_nodup
  -- no other key than the empty one is spelled like it, so the override has none either
  have hkeys : ∀ e ∈ (overrideParameters m p q).rows, e.1 ≠ "" := by
    rintro e he hempty
    have hlookup := (lookup_eq_some (overrideParameters m p q) "" e.2).mpr
      ⟨e, he, by rw [hempty], rfl⟩
    have hpnone : lastValue m.ignoreCase p.rows "" = none :=
      (lastValue_eq_none _ _).mpr (fun e he => Ne.symm (ignoreCase_empty_ne (hp e he)))
    have hqnone : lastValue m.ignoreCase q.rows "" = none :=
      (lastValue_eq_none _ _).mpr (fun e he => Ne.symm (ignoreCase_empty_ne (hq e he)))
    rw [hvalue, hpnone, hqnone] at hlookup
    exact absurd hlookup (by simp)
  obtain ⟨url₁, d₁, hset₁, hread₁, hlookup₁⟩ :=
    setParameters_setParameters u m hd p.keys_nodup hp q.keys_nodup hq
  obtain ⟨url₂, d₂, hset₂, -, -, hread₂, hlookup₂⟩ := setParameters_reads u m hd hnodup hkeys
  refine ⟨url₁, url₂, d₁, d₂, hset₁, hset₂, hread₁, hread₂, fun name => ?_⟩
  have hentries : ∀ l : List (String × Object), lastValue m.ignoreCase (entries l) name
      = (lastValue m.ignoreCase l name).map (fun v => some ((toNullOrString v).getD "")) :=
    fun l => lastValue_map (fun v => some ((toNullOrString v).getD "")) l name
  rw [hlookup₁, hlookup₂, lookup_setAll, hentries, hentries, hentries, lastValue_rows, hvalue,
    Option.map_or]

theorem readAlike_comm {url : String} {d : QueryDictionary m.ignoreCase}
    (hd : parseQueryString u m (secondPart url) = .ok d) {j k : String} (hj : j ≠ "") (hk : k ≠ "")
    (hne : m.ignoreCase j ≠ m.ignoreCase k) (v w : Option String) :
    ReadAlike u m (setParameter u m url j v >>= fun url' => setParameter u m url' k w)
      (setParameter u m url k w >>= fun url' => setParameter u m url' j v) := by
  obtain ⟨o, ho⟩ := exists_setParameters u m j v
  obtain ⟨o', ho'⟩ := exists_setParameters u m k w
  have hj' : ∀ e ∈ [(j, o)], e.1 ≠ "" := by simpa using hj
  have hk' : ∀ e ∈ [(k, o')], e.1 ≠ "" := by simpa using hk
  have hjnodup : ([(j, o)].map Prod.fst).Nodup := List.nodup_singleton _
  have hknodup : ([(k, o')].map Prod.fst).Nodup := List.nodup_singleton _
  obtain ⟨url₁, d₁, hset₁, hread₁, hlookup₁⟩ :=
    setParameters_setParameters u m hd hjnodup hj' hknodup hk'
  obtain ⟨url₂, d₂, hset₂, hread₂, hlookup₂⟩ :=
    setParameters_setParameters u m hd hknodup hk' hjnodup hj'
  refine ⟨url₁, url₂, d₁, d₂, ?_, ?_, hread₁, hread₂, fun name => ?_⟩
  · simp only [ho, ho']
    exact hset₁
  · simp only [ho, ho']
    exact hset₂
  · -- only one of the two keys is the name
    rw [hlookup₁, hlookup₂]
    by_cases hname : m.ignoreCase k = m.ignoreCase name
    · have hother : lastValue m.ignoreCase (entries [(j, o)]) name = none := by
        rw [lastValue_eq_none]
        simpa [entries, hname] using fun h => hne (h.trans hname.symm)
      rw [hother, Option.or_none, Option.none_or]
    · have hother : lastValue m.ignoreCase (entries [(k, o')]) name = none := by
        rw [lastValue_eq_none]
        simpa [entries] using hname
      rw [hother, Option.or_none, Option.none_or]

/-- **The laws of chained links**, for a URL the code can read: two changes are the
one that overrides the first by the second, changes of different parameters commute,
what is set and removed is removed, and removing twice or in another order is
removing. -/
theorem chained_links {url : String} {d : QueryDictionary m.ignoreCase}
    (hd : parseQueryString u m (secondPart url) = .ok d) :
    (∀ p q : Dictionary (id : String → String) Object,
        (∀ e ∈ p.rows, e.1 ≠ "") → (∀ e ∈ q.rows, e.1 ≠ "") →
        ReadAlike u m
          (setParameters u m url p.rows >>= fun url' => setParameters u m url' q.rows)
          (setParameters u m url (overrideParameters m p q).rows))
      ∧ (∀ (j k : String) (v w : Option String), j ≠ "" → k ≠ "" →
        m.ignoreCase j ≠ m.ignoreCase k →
        ReadAlike u m
          (setParameter u m url j v >>= fun url' => setParameter u m url' k w)
          (setParameter u m url k w >>= fun url' => setParameter u m url' j v))
      ∧ (∀ (k : String) (v : Option String),
        (setParameter u m url k v >>= fun url' => removeParametersUrl u m url' [k])
          = removeParametersUrl u m url [k])
      ∧ (∀ ks : List String,
        (removeParametersUrl u m url ks >>= fun url' => removeParametersUrl u m url' ks)
          = removeParametersUrl u m url ks)
      ∧ (∀ ks ks' : List String, ks.Perm ks' →
        removeParametersUrl u m url ks = removeParametersUrl u m url ks') := by
  refine ⟨fun p q hp hq => ?_, fun j k v w hj hk hne => ?_, fun k v => ?_, fun ks => ?_,
    fun ks ks' h => ?_⟩
  · exact readAlike_override u m hd hp hq
  · exact readAlike_comm u m hd hj hk hne v w
  · exact removeParametersUrl_setParameter u m hd k v
  · exact removeParametersUrl_removeParametersUrl u m hd ks
  · exact removeParametersUrl_perm u m hd h

end Chains

/-- A link that sets two parameters, one of them there in another spelling, changed by
another. -/
theorem chained_links_spellings :
    ReadAlike exampleHttpUtility exampleCaseMapping
        (setParameters exampleHttpUtility exampleCaseMapping "/s?q=a"
            [("Q", .string "b"), ("page", .int 2)]
          >>= fun url' => setParameters exampleHttpUtility exampleCaseMapping url'
            [("PAGE", .int 1)])
        (setParameters exampleHttpUtility exampleCaseMapping "/s?q=a"
          [("Q", .string "b"), ("page", .int 1)])
      ∧ removeParametersUrl exampleHttpUtility exampleCaseMapping "/s?q=a" ["page", "Q"]
          = removeParametersUrl exampleHttpUtility exampleCaseMapping "/s?q=a" ["Q", "page"] := by
  have hd : parseQueryString exampleHttpUtility exampleCaseMapping (secondPart "/s?q=a")
      = .ok ⟨[("q", some "a")], by decide⟩ := rfl
  obtain ⟨hoverride, -, -, -, hperm⟩ := chained_links exampleHttpUtility exampleCaseMapping hd
  exact ⟨hoverride ⟨[("Q", .string "b"), ("page", .int 2)], by decide⟩
    ⟨[("PAGE", .int 1)], by decide⟩ (by decide) (by decide), hperm _ _ (List.Perm.swap _ _ _)⟩

end CgGuide.ParameterLinks
