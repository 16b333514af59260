/-
`UrlHelperExtensions` and `UrlHelperFacetExtensions`: links that change one
parameter of the current query string.

A link is written in three moves: cut the URL at its question marks, read the
query into a dictionary, print the dictionary behind the path again. The reader
(`parseQueryString`) and the printer (`dictToQuerystring`) are the repository's
own; what they take from the framework is `HttpUtility` for the escapes and the
comparer `InvariantCultureIgnoreCase`, which is read here as equality up to the
case mapping of the characters.

`setParameters_spec` is what a link is on the queries both readers agree about:
every segment has one `=`, and nothing behind the first `?` is another one.
-/
import CgGuide.Dictionaries
import CgGuide.DotNet

set_option autoImplicit false

namespace CgGuide.UrlHelperExtensions

open CgGuide.DotNet CgGuide.KeyedTable CgGuide.Dictionaries CgGuide.Dictionaries.Dictionary

/-! ## What the framework provides -/

/-- `HttpUtility`: decoding undoes encoding, an encoded text holds none of the
characters a query string is cut at, and only the empty text decodes to it. -/
structure HttpUtility where
  urlEncode : String → String
  urlDecode : String → String
  urlDecode_urlEncode : ∀ s, urlDecode (urlEncode s) = s
  urlEncode_plain : ∀ s, ∀ c ∈ (urlEncode s).toList, c ≠ '&' ∧ c ≠ '=' ∧ c ≠ '?'
  urlDecode_eq_empty : ∀ s, urlDecode s = "" ↔ s = ""

/-- A case mapping of the characters, with what the fixed names of a query need
of it. -/
structure CaseMapping where
  fold : Char → Char
  fold_f : ∀ c, fold c = fold 'f' ↔ c = 'f' ∨ c = 'F'
  fold_underscore : ∀ c, fold c = fold '_' ↔ c = '_'
  fold_p_ne_s : fold 'p' ≠ fold 's'

/-- Two texts are equal ignoring case when this makes them one. -/
def CaseMapping.ignoreCase (m : CaseMapping) (s : String) : List Char := s.toList.map m.fold

/-- An `object` passed as a parameter. -/
inductive Object
  | null
  | string (s : String)
  | int (n : Int32)

/-- `ToNullOrString`. -/
def toNullOrString : Object → Option String
  | .null => none
  | .string s => some s
  | .int n => some (int32ToString n)

/-! ## `UrlHelperExtensions` -/

/-- The dictionaries the class builds: of one comparer in `ParseQueryString`, of
the default one where there is no query. -/
abbrev QueryDictionary {Canon : Type} (canon : String → Canon) : Type :=
  Dictionary canon (Option String)

section Functions

variable (u : HttpUtility) (m : CaseMapping)

/-- The body of the loop of `ParseQueryString`: `v` is `kv.Split('=')`. -/
def parseSegment (d : QueryDictionary m.ignoreCase) (kv : String) :
    Except Exception (QueryDictionary m.ignoreCase) :=
  match split kv '=' with
  | [] => .ok d
  | v₀ :: v =>
    if v₀ = "" then .ok d
    else match v with
      | [] => .error { type := .indexOutOfRange }
      | v₁ :: _ => .ok (d.set (u.urlDecode v₀) (some (u.urlDecode v₁)))

/-- `s.Substring(1)` if `s.StartsWith("?")`, which is read here as a test of the first
character. -/
def dropQuestionMark (s : String) : String :=
  match s.toList with
  | '?' :: rest => String.ofList rest
  | _ => s

/-- `ParseQueryString`. -/
def parseQueryString : Option String → Except Exception (QueryDictionary m.ignoreCase)
  | none => .ok empty
  | some s => (split (dropQuestionMark s) '&').foldlM (parseSegment u m) empty

/-- One entry as `"{0}={1}"`; the encoding of null is null and prints as nothing. -/
def formatEntry (k : String × Option String) : String :=
  u.urlEncode k.1 ++ "=" ++ (k.2.map u.urlEncode).getD ""

/-- `DictToQuerystring`. -/
def dictToQuerystring (qs : List (String × Option String)) : String :=
  "&".intercalate ((qs.filter (fun k => !isNullOrEmpty (some k.1))).map (formatEntry u))

/-- `qs[p.Key] = p.Value.ToNullOrString()` for every parameter. -/
def assign {Canon : Type} [DecidableEq Canon] {canon : String → Canon} (qs : QueryDictionary canon)
    (parameters : List (String × Object)) : QueryDictionary canon :=
  qs.setAll (parameters.map (fun p => (p.1, toNullOrString p.2)))

/-- `SetParameters`. -/
def setParameters (url : String) (parameters : List (String × Object)) : Except Exception String :=
  let parts := split url '?'
  match parts[1]? with
  | none => .ok (parts.headD "" ++ "?"
      ++ dictToQuerystring u (assign (empty : QueryDictionary id) parameters).rows)
  | some query => do
    let qs ← parseQueryString u m (some query)
    return parts.headD "" ++ "?" ++ dictToQuerystring u (assign qs parameters).rows

/-- `SetParameter` with a string value. -/
def setParameter (url key : String) (value : Option String) : Except Exception String :=
  setParameters u m url [(key, match value with
    | none => .null
    | some s => .string s)]

/-- `RemoveParametersUrl`. -/
def removeParametersUrl (url : String) (parameters : List String) : Except Exception String :=
  let parts := split url '?'
  match parts[1]? with
  | none => .ok (parts.headD "" ++ "?"
      ++ dictToQuerystring u (parameters.foldl remove (empty : QueryDictionary id)).rows)
  | some query => do
    let qs ← parseQueryString u m (some query)
    return parts.headD "" ++ "?" ++ dictToQuerystring u (parameters.foldl remove qs).rows

/-! ## `UrlHelperFacetExtensions` -/

/-- The parameter of a facet field. -/
def facetParameter (field : String) : String := "f_" ++ field

/-- `SetFacet`, where `rawUrl` is the URL of the request. -/
def setFacet (rawUrl field : String) (value : Option String) : Except Exception String :=
  setParameters u m rawUrl [(facetParameter field, match value with
    | none => .null
    | some s => .string s), ("page", .int 1)]

/-- `RemoveFacet`. -/
def removeFacet (rawUrl field : String) : Except Exception String := do
  let noFacet ← removeParametersUrl u m rawUrl [facetParameter field]
  setParameter u m noFacet "page" (some "1")

end Functions

/-! ## Reading what is in a query -/

section Parsing

variable (u : HttpUtility) (m : CaseMapping)

/-- A segment with one equals sign: its two sides, decoded. -/
def Segment (seg : String) (name value : String) : Prop :=
  ∃ a b : String, seg.toList = a.toList ++ '=' :: b.toList ∧ '=' ∉ a.toList ∧ '=' ∉ b.toList
    ∧ u.urlDecode a = name ∧ u.urlDecode b = value

/-- The entries a query of such segments has: those with a name. -/
def named (segs : List (String × String)) : List (String × Option String) :=
  (segs.filter (fun e => !isNullOrEmpty (some e.1))).map (fun e => (e.1, some e.2))

theorem named_cons (e : String × String) (segs : List (String × String)) :
    named (e :: segs) = if e.1 = "" then named segs else (e.1, some e.2) :: named segs := by
  split_ifs with hempty
  · simp [named, hempty]
  · simp [named, hempty]

theorem parseSegment_of_segment {seg name value : String} (h : Segment u seg name value)
    (d : QueryDictionary m.ignoreCase) :
    parseSegment u m d seg = .ok (if name = "" then d else d.set name (some value)) := by
  obtain ⟨a, b, hseg, ha, hb, rfl, rfl⟩ := h
  have hsplit : split seg '=' = [a, b] := by
    rw [split_of_append hseg ha, split_of_not_mem hb]
  rw [parseSegment, hsplit]
  by_cases hempty : a = ""
  · simp only [if_pos hempty, if_pos ((u.urlDecode_eq_empty a).mpr hempty)]
  · have hdecoded : u.urlDecode a ≠ "" := fun h => hempty ((u.urlDecode_eq_empty a).mp h)
    simp only [if_neg hempty, if_neg hdecoded]

/-- **`ParseQueryString` on segments with one equals sign** assigns the named
ones in order. -/
theorem foldlM_parseSegment {parts : List String} {segs : List (String × String)}
    (h : List.Forall₂ (fun part e => Segment u part e.1 e.2) parts segs) :
    ∀ d : QueryDictionary m.ignoreCase,
      parts.foldlM (parseSegment u m) d = .ok (d.setAll (named segs)) := by
  induction h with
  | nil => exact fun d => rfl
  | @cons part e parts segs hpart _ ih =>
      intro d
      rw [List.foldlM_cons, parseSegment_of_segment u m hpart]
      show List.foldlM (parseSegment u m) (if e.1 = "" then d else d.set e.1 (some e.2)) parts = _
      rw [ih, named_cons]
      split_ifs
      · rfl
      · rfl

/-- A query of such segments; an empty query has none. -/
def Query (query : String) (segs : List (String × String)) : Prop :=
  (query = "" ∧ segs = [])
    ∨ List.Forall₂ (fun part e => Segment u part e.1 e.2) (split query '&') segs

theorem dropQuestionMark_of_not_mem {s : String} (h : '?' ∉ s.toList) :
    dropQuestionMark s = s := by
  unfold dropQuestionMark
  split
  · next rest hrest => exact absurd (hrest ▸ List.mem_cons_self) h
  · rfl

/-- **`ParseQueryString`** on a query without a question mark. -/
theorem parseQueryString_of_query {query : String} {segs : List (String × String)}
    (h : Query u query segs) (hmark : '?' ∉ query.toList) :
    parseQueryString u m (some query) = .ok (ofEntries (named segs)) := by
  rw [parseQueryString, dropQuestionMark_of_not_mem hmark]
  rcases h with ⟨rfl, rfl⟩ | h
  · rfl
  · exact foldlM_parseSegment u m h empty

/-! ## Printing -/

/-- The entries a dictionary prints, as they are read back. -/
def printed (qs : List (String × Option String)) : List (String × String) :=
  (qs.filter (fun k => !isNullOrEmpty (some k.1))).map (fun e => (e.1, e.2.getD ""))

theorem toList_formatEntry (e : String × Option String) :
    (formatEntry u e).toList
      = (u.urlEncode e.1).toList ++ '=' :: ((e.2.map u.urlEncode).getD "").toList := by
  rw [formatEntry, String.toList_append, String.toList_append, List.append_assoc]
  rfl

/-- The value side of a printed entry holds no separator and decodes to the value. -/
theorem encoded_value (v : Option String) :
    (∀ c ∈ ((v.map u.urlEncode).getD "").toList, c ≠ '&' ∧ c ≠ '=' ∧ c ≠ '?')
      ∧ u.urlDecode ((v.map u.urlEncode).getD "") = v.getD "" := by
  cases v with
  | none => exact ⟨fun c hc => absurd hc List.not_mem_nil, (u.urlDecode_eq_empty "").mpr rfl⟩
  | some s => exact ⟨u.urlEncode_plain s, u.urlDecode_urlEncode s⟩

theorem segment_formatEntry (e : String × Option String) :
    Segment u (formatEntry u e) e.1 (e.2.getD "") := by
  obtain ⟨hplain, hdecode⟩ := encoded_value u e.2
  refine ⟨u.urlEncode e.1, (e.2.map u.urlEncode).getD "", toList_formatEntry u e, ?_, ?_,
    u.urlDecode_urlEncode e.1, hdecode⟩
  · intro hc
    exact (u.urlEncode_plain e.1 '=' hc).2.1 rfl
  · intro hc
    exact (hplain '=' hc).2.1 rfl

theorem formatEntry_plain (e : String × Option String) :
    ∀ c ∈ (formatEntry u e).toList, c ≠ '&' ∧ c ≠ '?' := by
  intro c hc
  rw [toList_formatEntry, List.mem_append, List.mem_cons] at hc
  rcases hc with hc | rfl | hc
  · have h := u.urlEncode_plain e.1 c hc
    exact ⟨h.1, h.2.2⟩
  · decide
  · have h := (encoded_value u e.2).1 c hc
    exact ⟨h.1, h.2.2⟩

/-- A character of joined parts is one of a part or of the separator. -/
theorem mem_intercalate {separator : List Char} {c : Char} {parts : List (List Char)}
    (h : c ∈ separator.intercalate parts) : c ∈ separator ∨ ∃ part ∈ parts, c ∈ part := by
  induction parts with
  | nil => exact absurd h List.not_mem_nil
  | cons part parts ih =>
      cases parts with
      | nil =>
        rw [List.intercalate_singleton] at h
        exact Or.inr ⟨part, List.mem_cons_self, h⟩
      | cons part' parts =>
        rw [List.intercalate_cons_cons, List.mem_append, List.mem_append] at h
        rcases h with (h | h) | h
        · exact Or.inr ⟨part, List.mem_cons_self, h⟩
        · exact Or.inl h
        · rcases ih h with h | ⟨q, hq, hc⟩
          · exact Or.inl h
          · exact Or.inr ⟨q, List.mem_cons_of_mem _ hq, hc⟩

/-- A printed query starts no second query. -/
theorem question_not_mem_dictToQuerystring (qs : List (String × Option String)) :
    '?' ∉ (dictToQuerystring u qs).toList := by
  intro h
  rw [dictToQuerystring, String.toList_intercalate] at h
  rcases mem_intercalate h with h | ⟨part, hpart, hc⟩
  · exact absurd h (by decide)
  · rw [List.map_map] at hpart
    obtain ⟨e, -, rfl⟩ := List.mem_map.mp hpart
    exact (formatEntry_plain u e '?' hc).2 rfl

/-- **What `DictToQuerystring` prints** is a query of its entries. -/
theorem query_dictToQuerystring (qs : List (String × Option String)) :
    Query u (dictToQuerystring u qs) (printed qs) := by
  unfold dictToQuerystring printed
  generalize qs.filter (fun k => !isNullOrEmpty (some k.1)) = kept
  by_cases hne : kept = []
  · rw [hne]
    exact Or.inl ⟨rfl, rfl⟩
  · right
    have hplain : ∀ s ∈ kept.map (formatEntry u), '&' ∉ s.toList := by
      intro s hs hc
      obtain ⟨e, -, rfl⟩ := List.mem_map.mp hs
      exact (formatEntry_plain u e '&' hc).1 rfl
    have hne' : kept.map (formatEntry u) ≠ [] := by
      rw [ne_eq, List.map_eq_nil_iff]
      exact hne
    rw [split_intercalate rfl hplain hne', List.forall₂_map_left_iff, List.forall₂_map_right_iff]
    exact List.forall₂_same.mpr (fun e _ => segment_formatEntry u e)

/-! ## Links -/

/-- A URL with this path and a query of these segments, possibly no query. -/
def Link (url path : String) (segs : List (String × String)) : Prop :=
  '?' ∉ path.toList ∧
    ((url = path ∧ segs = [])
      ∨ ∃ query : String, url.toList = path.toList ++ '?' :: query.toList ∧ '?' ∉ query.toList
          ∧ Query u query segs)

/-- A path with a printed dictionary behind it. -/
theorem link_printed {path : String} (hpath : '?' ∉ path.toList)
    (qs : List (String × Option String)) :
    Link u (path ++ "?" ++ dictToQuerystring u qs) path (printed qs) := by
  refine ⟨hpath, Or.inr ⟨dictToQuerystring u qs, ?_, ?_, ?_⟩⟩
  · rw [String.toList_append, String.toList_append, List.append_assoc]
    rfl
  · exact question_not_mem_dictToQuerystring u qs
  · exact query_dictToQuerystring u qs

/-- The parts of a URL with a query. -/
theorem split_url {url path query : String}
    (hurl : url.toList = path.toList ++ '?' :: query.toList) (hpath : '?' ∉ path.toList)
    (hquery : '?' ∉ query.toList) : split url '?' = [path, query] := by
  rw [split_of_append hurl hpath, split_of_not_mem hquery]

/-- Parameters with different names, ignoring case, are the entries of the
dictionary they are assigned to, whatever its comparer. -/
theorem rows_assign_empty {Canon : Type} [DecidableEq Canon] {canon : String → Canon}
    (parameters : List (String × Object)) (h : (parameters.map (fun p => canon p.1)).Nodup) :
    (assign (empty : QueryDictionary canon) parameters).rows
      = parameters.map (fun p => (p.1, toNullOrString p.2)) := by
  apply rows_ofEntries
  rw [List.map_map]
  exact h

/-- **`SetParameters`** assigns the parameters over the entries of the query. Their
names have to differ: without a query the dictionary is a case-sensitive one. -/
theorem setParameters_spec {url path : String} {segs : List (String × String)}
    (h : Link u url path segs) (parameters : List (String × Object))
    (hnames : (parameters.map (fun p => m.ignoreCase p.1)).Nodup) :
    ∃ url', setParameters u m url parameters = .ok url'
      ∧ Link u url' path
          (printed
            (assign (ofEntries (named segs) : QueryDictionary m.ignoreCase) parameters).rows) := by
  obtain ⟨hpath, ⟨rfl, rfl⟩ | ⟨query, hurl, hmark, hquery⟩⟩ := h
  · -- names that differ ignoring case differ, so both comparers leave the same entries
    have hnames' : (parameters.map (fun p => id p.1)).Nodup := by
      apply List.Nodup.of_map m.ignoreCase
      rw [List.map_map]
      exact hnames
    have hrows : (assign (empty : QueryDictionary m.ignoreCase) parameters).rows
        = (assign (empty : QueryDictionary id) parameters).rows := by
      rw [rows_assign_empty parameters hnames, rows_assign_empty parameters hnames']
    refine ⟨url ++ "?" ++ dictToQuerystring u
      (assign (empty : QueryDictionary id) parameters).rows, ?_, ?_⟩
    · rw [setParameters, split_of_not_mem hpath]
      rfl
    · show Link u _ _ (printed (assign (empty : QueryDictionary m.ignoreCase) parameters).rows)
      rw [hrows]
      exact link_printed u hpath _
  · refine ⟨path ++ "?" ++ dictToQuerystring u
      (assign (ofEntries (named segs) : QueryDictionary m.ignoreCase) parameters).rows, ?_, ?_⟩
    · rw [setParameters, split_url hurl hpath hmark]
      show (parseQueryString u m (some query) >>= _) = _
      rw [parseQueryString_of_query u m hquery hmark]
      rfl
    · exact link_printed u hpath _

/-- **`RemoveParametersUrl`** with one parameter. -/
theorem removeParametersUrl_spec {url path : String} {segs : List (String × String)}
    (h : Link u url path segs) (key : String) :
    ∃ url', removeParametersUrl u m url [key] = .ok url'
      ∧ Link u url' path
          (printed ((ofEntries (named segs) : QueryDictionary m.ignoreCase).remove key).rows) := by
  obtain ⟨hpath, ⟨rfl, rfl⟩ | ⟨query, hurl, hmark, hquery⟩⟩ := h
  · refine ⟨url ++ "?" ++ dictToQuerystring u [], ?_, ?_⟩
    · rw [removeParametersUrl, split_of_not_mem hpath]
      rfl
    · exact link_printed u hpath []
  · refine ⟨path ++ "?" ++ dictToQuerystring u
      ((ofEntries (named segs) : QueryDictionary m.ignoreCase).remove key).rows, ?_, ?_⟩
    · rw [removeParametersUrl, split_url hurl hpath hmark]
      show (parseQueryString u m (some query) >>= _) = _
      rw [parseQueryString_of_query u m hquery hmark]
      rfl
    · exact link_printed u hpath _

/-! ## Reading a printed dictionary back -/

/-- The names a dictionary prints differ ignoring case. -/
theorem nodup_printed (d : QueryDictionary m.ignoreCase) :
    ((printed d.rows).map (fun e => m.ignoreCase e.1)).Nodup := by
  rw [printed, List.map_map]
  exact (List.Sublist.map _ List.filter_sublist).nodup d.keys_nodup

/-- None of them is empty, so all are kept when they are read. -/
theorem named_printed (qs : List (String × Option String)) :
    named (printed qs) = (printed qs).map (fun e => (e.1, some e.2)) := by
  rw [named, List.filter_eq_self.mpr]
  intro e he
  rw [printed] at he
  obtain ⟨k, hk, rfl⟩ := List.mem_map.mp he
  exact (List.mem_filter.mp hk).2

end Parsing

/-! ## Instances for concrete runs -/

/-- Escapes the characters a query is cut at, and the escape character. -/
def escape : List Char → List Char
  | [] => []
  | c :: rest =>
    if c = '&' then '%' :: '2' :: '6' :: escape rest
    else if c = '=' then '%' :: '3' :: 'd' :: escape rest
    else if c = '?' then '%' :: '3' :: 'f' :: escape rest
    else if c = '%' then '%' :: '2' :: '5' :: escape rest
    else c :: escape rest

def unescape : List Char → List Char
  | '%' :: '2' :: '6' :: rest => '&' :: unescape rest
  | '%' :: '3' :: 'd' :: rest => '=' :: unescape rest
  | '%' :: '3' :: 'f' :: rest => '?' :: unescape rest
  | '%' :: '2' :: '5' :: rest => '%' :: unescape rest
  | c :: rest => c :: unescape rest
  | [] => []

theorem unescape_escape (l : List Char) : unescape (escape l) = l := by
  induction l with
  | nil => rfl
  | cons c l ih =>
      unfold escape
      split_ifs with hand hequals hmark hpercent
      · rw [unescape, ih, hand]
      · rw [unescape, ih, hequals]
      · rw [unescape, ih, hmark]
      · rw [unescape, ih, hpercent]
      · rw [unescape, ih]
        all_goals simp [hpercent]

theorem escape_plain (l : List Char) : ∀ c ∈ escape l, c ≠ '&' ∧ c ≠ '=' ∧ c ≠ '?' := by
  induction l with
  | nil => exact fun c hc => absurd hc List.not_mem_nil
  | cons c l ih =>
      unfold escape
      split_ifs with hand hequals hmark hpercent
      · simpa using ih
      · simpa using ih
      · simpa using ih
      · simpa using ih
      · simpa using ⟨⟨hand, hequals, hmark⟩, ih⟩

/-- Escapes that agree with the framework's on letters, digits and `_`. -/
def exampleHttpUtility : HttpUtility where
  urlEncode s := String.ofList (escape s.toList)
  urlDecode s := String.ofList (unescape s.toList)
  urlDecode_urlEncode s := by
    rw [String.toList_ofList, unescape_escape, String.ofList_toList]
  urlEncode_plain s := by
    rw [String.toList_ofList]
    exact escape_plain s.toList
  urlDecode_eq_empty s := by
    rw [← String.toList_inj, String.toList_ofList, ← String.toList_inj]
    show unescape s.toList = [] ↔ s.toList = []
    unfold unescape
    split <;> simp_all

/-- `Char.toLower` moves the letters from `A` to `Z` and nothing else. -/
theorem toLower_cases (c : Char) :
    c.toLower = c ∨ 65 ≤ c.toNat ∧ c.toNat ≤ 90 ∧ c.toLower.toNat = c.toNat + 32 := by
  unfold Char.toLower
  split
  · next h =>
    obtain ⟨h65, h90⟩ := h
    have hlow : 65 ≤ c.toNat := h65
    have hhigh : c.toNat ≤ 90 := h90
    refine Or.inr ⟨hlow, hhigh, ?_⟩
    show (c.val + 32).toNat = c.toNat + 32
    rw [UInt32.toNat_add]
    show (c.toNat + 32) % 4294967296 = c.toNat + 32
    omega
  · exact Or.inl rfl

/-- The case mapping of the letters from `A` to `Z`. -/
def exampleCaseMapping : CaseMapping where
  fold := Char.toLower
  fold_f c := by
    constructor
    · intro h
      rcases toLower_cases c with hc | ⟨-, -, hc⟩
      · rw [hc] at h
        exact Or.inl h
      · right
        have hf : c.toLower.toNat = 102 := by
          rw [h]
          rfl
        apply Char.toNat_inj.mp
        show c.toNat = 70
        omega
    · rintro (rfl | rfl)
      · rfl
      · rfl
  fold_underscore c := by
    constructor
    · intro h
      rcases toLower_cases c with hc | ⟨hlow, hhigh, hc⟩
      · rw [hc] at h
        exact h
      · have hunderscore : c.toLower.toNat = 95 := by
          rw [h]
          rfl
        omega
    · rintro rfl
      rfl
  fold_p_ne_s := by decide

end CgGuide.UrlHelperExtensions
