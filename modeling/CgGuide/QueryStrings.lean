/-
`ParseQueryString` and `DictToQuerystring` as a reader and a printer of the same
texts.

What is printed is read back (`parseQueryString_dictToQuerystring`). The other way
round the reader answers for every text, printed or typed, and here it is compared
with the reading a query string has by its format: cut each segment at its *first*
equals sign. The code cuts at every equals sign and takes the second part, so it
loses what follows a second one and has no second part where there is none;
`Readable` is what a text must be for neither to show.
-/
import CgGuide.UrlHelperExtensions

set_option autoImplicit false

namespace CgGuide.QueryStrings

open CgGuide.DotNet CgGuide.KeyedTable CgGuide.Dictionaries CgGuide.Dictionaries.Dictionary
open CgGuide.UrlHelperExtensions

/-! ## Printing and reading back -/

section RoundTrip

variable (u : HttpUtility) (m : CaseMapping)

/-- What a dictionary of any comparer prints, read by `ParseQueryString`. -/
theorem parseQueryString_printed (qs : List (String × Option String)) :
    parseQueryString u m (some (dictToQuerystring u qs))
      = .ok (ofEntries ((printed qs).map (fun e => (e.1, some e.2)))) := by
  rw [parseQueryString_of_query u m (query_dictToQuerystring u qs)
    (question_not_mem_dictToQuerystring u qs), named_printed]

/-- Of a dictionary that compares as the reader does, every printed entry is read. -/
theorem rows_reread (d : QueryDictionary m.ignoreCase) :
    (ofEntries ((printed d.rows).map (fun e => (e.1, some e.2))) :
      QueryDictionary m.ignoreCase).rows = (printed d.rows).map (fun e => (e.1, some e.2)) := by
  apply rows_ofEntries
  rw [List.map_map]
  exact nodup_printed m d

theorem urlEncode_empty : u.urlEncode "" = "" := by
  rw [← u.urlDecode_eq_empty, u.urlDecode_urlEncode]

/-- An entry prints the same once its null is the empty string. -/
theorem formatEntry_getD (e : String × Option String) :
    formatEntry u (e.1, some (e.2.getD "")) = formatEntry u e := by
  obtain ⟨k, v⟩ := e
  cases v with
  | none => simp [formatEntry, urlEncode_empty]
  | some s => simp [formatEntry]

/-- Printing what was read back prints the same text. -/
theorem dictToQuerystring_printed (qs : List (String × Option String)) :
    dictToQuerystring u ((printed qs).map (fun e => (e.1, some e.2))) = dictToQuerystring u qs := by
  have hkept : ((printed qs).map (fun e => (e.1, some e.2))).filter
      (fun k => !isNullOrEmpty (some k.1)) = (printed qs).map (fun e => (e.1, some e.2)) := by
    rw [← named_printed, named, List.filter_eq_self]
    intro k hk
    obtain ⟨e, he, rfl⟩ := List.mem_map.mp hk
    exact (List.mem_filter.mp he).2
  rw [dictToQuerystring, hkept, dictToQuerystring, printed, List.map_map, List.map_map]
  congr 1
  exact List.map_congr_left (fun e _ => formatEntry_getD u e)

/-- Nothing is left out of a dictionary without an empty key. -/
theorem printed_of_keys {qs : List (String × Option String)} (h : ∀ e ∈ qs, e.1 ≠ "") :
    printed qs = qs.map (fun e => (e.1, e.2.getD "")) := by
  rw [printed, List.filter_eq_self.mpr]
  intro e he
  simpa using h e he

/-- **A printed dictionary reads back**: the same entries in the same order, null
as the empty string, and printed again the same text. -/
theorem parseQueryString_dictToQuerystring (d : QueryDictionary m.ignoreCase)
    (h : ∀ e ∈ d.rows, e.1 ≠ "") :
    ∃ d', parseQueryString u m (some (dictToQuerystring u d.rows)) = .ok d'
      ∧ d'.rows = d.rows.map (fun e => (e.1, some (e.2.getD "")))
      ∧ dictToQuerystring u d'.rows = dictToQuerystring u d.rows := by
  refine ⟨_, parseQueryString_printed u m d.rows, ?_, ?_⟩
  · rw [rows_reread, printed_of_keys h, List.map_map]
    rfl
  · rw [rows_reread]
    exact dictToQuerystring_printed u d.rows

/-- Keys that hold the separators, and a null. -/
theorem parseQueryString_dictToQuerystring_separators :
    ∃ d', parseQueryString exampleHttpUtility exampleCaseMapping
        (some (dictToQuerystring exampleHttpUtility
          [("a&b", some "1=2"), ("?%26", none)])) = .ok d'
      ∧ d'.rows = [("a&b", some "1=2"), ("?%26", some "")]
      ∧ dictToQuerystring exampleHttpUtility d'.rows
          = dictToQuerystring exampleHttpUtility [("a&b", some "1=2"), ("?%26", none)] :=
  parseQueryString_dictToQuerystring exampleHttpUtility exampleCaseMapping
    ⟨[("a&b", some "1=2"), ("?%26", none)], by decide⟩ (by decide)

end RoundTrip

/-! ## The reference reading -/

/-- The text before the first equals sign of a segment. -/
def nameOf (seg : String) : String := before seg '='

/-- The text behind the first equals sign; empty without one. -/
def valueOf (seg : String) : String := behind seg '='

/-- The segments of a query string that have a name. -/
def namedSegments (s : String) : List String :=
  (split (dropQuestionMark s) '&').filter (fun seg => nameOf seg ≠ "")

section Reading

variable (u : HttpUtility) (m : CaseMapping)

/-- The key a segment is stored under. -/
def keyOf (seg : String) : String := u.urlDecode (nameOf seg)

/-- The reading of a query string by its format. -/
def referenceReading (s : String) : QueryDictionary m.ignoreCase :=
  ofEntries ((namedSegments s).map (fun seg => (keyOf u seg, some (u.urlDecode (valueOf seg)))))

/-- What a query string must be for the code to give that reading. -/
structure Readable (s : String) : Prop where
  /-- A segment with a name has an equals sign. -/
  equals : ∀ seg ∈ namedSegments s, '=' ∈ seg.toList
  /-- The last segment of each name has no second one. -/
  last : ∀ seg, IsLast m.ignoreCase (keyOf u) (namedSegments s) seg → '=' ∉ (valueOf seg).toList

/-! ## What the code reads -/

/-- **One segment**: skipped without a name, stored up to a second equals sign,
and fatal without a first. -/
theorem parseSegment_eq (d : QueryDictionary m.ignoreCase) (seg : String) :
    parseSegment u m d seg
      = if nameOf seg = "" then .ok d
        else if '=' ∈ seg.toList then
          .ok (d.set (keyOf u seg) (some (u.urlDecode (nameOf (valueOf seg)))))
        else .error { type := .indexOutOfRange } := by
  have hsplit : split seg '='
      = nameOf seg :: if '=' ∈ seg.toList then split (valueOf seg) '=' else [] := split_eq seg '='
  rw [parseSegment, hsplit]
  by_cases hempty : nameOf seg = ""
  · simp only [if_pos hempty]
  · by_cases h : '=' ∈ seg.toList
    · -- the second part ends at the second equals sign
      simp only [if_neg hempty, if_pos h]
      rw [split_eq (valueOf seg) '=']
      rfl
    · simp only [if_neg hempty, if_neg h]

/-- The entries the code stores for segments that have a name. -/
def storedEntries (segs : List String) : List (String × Option String) :=
  segs.map (fun seg => (keyOf u seg, some (u.urlDecode (nameOf (valueOf seg)))))

/-- The loop over segments that have an equals sign wherever they have a name. -/
theorem foldlM_parseSegment_ok (segs : List String) :
    ∀ d : QueryDictionary m.ignoreCase,
      (∀ seg ∈ segs.filter (fun seg => nameOf seg ≠ ""), '=' ∈ seg.toList) →
      segs.foldlM (parseSegment u m) d
        = .ok (d.setAll (storedEntries u (segs.filter (fun seg => nameOf seg ≠ "")))) := by
  induction segs with
  | nil => exact fun d _ => rfl
  | cons seg segs ih =>
      intro d h
      rw [List.foldlM_cons, parseSegment_eq]
      by_cases hempty : nameOf seg = ""
      · have hskip : (seg :: segs).filter (fun seg => nameOf seg ≠ "")
            = segs.filter (fun seg => nameOf seg ≠ "") := by
          simp [hempty]
        rw [hskip] at h ⊢
        rw [if_pos hempty]
        exact ih d h
      · have hkeep : (seg :: segs).filter (fun seg => nameOf seg ≠ "")
            = seg :: segs.filter (fun seg => nameOf seg ≠ "") := by
          simp [hempty]
        rw [hkeep] at h ⊢
        rw [if_neg hempty, if_pos (h seg List.mem_cons_self)]
        exact ih _ (fun x hx => h x (List.mem_cons_of_mem _ hx))

/-- One that has a name and no equals sign stops it. -/
theorem foldlM_parseSegment_error (segs : List String) :
    ∀ d : QueryDictionary m.ignoreCase,
      (∃ seg ∈ segs, nameOf seg ≠ "" ∧ '=' ∉ seg.toList) →
      segs.foldlM (parseSegment u m) d = .error { type := .indexOutOfRange } := by
  induction segs with
  | nil =>
      rintro d ⟨seg, hseg, -⟩
      exact absurd hseg List.not_mem_nil
  | cons seg segs ih =>
      rintro d ⟨bad, hbad, hname, hequals⟩
      rw [List.foldlM_cons, parseSegment_eq]
      by_cases hstop : nameOf seg ≠ "" ∧ '=' ∉ seg.toList
      · rw [if_neg hstop.1, if_neg hstop.2]
        rfl
      · have hne : bad ≠ seg := by
          rintro rfl
          exact hstop ⟨hname, hequals⟩
        have hrest : ∃ seg ∈ segs, nameOf seg ≠ "" ∧ '=' ∉ seg.toList :=
          ⟨bad, (List.mem_cons.mp hbad).resolve_left hne, hname, hequals⟩
        by_cases hempty : nameOf seg = ""
        -- this segment is skipped, or stored, and the one that stops the loop comes later
        · rw [if_pos hempty]
          exact ih d hrest
        · have hmem : '=' ∈ seg.toList := not_not.mp (fun h => hstop ⟨hempty, h⟩)
          rw [if_neg hempty, if_pos hmem]
          exact ih _ hrest

/-- **`ParseQueryString` returns** exactly when every segment with a name has an
equals sign, and then it has stored each up to its second one. -/
theorem parseQueryString_ok_iff (s : String) (d : QueryDictionary m.ignoreCase) :
    parseQueryString u m (some s) = .ok d
      ↔ (∀ seg ∈ namedSegments s, '=' ∈ seg.toList)
        ∧ d = ofEntries (storedEntries u (namedSegments s)) := by
  rw [parseQueryString]
  by_cases h : ∀ seg ∈ namedSegments s, '=' ∈ seg.toList
  · rw [foldlM_parseSegment_ok u m _ empty h, Except.ok.injEq, eq_comm]
    exact ⟨fun hd => ⟨h, hd⟩, fun hd => hd.2⟩
  · rw [foldlM_parseSegment_error u m]
    · exact ⟨fun hd => absurd hd (by simp), fun hd => absurd hd.1 h⟩
    · push Not at h
      obtain ⟨seg, hseg, hequals⟩ := h
      obtain ⟨hmem, hname⟩ := List.mem_filter.mp hseg
      exact ⟨seg, hmem, by simpa using hname, hequals⟩

/-- Of a text with a second equals sign, the part before it decodes to less than
the whole. -/
theorem urlDecode_nameOf_eq_iff
    (hdecode : ∀ a b, u.urlDecode (a ++ "=" ++ b) = u.urlDecode a ++ "=" ++ u.urlDecode b)
    (value : String) :
    u.urlDecode (nameOf value) = u.urlDecode value ↔ '=' ∉ value.toList := by
  constructor
  · intro h hmem
    have hvalue : value = nameOf value ++ "=" ++ valueOf value := by
      rw [← String.toList_inj, String.toList_append, String.toList_append, List.append_assoc]
      exact (toList_before_behind hmem).1
    have hlong : u.urlDecode value
        = u.urlDecode (nameOf value) ++ "=" ++ u.urlDecode (valueOf value) := by
      conv_lhs => rw [hvalue]
      exact hdecode _ _
    -- the equals sign stays one when the rest is decoded, so the whole is longer
    have hlength := congrArg String.length hlong
    rw [h, String.length_append, String.length_append] at hlength
    have hone : "=".length = 1 := rfl
    omega
  · intro h
    rw [nameOf, before_of_not_mem h]

/-- **`ParseQueryString` against the reference reading**, for every text. An escape
sequence holds no equals sign, so decoding leaves the equals signs where they are. -/
theorem parseQueryString_eq_referenceReading_iff
    (hdecode : ∀ a b, u.urlDecode (a ++ "=" ++ b) = u.urlDecode a ++ "=" ++ u.urlDecode b)
    (s : String) :
    parseQueryString u m (some s) = .ok (referenceReading u m s) ↔ Readable u m s := by
  have hlast : (referenceReading u m s = ofEntries (storedEntries u (namedSegments s)))
      ↔ ∀ seg, IsLast m.ignoreCase (keyOf u) (namedSegments s) seg →
          '=' ∉ (valueOf seg).toList := by
    -- the two readings assign to the same keys, so only the last segments of each count
    rw [referenceReading, storedEntries, eq_comm, ofEntries_eq_iff]
    refine forall_congr' (fun seg => imp_congr_right (fun _ => ?_))
    rw [Option.some.injEq]
    exact urlDecode_nameOf_eq_iff u hdecode (valueOf seg)
  rw [parseQueryString_ok_iff, hlast]
  exact ⟨fun h => ⟨h.1, h.2⟩, fun h => ⟨h.equals, h.last⟩⟩

end Reading

/-- Two characters in front of a text with a separator behind them are in front of
the separator. -/
theorem eq_cons_cons_of_append {a b rest : List Char} {x y c : Char} (hx : x ≠ c) (hy : y ≠ c)
    (h : a ++ c :: b = x :: y :: rest) : ∃ a', a = x :: y :: a' := by
  rcases a with _ | ⟨p, _ | ⟨q, a⟩⟩
  · exact absurd (List.cons.inj h).1.symm hx
  · exact absurd (List.cons.inj (List.cons.inj h).2).1.symm hy
  · rw [List.cons_append, List.cons_append, List.cons.injEq, List.cons.injEq] at h
    exact ⟨a, by rw [h.1, h.2.1]⟩

/-- No escape sequence of the concrete instance reaches over an equals sign. -/
theorem unescape_equals (a b : List Char) :
    unescape (a ++ '=' :: b) = unescape a ++ '=' :: unescape b := by
  fun_induction unescape a with
  | case1 rest ih => exact congrArg _ ih
  | case2 rest ih => exact congrArg _ ih
  | case3 rest ih => exact congrArg _ ih
  | case4 rest ih => exact congrArg _ ih
  | case5 c rest h26 h3d h3f h25 ih =>
    rw [List.cons_append, unescape, ih, List.cons_append]
    -- an escape sequence of the longer text is one of the shorter
    · intro after hc h
      obtain ⟨a', ha'⟩ := eq_cons_cons_of_append (by decide) (by decide) h
      exact h26 a' hc ha'
    · intro after hc h
      obtain ⟨a', ha'⟩ := eq_cons_cons_of_append (by decide) (by decide) h
      exact h3d a' hc ha'
    · intro after hc h
      obtain ⟨a', ha'⟩ := eq_cons_cons_of_append (by decide) (by decide) h
      exact h3f a' hc ha'
    · intro after hc h
      obtain ⟨a', ha'⟩ := eq_cons_cons_of_append (by decide) (by decide) h
      exact h25 a' hc ha'
  | case6 => rfl

theorem exampleHttpUtility_equals (a b : String) :
    exampleHttpUtility.urlDecode (a ++ "=" ++ b)
      = exampleHttpUtility.urlDecode a ++ "=" ++ exampleHttpUtility.urlDecode b := by
  have hlist : (a ++ "=" ++ b).toList = a.toList ++ '=' :: b.toList := by
    rw [String.toList_append, String.toList_append, List.append_assoc]
    rfl
  show String.ofList (unescape (a ++ "=" ++ b).toList)
    = String.ofList (unescape a.toList) ++ "=" ++ String.ofList (unescape b.toList)
  rw [hlist, unescape_equals, ← String.toList_inj, String.toList_append, String.toList_append,
    String.toList_ofList, String.toList_ofList, String.toList_ofList, String.toList_ofList,
    List.append_assoc]
  rfl

/-- A second equals sign does not show in a value that a later one replaces. -/
theorem parseQueryString_replaced :
    parseQueryString exampleHttpUtility exampleCaseMapping (some "?a=1=2&&A=3")
      = .ok (referenceReading exampleHttpUtility exampleCaseMapping "?a=1=2&&A=3") := by
  have hsegs : namedSegments "?a=1=2&&A=3" = ["a=1=2", "A=3"] := by decide
  rw [parseQueryString_eq_referenceReading_iff exampleHttpUtility exampleCaseMapping
    exampleHttpUtility_equals]
  refine ⟨by decide, ?_⟩
  rintro seg ⟨before, after, hl, hlater⟩
  rw [hsegs] at hl
  rcases before with _ | ⟨x, _ | ⟨y, before⟩⟩
  · obtain ⟨rfl, rfl⟩ := List.cons.inj hl
    refine absurd ?_ (hlater "A=3" List.mem_cons_self)
    have hupper : keyOf exampleHttpUtility "A=3" = "A" := by decide
    have hlower : keyOf exampleHttpUtility "a=1=2" = "a" := by decide
    rw [hupper, hlower]
    decide
  · obtain ⟨-, hl⟩ := List.cons.inj hl
    rw [← (List.cons.inj hl).1]
    decide
  · have hlength := congrArg List.length hl
    simp at hlength

/-- A segment without an equals sign makes the code throw. -/
theorem parseQueryString_throws :
    ¬ ∀ s, parseQueryString exampleHttpUtility exampleCaseMapping (some s)
      = .ok (referenceReading exampleHttpUtility exampleCaseMapping s) := by
  intro h
  have hthrown : parseQueryString exampleHttpUtility exampleCaseMapping (some "a")
      = .error { type := .indexOutOfRange } := rfl
  rw [h "a"] at hthrown
  exact absurd hthrown (by simp)

end CgGuide.QueryStrings
