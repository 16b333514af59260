/-
What the edit form loses between a property and its text.

The binder turns posted texts into properties and records an error for a text it
cannot convert. The action never asks for these errors; what stops a save is only the
mapping and the columns, which see the bound route. A `Created` that did not convert
is before every date a column stores and is refused there. A `Distance` that did not
convert is 0, which is a distance like any other (`rejectsMalformed_iff`).

The page in turn writes each property as a text. `Created` is written as a date, the
checkbox of `IsDeleted` is not checked for any route, and the script brings the distance
between its bounds. So an untouched form gives back neither a time of day nor a deletion
nor a distance beyond 3000 (`roundTrips_iff`).
-/
import CgGuide.EditForm

set_option autoImplicit false

namespace CgGuide.EditBinding

open CgGuide.DotNet CgGuide.KeyedTable CgGuide.Entities CgGuide.DbContext CgGuide.Repositories
open CgGuide.RoutesService CgGuide.EditScript CgGuide.EditForm RoutesController
open UpdatableEntity AppDbContext

variable (c : Culture) (runtimeText : ExceptionType → String)

/-! ## Which requests are stored -/

/-- Every date a request offers under the name of a nullable date is one a column
stores. -/
def DatesAccepted (values : ValueProvider) (property : String) : Prop :=
  ∀ text, values property = some text → ∀ d, c.toDateTime text = some d →
    sqlDateTimeAccepts d = true

/-- The posted texts make a route that the mapping and the columns take. -/
structure Storable (values : ValueProvider) : Prop where
  name : ∃ name, values "Name" = some name ∧ name ≠ "" ∧ DotNet.length name ≤ 50
  created : ∃ text d, values "Created" = some text ∧ c.toDateTime text = some d
    ∧ sqlDateTimeAccepts d = true
  deleted : DatesAccepted c values "Deleted"
  lastUpdated : DatesAccepted c values "LastUpdated"

theorem bindString_eq_some {values : ValueProvider} {property name : String} :
    bindString values property = some name ↔ values property = some name ∧ name ≠ "" := by
  unfold bindString
  cases values property with
  | none => simp
  | some text =>
    by_cases hempty : text = ""
    · simp only [if_pos hempty, Option.some.injEq, reduceCtorEq, false_iff, not_and, not_not]
      rintro rfl
      exact hempty
    · simp only [if_neg hempty, Option.some.injEq]
      constructor
      · rintro rfl
        exact ⟨rfl, hempty⟩
      · exact fun h => h.1

/-- The mapping takes the route when a name was posted that fits. -/
theorem validates_bindRoute {id : ℤ} {values : ValueProvider} :
    validates (bindRoute c id values) = true
      ↔ ∃ name, values "Name" = some name ∧ name ≠ "" ∧ DotNet.length name ≤ 50 := by
  have hvalidates : validates (bindRoute c id values)
      = RouteMap.validates (bindRoute c id values) := rfl
  rw [hvalidates, RouteMap.validates, bindRoute_name]
  cases hbound : bindString values "Name" with
  | none =>
    constructor
    · intro h
      exact absurd h (by simp)
    · rintro ⟨name, hposted, hne, -⟩
      rw [bindString_eq_some.mpr ⟨hposted, hne⟩] at hbound
      exact absurd hbound (by simp)
  | some name =>
    obtain ⟨hposted, hne⟩ := bindString_eq_some.mp hbound
    simp only [decide_eq_true_eq]
    constructor
    · exact fun h => ⟨name, hposted, hne, h⟩
    · rintro ⟨name', hposted', -, h⟩
      rw [hposted, Option.some.injEq] at hposted'
      rw [hposted']
      exact h

theorem all_bindNullable {values : ValueProvider} {property : String} :
    (bindNullable values property c.toDateTime).all sqlDateTimeAccepts = true
      ↔ DatesAccepted c values property := by
  unfold bindNullable DatesAccepted
  cases values property with
  | none => simp
  | some text =>
    rw [Option.bind_some]
    cases hd : c.toDateTime text with
    | none => simp [hd]
    | some d => simp [hd]

/-- The default of `Created` is refused: only a posted date that converts passes. -/
theorem accepts_bindValue {values : ValueProvider} :
    sqlDateTimeAccepts (bindValue values "Created" c.toDateTime Route.default.created) = true
      ↔ ∃ text d, values "Created" = some text ∧ c.toDateTime text = some d
        ∧ sqlDateTimeAccepts d = true := by
  have hdefault : sqlDateTimeAccepts Route.default.created = false := by decide
  unfold bindValue
  cases values "Created" with
  | none => simp [hdefault]
  | some text =>
    cases hd : c.toDateTime text with
    | none => simp [hd, hdefault]
    | some d => simp [hd]

/-- A request that succeeds replaces the route by what is bound from it. -/
theorem editPost_of_success {t : RouteTable} {id : ℤ} {values : ValueProvider}
    (h : (editPost c runtimeText t id values).1 = editSuccess) :
    editPost c runtimeText t id values = (editSuccess, t.replace (bindRoute c id values))
      ∧ validates (bindRoute c id values) = true
      ∧ columnsAccept (bindRoute c id values) = true := by
  have hpost : editPost c runtimeText t id values
      = (editSuccess, (editPost c runtimeText t id values).2) := Prod.ext h rfl
  obtain ⟨hvalid, haccept, -, htable⟩ :=
    saveModified_ok.mp ((editPost_success_iff c runtimeText _ _ _ _).mp hpost)
  refine ⟨?_, hvalid, haccept⟩
  rw [hpost, htable]

/-- **An update of a stored route from a request succeeds** exactly when the request
is storable. -/
theorem editPost_success_iff_storable {t : RouteTable} {id : ℤ} {old : Route}
    (hold : t.find? id = some old) (values : ValueProvider) :
    (editPost c runtimeText t id values).1 = editSuccess ↔ Storable c values := by
  have hcolumns : columnsAccept (bindRoute c id values) = true
      ↔ (∃ text d, values "Created" = some text ∧ c.toDateTime text = some d
          ∧ sqlDateTimeAccepts d = true)
        ∧ DatesAccepted c values "Deleted" ∧ DatesAccepted c values "LastUpdated" := by
    rw [← accepts_bindValue, ← all_bindNullable, ← all_bindNullable, ← and_assoc,
      ← Bool.and_eq_true, ← Bool.and_eq_true]
    rfl
  constructor
  · intro h
    obtain ⟨-, hvalid, haccept⟩ := editPost_of_success c runtimeText h
    obtain ⟨hcreated, hdeleted, hlastUpdated⟩ := hcolumns.mp haccept
    exact ⟨(validates_bindRoute c).mp hvalid, hcreated, hdeleted, hlastUpdated⟩
  · intro h
    have hsave : saveModified t (bindRoute c id values) = .ok (t.replace (bindRoute c id values)) :=
      saveModified_ok.mpr ⟨(validates_bindRoute c).mpr h.name,
        hcolumns.mpr ⟨h.created, h.deleted, h.lastUpdated⟩, ⟨old, hold⟩, rfl⟩
    rw [(editPost_success_iff c runtimeText _ _ _ _).mpr hsave]

/-! ## Texts that do not convert -/

/-- The text posted for `Distance` or for `Created` does not convert. -/
def Malformed (values : ValueProvider) : Prop :=
  (∃ text, values "Distance" = some text ∧ c.toInt32 text = none)
    ∨ ∃ text, values "Created" = some text ∧ c.toDateTime text = none

/-- Such a request is answered with an error and changes nothing. -/
def RejectsMalformed (t : RouteTable) (id : ℤ) (values : ValueProvider) : Prop :=
  Malformed c values →
    (editPost c runtimeText t id values).1 ≠ editSuccess
      ∧ (editPost c runtimeText t id values).2 = t

/-- **A text that does not convert is rejected** exactly when it is that of `Created`,
or the request is refused for something else. -/
theorem rejectsMalformed_iff {t : RouteTable} {id : ℤ} {old : Route}
    (hold : t.find? id = some old) (values : ValueProvider) :
    RejectsMalformed c runtimeText t id values ↔
      (∀ text, values "Distance" = some text → c.toInt32 text ≠ none) ∨ ¬ Storable c values := by
  have hsuccess := editPost_success_iff_storable c runtimeText hold values
  by_cases hstorable : Storable c values
  · rw [or_iff_left (not_not.mpr hstorable)]
    constructor
    · -- the route is stored with 0 for the text that did not convert
      intro hrejects text hposted hconvert
      exact (hrejects (Or.inl ⟨text, hposted, hconvert⟩)).1 (hsuccess.mpr hstorable)
    · rintro hdistance (⟨text, hposted, hconvert⟩ | ⟨text, hposted, hconvert⟩)
      · exact absurd hconvert (hdistance text hposted)
      · -- a storable request has a date that converts
        obtain ⟨text', d, hposted', hconvert', -⟩ := hstorable.created
        rw [hposted, Option.some.injEq] at hposted'
        rw [← hposted', hconvert] at hconvert'
        exact absurd hconvert' (by simp)
  · refine iff_of_true (fun _ => ?_) (Or.inr hstorable)
    have hfailed : (editPost c runtimeText t id values).1 ≠ editSuccess :=
      fun h => hstorable (hsuccess.mp h)
    exact ⟨hfailed, editPost_failure c runtimeText t id values hfailed⟩

/-- The form of the first seeded route, posted with a distance that is no number. -/
def farAway : Submission :=
  { (renderEdit exampleCulture ruta1).submit with distance := "far" }

/-- The same without a name. -/
def nameless : Submission := { farAway with name := "" }

theorem nameless_rejected :
    RejectsMalformed exampleCulture (fun _ => "") seedTable 3 nameless.values :=
  (@rejectsMalformed_iff exampleCulture (fun _ => "") seedTable 3 ruta1 (by decide)
    nameless.values).mpr (Or.inr fun h => by
      obtain ⟨name, hname, hne, -⟩ := h.name
      exact hne (Option.some.inj hname).symm)

/-- The seeded route is stored with the distance 0. -/
theorem far_away_stored :
    exampleCulture.toInt32 farAway.distance = none
      ∧ (editPost exampleCulture (fun _ => "") seedTable 3 farAway.values).1 = editSuccess
      ∧ ((editPost exampleCulture (fun _ => "") seedTable 3 farAway.values).2.find? 3).map
          Route.distance = some 0
      ∧ ¬ RejectsMalformed exampleCulture (fun _ => "") seedTable 3 farAway.values := by
  have hdistance : exampleCulture.toInt32 farAway.distance = none := by decide
  have hsuccess : (editPost exampleCulture (fun _ => "") seedTable 3 farAway.values).1
      = editSuccess := by decide
  refine ⟨hdistance, hsuccess, by decide, fun hrejects => ?_⟩
  exact (hrejects (Or.inl ⟨farAway.distance, rfl, hdistance⟩)).1 hsuccess

/-! ## The untouched page -/

/-- `DateTime.Date`: the midnight before. -/
def date (d : DateTime) : DateTime :=
  ⟨d.ticks - d.ticks % 864000000000, Nat.lt_of_le_of_lt (Nat.sub_le _ _) d.ticks_lt⟩

theorem date_date (d : DateTime) : date (date d) = date d := by
  unfold date
  simp only [DateTime.mk.injEq]
  omega

/-- Opening the page of a route and submitting it as it is: the script lets it be posted,
and the same name, distance, creation date and flag are stored back. -/
def RoundTrips (t : RouteTable) (r : Route) : Prop :=
  ∃ page t' r', editGet c t r.id = .ok page
    ∧ page.ready.keepsRules = true
    ∧ editPost c runtimeText t r.id page.submit.values = (editSuccess, t')
    ∧ t'.find? r.id = some r'
    ∧ r'.name = r.name ∧ r'.distance = r.distance ∧ r'.created = r.created
    ∧ r'.isDeleted = r.isDeleted

/-- A route whose page gives back what it was rendered from. -/
structure GivenBack (r : Route) : Prop where
  /-- A name that is not blank, fits the column, and has no line break that is rewritten. -/
  name : ∃ name, r.name = some name ∧ required name = true ∧ DotNet.length name ≤ 50
    ∧ Paired name.toList
  /-- A distance between the bounds of the spinner. -/
  distance : 0 ≤ r.distance ∧ r.distance ≤ 3000
  midnight : date r.created = r.created
  created : sqlDateTimeAccepts r.created = true
  live : r.isDeleted = false
  /-- The other two texts keep the rules of the form. -/
  rules : maxlength 11 (c.toShortDateString r.created) = true
    ∧ maxlength 50 (r.comments.getD "") = true

/-- A column that stores a date stores its midnight. -/
theorem sqlDateTimeAccepts_date (d : DateTime) :
    sqlDateTimeAccepts (date d) = sqlDateTimeAccepts d := by
  unfold sqlDateTimeAccepts date
  rw [Bool.eq_iff_iff, decide_eq_true_eq, decide_eq_true_eq]
  -- the first date it stores is a midnight
  show 552877920000000000 ≤ _ ↔ 552877920000000000 ≤ _
  dsimp only
  omega

section Untouched

variable (hround : ∀ d, c.toInt32 (c.int32ToString d) = some d)
  (hdigits : ∀ d, 0 ≤ d → c.int32ToString d = DotNet.int32ToString d)
  (hdate : ∀ d, c.toDateTime (c.toShortDateString d) = some (date d))
  (hline : ∀ d, '\r' ∉ (c.toShortDateString d).toList ∧ '\n' ∉ (c.toShortDateString d).toList)

include hdate hline in
/-- What an untouched page is bound to. -/
theorem bindRoute_untouched (r : Route) :
    (bindRoute c r.id (renderEdit c r).submit.values).created = date r.created
      ∧ (bindRoute c r.id (renderEdit c r).submit.values).isDeleted = false
      ∧ (serialized (r.name.getD "") ≠ "" →
        (bindRoute c r.id (renderEdit c r).submit.values).name
          = some (serialized (r.name.getD ""))) := by
  have hcreated : c.toDateTime (renderEdit c r).submit.created = some (date r.created) := by
    show c.toDateTime (serialized (c.toShortDateString r.created)) = _
    rw [serialized_of_not_mem (hline r.created), hdate]
  refine ⟨?_, rfl, fun hne => ?_⟩
  · rw [bindRoute_submission, hcreated, Option.getD_some]
  · have hposted : (renderEdit c r).submit.values "Name"
        = some (serialized (r.name.getD "")) := rfl
    rw [bindRoute_name]
    exact bindString_eq_some.mpr ⟨hposted, hne⟩

include hround hdigits in
/-- **The spinner gives a distance back** when it is between its bounds. -/
theorem distance_untouched (r : Route) :
    (bindRoute c r.id (renderEdit c r).submit.values).distance = r.distance
      ↔ 0 ≤ r.distance ∧ r.distance ≤ 3000 := by
  have hbound : (bindRoute c r.id (renderEdit c r).submit.values).distance
      = (c.toInt32 (serialized (Spinner.format
          (Spinner.change 0 3000 none (c.int32ToString r.distance))))).getD
            Route.default.distance := rfl
  have hreads : ∀ n : ℕ, n ≤ 3000 →
      c.toInt32 (String.ofList (intChars n)) = some (Int32.ofNat n) := by
    intro n hn
    have hpos : 0 ≤ Int32.ofNat n := by
      rw [Int32.le_iff_toInt_le, Int32.toInt_ofNat_of_lt (by omega)]
      exact Int.natCast_nonneg n
    rw [← int32ToString_ofNat (by omega), ← hdigits _ hpos, hround]
  constructor
  · intro h
    obtain ⟨n, hn, htext⟩ := Spinner.exists_format_change 0 3000 (by decide) (by decide)
      none (c.int32ToString r.distance)
    rw [hbound, htext, serialized_intChars, hreads n (by omega), Option.getD_some] at h
    rw [← h, Int32.le_iff_toInt_le, Int32.le_iff_toInt_le, Int32.toInt_ofNat_of_lt (by omega)]
    exact ⟨Int.natCast_nonneg n, hn⟩
  · rintro ⟨hlow, hhigh⟩
    have hwritten := hdigits _ hlow
    rw [Int32.le_iff_toInt_le] at hlow hhigh
    obtain ⟨n, hn⟩ := Int.eq_ofNat_of_zero_le hlow
    have hsmall : n ≤ 3000 := by
      have h3000 : (3000 : Int32).toInt = 3000 := by decide
      omega
    have hkept : Spinner.format (Spinner.change 0 3000 none (c.int32ToString r.distance))
        = String.ofList (intChars n) := by
      rw [hwritten, DotNet.int32ToString, hn]
      exact Spinner.format_change_intChars (by omega) (by omega) none
    have hdistance : Int32.ofNat n = r.distance := by
      rw [← Int32.toInt_inj, Int32.toInt_ofNat_of_lt (by omega), hn]
    rw [hbound, hkept, serialized_intChars, hreads n hsmall, Option.getD_some, hdistance]

include hdate hline in
/-- An untouched page is storable when the route has a name that can be posted and a
date the column stores. -/
theorem storable_untouched (r : Route) :
    Storable c (renderEdit c r).submit.values ↔
      sqlDateTimeAccepts r.created = true
        ∧ serialized (r.name.getD "") ≠ "" ∧ DotNet.length (serialized (r.name.getD "")) ≤ 50 := by
  have hvalueName : (renderEdit c r).submit.values "Name"
      = some (serialized (r.name.getD "")) := rfl
  have hvalueCreated : (renderEdit c r).submit.values "Created"
      = some (c.toShortDateString r.created) := by
    show some (serialized (c.toShortDateString r.created)) = _
    rw [serialized_of_not_mem (hline r.created)]
  constructor
  · intro h
    obtain ⟨name, hname, hne, hlength⟩ := h.name
    obtain ⟨text, d, htext, hd, haccepts⟩ := h.created
    rw [hvalueCreated, Option.some.injEq] at htext
    rw [← htext, hdate, Option.some.injEq] at hd
    rw [← hd, sqlDateTimeAccepts_date] at haccepts
    rw [hvalueName, Option.some.injEq] at hname
    rw [hname]
    exact ⟨haccepts, hne, hlength⟩
  · rintro ⟨haccepts, hne, hlength⟩
    refine ⟨⟨_, hvalueName, hne, hlength⟩, ⟨_, _, hvalueCreated, hdate r.created, ?_⟩, ?_, ?_⟩
    · rw [sqlDateTimeAccepts_date]
      exact haccepts
    · -- the form posts neither of the other two dates
      exact fun text htext => nomatch htext
    · exact fun text htext => nomatch htext

/-- The rules of the form on a page that was opened: those of its texts, as the spinner
keeps its own. -/
theorem keepsRules_untouched (r : Route) :
    (renderEdit c r).ready.keepsRules = true ↔
      required (r.name.getD "") = true ∧ maxlength 50 (r.name.getD "") = true
        ∧ maxlength 11 (c.toShortDateString r.created) = true
        ∧ maxlength 50 (r.comments.getD "") = true := by
  have hkeeps : (renderEdit c r).ready.keepsRules
      = (required (r.name.getD "") && maxlength 50 (r.name.getD "")
        && required (Spinner.format (Spinner.change 0 3000 none (c.int32ToString r.distance)))
        && maxlength 4 (Spinner.format (Spinner.change 0 3000 none (c.int32ToString r.distance)))
        && maxlength 11 (c.toShortDateString r.created)
        && maxlength 50 (r.comments.getD "")) := rfl
  obtain ⟨n, hn, htext⟩ := Spinner.exists_format_change 0 3000 (by decide) (by decide)
    none (c.int32ToString r.distance)
  have hlength : maxlength 4 (String.ofList (intChars n)) = true :=
    maxlength_of_length (Spinner.length_intChars (by decide) (by omega))
  rw [hkeeps, htext, Spinner.required_intChars, hlength]
  simp only [Bool.and_true, Bool.and_eq_true, and_assoc]

include hround hdigits hdate hline in
/-- **An untouched page stores the route back** exactly when the route is such that each of
its texts is posted and read back as it was. -/
theorem roundTrips_iff {t : RouteTable} {r : Route} (hr : t.find? r.id = some r) :
    RoundTrips c runtimeText t r ↔ GivenBack c r := by
  obtain ⟨hcreated, hdeleted, hname⟩ := bindRoute_untouched c hdate hline r
  have hdistance := distance_untouched c hround hdigits r
  have hsuccess := editPost_success_iff_storable c runtimeText hr (renderEdit c r).submit.values
  rw [storable_untouched c hdate hline] at hsuccess
  have hrules := keepsRules_untouched c r
  set b := bindRoute c r.id (renderEdit c r).submit.values with hb
  have hself : (t.replace b).find? r.id = some b := Table.find?_replace_self t.toTable b hr
  constructor
  · rintro ⟨page, t', r', hpage, hkeeps, hpost, hr', hname', hdistance', hcreated', hdeleted'⟩
    rw [editGet_stored c hr, Except.ok.injEq] at hpage
    subst hpage
    have hsucceeded := congrArg Prod.fst hpost
    rw [(editPost_of_success c runtimeText hsucceeded).1, Prod.mk.injEq] at hpost
    rw [← hpost.2, ← hb, hself, Option.some.injEq] at hr'
    subst hr'
    obtain ⟨haccepts, hne, hlength⟩ := hsuccess.mp hsucceeded
    obtain ⟨hrequired, -, hrest⟩ := hrules.mp hkeeps
    rw [hname hne] at hname'
    rw [hcreated] at hcreated'
    rw [hdeleted] at hdeleted'
    obtain ⟨name, hfilled⟩ : ∃ name, r.name = some name := ⟨_, hname'.symm⟩
    rw [hfilled, Option.getD_some] at hname' hlength hrequired
    have hplain := Option.some.inj hname'
    rw [hplain] at hlength
    exact ⟨⟨name, hfilled, hrequired, hlength, (serialized_eq_iff name).mp hplain⟩,
      hdistance.mp hdistance', hcreated', haccepts, hdeleted'.symm, hrest⟩
  · intro h
    obtain ⟨name, hfilled, hrequired, hlength, hpaired⟩ := h.name
    have hplain : serialized name = name := (serialized_eq_iff name).mpr hpaired
    have hne : name ≠ "" := by
      rintro rfl
      exact absurd hrequired (by decide)
    rw [hfilled, Option.getD_some, hplain] at hsuccess hname
    rw [hfilled, Option.getD_some] at hrules
    obtain ⟨hpost, -, -⟩ :=
      editPost_of_success c runtimeText (hsuccess.mpr ⟨h.created, hne, hlength⟩)
    have hkeeps := hrules.mpr ⟨hrequired, maxlength_of_length hlength, h.rules⟩
    refine ⟨_, _, b, editGet_stored c hr, hkeeps, hpost, hself, ?_, ?_, ?_, ?_⟩
    · rw [hname hne, hfilled]
    · exact hdistance.mpr h.distance
    · rw [hcreated, h.midnight]
    · rw [hdeleted, h.live]

end Untouched

/-! ### On the seeded table -/

/-- The number of the day as a text. -/
def dayText (d : DateTime) : String := DotNet.int32ToString (Int32.ofNat (d.ticks / 864000000000))

/-- The midnight that begins a day. -/
def midnight (day : ℕ) : Option DateTime :=
  if h : day * 864000000000 < ticksEnd then some ⟨day * 864000000000, h⟩ else none

def readDay (text : String) : Option DateTime :=
  (int32TryParse text).bind (fun day => midnight day.toInt.toNat)

/-- A culture whose short date is the number of the day. -/
def dayCulture : Culture where
  int32ToString := DotNet.int32ToString
  dateTimeToString := dayText
  toShortDateString := dayText
  toInt32 := int32TryParse
  toDateTime := readDay
  toBoolean _ := none

theorem dayCulture_round (d : Int32) :
    dayCulture.toInt32 (dayCulture.int32ToString d) = some d := by
  have hread : dayCulture.toInt32 = int32TryParse := rfl
  have hwrite : dayCulture.int32ToString = DotNet.int32ToString := rfl
  rw [hread, hwrite]
  exact int32TryParse_int32ToString d

theorem midnight_day (d : DateTime) : midnight (d.ticks / 864000000000) = some (date d) := by
  have hmul : d.ticks / 864000000000 * 864000000000 = (date d).ticks := by
    unfold date
    dsimp only
    omega
  unfold midnight
  simp only [hmul, dif_pos (date d).ticks_lt]

theorem dayCulture_date (d : DateTime) :
    dayCulture.toDateTime (dayCulture.toShortDateString d) = some (date d) := by
  have hread : dayCulture.toDateTime = readDay := rfl
  have hwrite : dayCulture.toShortDateString = dayText := rfl
  have hday : (Int32.ofNat (d.ticks / 864000000000)).toInt.toNat = d.ticks / 864000000000 := by
    have hlt := d.ticks_lt
    unfold ticksEnd at hlt
    rw [Int32.toInt_ofNat_of_lt (by omega), Int.toNat_natCast]
  rw [hread, hwrite, readDay, dayText, int32TryParse_int32ToString, Option.bind_some, hday]
  exact midnight_day d

theorem dayCulture_digits (d : Int32) (_ : 0 ≤ d) :
    dayCulture.int32ToString d = DotNet.int32ToString d := rfl

theorem dayCulture_line (d : DateTime) :
    '\r' ∉ (dayCulture.toShortDateString d).toList
      ∧ '\n' ∉ (dayCulture.toShortDateString d).toList := by
  have hwrite : dayCulture.toShortDateString = dayText := rfl
  rw [hwrite, dayText, DotNet.int32ToString, String.toList_ofList]
  exact breaks_not_mem_intChars _

/-- The first seeded route was created at midnight. -/
theorem roundTrips_ruta1 : RoundTrips dayCulture (fun _ => "") seedTable ruta1 :=
  (roundTrips_iff dayCulture (fun _ => "") dayCulture_round dayCulture_digits dayCulture_date
    dayCulture_line (by decide)).mpr
    { name := ⟨"Ruta 1", rfl, by decide, by decide, paired_of_not_mem (by decide)⟩
      distance := by decide
      midnight := by decide
      created := by decide
      live := rfl
      rules := by decide }

/-- The same route, deleted, and created at noon. -/
def lateDeleted : Route :=
  { ruta1 with isDeleted := true, created := ⟨634222656000000000 + 432000000000, by decide⟩ }

/-- Submitted as it is, it comes back at midnight and no longer deleted. -/
theorem untouched_undeletes :
    (seedTable.replace lateDeleted).find? 3 = some lateDeleted
      ∧ ((editPost dayCulture (fun _ => "") (seedTable.replace lateDeleted) 3
          (renderEdit dayCulture lateDeleted).submit.values).2.find? 3).map
            (fun r => (r.created, r.isDeleted)) = some (ruta1.created, false)
      ∧ ¬ RoundTrips dayCulture (fun _ => "") (seedTable.replace lateDeleted) lateDeleted := by
  have hstored : (seedTable.replace lateDeleted).find? 3 = some lateDeleted := by decide
  have hafter : ((editPost dayCulture (fun _ => "") (seedTable.replace lateDeleted) 3
      (renderEdit dayCulture lateDeleted).submit.values).2.find? 3).map
        (fun r => (r.created, r.isDeleted)) = some (ruta1.created, false) := by decide +kernel
  refine ⟨hstored, hafter, ?_⟩
  rintro ⟨page, t', r', hpage, -, hpost, hr', -, -, -, hdeleted⟩
  have hid : lateDeleted.id = 3 := rfl
  rw [hid] at hpage hpost hr'
  rw [editGet_stored dayCulture hstored, Except.ok.injEq] at hpage
  subst hpage
  rw [hpost, hr', Option.map_some, Option.some.injEq, Prod.mk.injEq] at hafter
  rw [hafter.2] at hdeleted
  exact absurd hdeleted (by decide)

end CgGuide.EditBinding
