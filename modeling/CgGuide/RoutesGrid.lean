/-
The grid of the route listing: the table component of the view and the action behind it.

The view's table keeps what the user asks for (a search, a sort, a page) and sends it to
`jQueryDataTablesHandler` at every change, without waiting for the answer to the last
request. It counts its requests in `iDraw`, sends the count as `sEcho`, and draws an
answer only if the `sEcho` that comes back is not below the count by then. The action
copies the text. A click on a header is taken up in a timeout, and what the grid does
until then still belongs to the old sort.

Requests are handled in any order, each on the table of routes as others have left it by
then; answers overtake each other; a request the action throws on is never answered.
`drawn_newest` is what the count achieves, `waits_iff` what becomes of a grid when nothing
is under way any more.
-/
import CgGuide.RoutesColumns
import CgGuide.NewestAnswer

set_option autoImplicit false

namespace CgGuide.RoutesGrid

open CgGuide.DotNet CgGuide.KeyedTable CgGuide.Entities CgGuide.DbContext CgGuide.Repositories
open CgGuide.RoutesService CgGuide.EditForm CgGuide.Deferred CgGuide.RoutesListing
open CgGuide.RoutesPaging CgGuide.RoutesColumns CgGuide.Runs CgGuide.NewestAnswer

/-! ## The settings of the grid -/

def asSorting : List String := ["asc", "desc"]

def aLengthMenu : List ℕ := [10, 25, 50, 100]

def iFullNumbersShowPages : ℕ := 5

/-- An entry of `aaSorting`: a column, its direction and the place of that in
`asSorting`. -/
structure SortEntry where
  column : ℕ
  direction : String
  index : ℕ
deriving DecidableEq

/-- A click on the header of a column. -/
structure Click where
  column : ℕ
  shiftKey : Bool
deriving DecidableEq

/-- What a draw leaves on the page: the rows, the numbers of the line below them, and the
pages there are buttons for. -/
structure Drawn where
  rows : List (List (Option String))
  start : ℕ
  displayEnd : ℕ
  max : ℕ
  total : ℕ
  pages : List ℕ
deriving DecidableEq

/-- The settings, less those the view leaves as they are for good; whether the table says
that it is processing; what is drawn; and the clicks in their timeouts. -/
structure Grid where
  iDraw : ℕ
  iDisplayStart : ℕ
  iDisplayLength : ℕ
  iRecordsTotal : ℕ
  iRecordsDisplay : ℕ
  sSearch : String
  aaSorting : List SortEntry
  aoData : List (List (Option String))
  processing : Bool
  drawn : Option Drawn
  timeouts : List Click

/-- The settings a grid starts with. -/
def oSettings : Grid where
  iDraw := 0
  iDisplayStart := 0
  iDisplayLength := 10
  iRecordsTotal := 0
  iRecordsDisplay := 0
  sSearch := ""
  aaSorting := [⟨0, "asc", 0⟩]
  aoData := []
  processing := false
  drawn := none
  timeouts := []

/-! ## The request -/

/-- The names of the columns, each with a comma behind it but the last. -/
def fnColumnOrdering (names : List String) : String :=
  let b := String.join (names.map (· ++ ","))
  if length b = names.length then "" else String.ofList b.toList.dropLast

/-- A number as the text it is sent as. -/
def numberText (n : ℕ) : String := String.ofList (Nat.toDigits 10 n)

/-- A text times one; null is zero. Texts that are no decimal number have no value here. -/
def toNumber : Option String → Option ℕ
  | none => some 0
  | some text => parseDigits text.toList

/-- `_fnAjaxParameters`, as the action has it bound: an empty search is null. -/
def fnAjaxParameters (g : Grid) : ListingRequest where
  param :=
    { sEcho := some (numberText g.iDraw)
      sSearch := if g.sSearch = "" then none else some g.sSearch
      iDisplayLength := g.iDisplayLength
      iDisplayStart := g.iDisplayStart
      sColumns := some (fnColumnOrdering aoColumns) }
  iSortCol_0 := g.aaSorting.head?.map (fun e => numberText e.column)
  sSortDir_0 := g.aaSorting.head?.map SortEntry.direction

/-- `_fnDraw` with data to get, which is `_fnAjaxUpdate`. -/
def fnDraw (g : Grid) : Grid × Option ListingRequest :=
  let g' := { g with iDraw := g.iDraw + 1, processing := true }
  (g', some (fnAjaxParameters g'))

/-! ## What the user does -/

/-- `_fnFilterComplete`. -/
def fnFilterComplete (sSearch : String) (g : Grid) : Grid × Option ListingRequest :=
  fnDraw { g with sSearch := sSearch, iDisplayStart := 0 }

/-- `_fnSort`, which leaves the sort to the server. -/
def fnSort (g : Grid) : Grid × Option ListingRequest := fnFilterComplete g.sSearch g

/-- `_fnInitialise`: the first request is sent. -/
def fnInitialise : Grid := (fnSort oSettings).1

/-- A click with the shift key: the column's next direction, none after the last, or the
column behind the others. -/
def sortAlso (c : ℕ) : List SortEntry → List SortEntry
  | [] => [⟨c, "asc", 0⟩]
  | e :: es =>
    if e.column = c then
      -- after the last direction the column is taken out of the sort
      match asSorting[e.index + 1]? with
      | none => es
      | some direction => ⟨e.column, direction, e.index + 1⟩ :: es
    else e :: sortAlso c es

/-- A click without it: the next direction of the only column, or the first of another. -/
def sortOnly (c : ℕ) : List SortEntry → List SortEntry
  | [e] =>
    if e.column = c then
      -- a single column is never taken out: it starts again at the first direction
      match asSorting[e.index + 1]? with
      | none => [⟨e.column, "asc", 0⟩]
      | some direction => [⟨e.column, direction, e.index + 1⟩]
    else [⟨c, "asc", 0⟩]
  | _ => [⟨c, "asc", 0⟩]

/-- The timeout of a click, in `_fnSortAttachListener`. -/
def fnSortListener (click : Click) (g : Grid) : Grid × Option ListingRequest :=
  fnSort { g with
    aaSorting :=
      if click.shiftKey then sortAlso click.column g.aaSorting
      else sortOnly click.column g.aaSorting }

/-- `fnDisplayEnd`. -/
def fnDisplayEnd (g : Grid) : ℕ := min (g.iDisplayStart + g.iDisplayLength) g.iRecordsDisplay

/-- The listener of `_fnFeatureHtmlLength`. -/
def fnLengthListener (n : ℕ) (g : Grid) : Grid × Option ListingRequest :=
  let g' := { g with iDisplayLength := n }
  fnDraw
    -- at the end of the records the page moves back, so that it is full
    (if fnDisplayEnd g' = g'.iRecordsDisplay then
      { g' with iDisplayStart := fnDisplayEnd g' - n }
    else g')

inductive PageAction
  | first
  | previous
  | next
  | last

/-- `_fnPageChange`. -/
def fnPageChange (action : PageAction) (g : Grid) : Grid :=
  match action with
  | .first => { g with iDisplayStart := 0 }
  | .previous => { g with iDisplayStart := g.iDisplayStart - g.iDisplayLength }
  | .next =>
    if g.iDisplayStart + g.iDisplayLength < g.iRecordsDisplay then
      { g with iDisplayStart := g.iDisplayStart + g.iDisplayLength }
    else g
  | .last =>
    { g with iDisplayStart := (g.iRecordsDisplay - 1) / g.iDisplayLength * g.iDisplayLength }

/-- A key in the search field, a click on a header, the end of a timeout, a choice of the
length, a button of the pager, or the button of a page. -/
inductive Action
  | keyup (value : String)
  | click (click : Click)
  | timeout
  | length (n : ℕ)
  | page (action : PageAction)
  | number (k : ℕ)

def act (g : Grid) : Action → Grid × Option ListingRequest
  | .keyup value => if value = g.sSearch then (g, none) else fnFilterComplete value g
  | .click click => ({ g with processing := true, timeouts := g.timeouts ++ [click] }, none)
  | .timeout =>
    match g.timeouts with
    | [] => (g, none)
    | click :: rest => fnSortListener click { g with timeouts := rest }
  | .length n => fnLengthListener n g
  | .page action =>
    if (fnPageChange action g).iDisplayStart = g.iDisplayStart then (fnPageChange action g, none)
    else fnDraw (fnPageChange action g)
  | .number k => fnDraw { g with iDisplayStart := (k - 1) * g.iDisplayLength }

/-! ## The answer -/

/-- The page buttons: all pages, or five around the current one. -/
def fnUpdate (records length start : ℕ) : List ℕ :=
  let w := (records + length - 1) / length
  let y := (start + length - 1) / length + 1
  -- all of them, the first five, the last five, or the current one in the middle
  if w < iFullNumbersShowPages then List.range' 1 w
  else if y ≤ iFullNumbersShowPages / 2 then List.range' 1 iFullNumbersShowPages
  else if w - iFullNumbersShowPages / 2 ≤ y then
    List.range' (w - iFullNumbersShowPages + 1) iFullNumbersShowPages
  else
    List.range' (y - (iFullNumbersShowPages + 1) / 2 + 1) iFullNumbersShowPages

/-- `_fnDraw` with the data there, and the end of the processing. Without records the line
below the rows says that they go from 0 to 0. -/
def fnRedraw (g : Grid) : Grid :=
  { g with
    processing := false
    drawn := some
      { rows := g.aoData
        start := if g.iRecordsDisplay = 0 then 0 else g.iDisplayStart + 1
        displayEnd := fnDisplayEnd g
        max := g.iRecordsTotal
        total := g.iRecordsDisplay
        pages := fnUpdate g.iRecordsDisplay g.iDisplayLength g.iDisplayStart } }

/-- `_fnAjaxUpdateDraw`. The action answers with a text it was sent, so there is a number
in it. -/
def fnAjaxUpdateDraw (g : Grid) (b : Listing) : Grid :=
  match toNumber b.sEcho with
  | none => g
  | some echo =>
    -- an answer to a request that is no longer the last
    if echo < g.iDraw then g
    else fnRedraw
      { g with
        iDraw := echo
        iRecordsTotal := b.iTotalRecords
        iRecordsDisplay := b.iTotalDisplayRecords
        aoData := b.aaData }

section Protocol

variable (c : Culture) (compareStrings : String → String → Ordering)

/-- The grid and the action. A request that throws is answered with an error, which the
grid does nothing about. -/
def grid : Protocol RouteTable (RowOrder Route) Grid Action ListingRequest Listing where
  act := act
  handle t o req := (jQueryDataTablesHandler c compareStrings t o req).toOption
  receive := fnAjaxUpdateDraw

/-- The answer to a request has the text of the request. -/
theorem sEcho_of_handler {t : RouteTable} {o : RowOrder Route} {req : ListingRequest}
    {a : Listing} (h : jQueryDataTablesHandler c compareStrings t o req = .ok a) :
    a.sEcho = req.param.sEcho := by
  rw [jQueryDataTablesHandler, getAllRoutes_eq, ok_bind] at h
  obtain ⟨displayed, rows, -, -, rfl⟩ := (listRows_eq_ok_iff c compareStrings).mp h
  rfl

end Protocol

/-! ## What an action does -/

/-- The count is sent as a text that reads back. -/
@[simp] theorem toNumber_numberText (n : ℕ) : toNumber (some (numberText n)) = some n := by
  rw [toNumber, numberText, String.toList_ofList]
  exact parseDigits_toDigits n

/-- A change of the page changes where it starts. -/
theorem fnPageChange_eq (action : PageAction) (g : Grid) :
    fnPageChange action g = { g with iDisplayStart := (fnPageChange action g).iDisplayStart } := by
  cases action with
  | first | previous | last => rfl
  | next =>
      unfold fnPageChange
      split_ifs
      · rfl
      · rfl

/-- **The actions of the user**: one that sends a request counts it and says that the grid
is processing; one that sends none changes nothing, except that a click waits for its
timeout. -/
theorem act_cases (g : Grid) (e : Action) :
    (∃ h : Grid, act g e = fnDraw h ∧ h.iDraw = g.iDraw ∧ h.drawn = g.drawn)
      ∨ act g e = (g, none)
      ∨ ∃ click, e = .click click
        ∧ act g e = ({ g with processing := true, timeouts := g.timeouts ++ [click] }, none) := by
  cases e with
  | keyup value =>
      by_cases hvalue : value = g.sSearch
      · right; left
        rw [act, if_pos hvalue]
      · left
        rw [act, if_neg hvalue]
        exact ⟨_, rfl, rfl, rfl⟩
  | click click => exact Or.inr (Or.inr ⟨click, rfl, rfl⟩)
  | timeout =>
      cases htimeouts : g.timeouts with
      | nil =>
          right; left
          simp only [act, htimeouts]
      | cons click rest =>
          left
          simp only [act, htimeouts]
          exact ⟨_, rfl, rfl, rfl⟩
  | length n =>
      left
      -- neither branch of the listener touches the count or what is drawn
      refine ⟨_, rfl, ?_, ?_⟩
      · split_ifs <;> rfl
      · split_ifs <;> rfl
  | page action =>
      have hpage := fnPageChange_eq action g
      by_cases hstart : (fnPageChange action g).iDisplayStart = g.iDisplayStart
      · right; left
        rw [hstart] at hpage
        rw [act, if_pos hstart, hpage]
      · left
        rw [act, if_neg hstart]
        refine ⟨_, rfl, ?_, ?_⟩
        · rw [hpage]
        · rw [hpage]
  | number k => exact Or.inl ⟨_, rfl, rfl, rfl⟩

/-! ## The count -/

/-- What the page shows for a request and its answer. -/
def shownFor (req : ListingRequest) (a : Listing) : Drawn where
  rows := a.aaData
  start := if a.iTotalDisplayRecords = 0 then 0 else req.param.iDisplayStart.toNat + 1
  displayEnd := min (req.param.iDisplayStart.toNat + req.param.iDisplayLength.toNat)
    a.iTotalDisplayRecords
  max := a.iTotalRecords
  total := a.iTotalDisplayRecords
  pages := fnUpdate a.iTotalDisplayRecords req.param.iDisplayLength.toNat
    req.param.iDisplayStart.toNat

/-- An answer with the number of the last request is drawn, for the request. -/
theorem fnAjaxUpdateDraw_newest {g : Grid} {a : Listing} (h : toNumber a.sEcho = some g.iDraw) :
    fnAjaxUpdateDraw g a =
      { g with
        iRecordsTotal := a.iTotalRecords
        iRecordsDisplay := a.iTotalDisplayRecords
        aoData := a.aaData
        processing := false
        drawn := some (shownFor (fnAjaxParameters g) a) } := by
  simp only [fnAjaxUpdateDraw, h, lt_irrefl, if_false]
  rfl

section Counting

variable (c : Culture) (compareStrings : String → String → Ordering)

theorem handle_eq_some {t : RouteTable} {o : RowOrder Route} {req : ListingRequest}
    {a : Listing} :
    (grid c compareStrings).handle t o req = some a
      ↔ jQueryDataTablesHandler c compareStrings t o req = .ok a := by
  change (jQueryDataTablesHandler c compareStrings t o req).toOption = some a ↔ _
  cases jQueryDataTablesHandler c compareStrings t o req with
  | error e => simp [Except.toOption]
  | ok b => simp [Except.toOption]

/-- `iDraw` numbers the requests, and `sEcho` brings the number back. -/
def counting : Numbering (grid c compareStrings) where
  query := fnAjaxParameters
  number req := (toNumber req.param.sEcho).getD 0
  echo a := (toNumber a.sEcho).getD 0
  act_some g e req hsent := by
    rcases act_cases g e with ⟨h, hact, hdraw, -⟩ | hact | ⟨click, -, hact⟩
    -- the request is made from the grid it leaves, whose count is already the new one
    · simp only [grid, hact, fnDraw, Option.some.injEq] at hsent
      subst hsent
      simp [grid, hact, fnDraw, fnAjaxParameters, hdraw]
    · simp [grid, hact] at hsent
    · simp [grid, hact] at hsent
  act_none g e hsent := by
    rcases act_cases g e with ⟨h, hact, -⟩ | hact | ⟨click, -, hact⟩
    · simp [grid, hact, fnDraw] at hsent
    · simp [grid, hact]
    · simp [grid, hact, fnAjaxParameters]
  echo_handle t o req a hanswer := by
    rw [sEcho_of_handler c compareStrings ((handle_eq_some c compareStrings).mp hanswer)]
  receive_older g a ha := by
    simp only [fnAjaxParameters, toNumber_numberText, Option.getD_some] at ha
    simp only [grid, fnAjaxUpdateDraw]
    cases hecho : toNumber a.sEcho with
    | none => rfl
    | some echo =>
        rw [hecho, Option.getD_some] at ha
        exact if_pos ha
  receive_newest g a ha := by
    simp only [fnAjaxParameters, toNumber_numberText, Option.getD_some] at ha
    simp only [grid]
    cases hecho : toNumber a.sEcho with
    | none => simp only [fnAjaxUpdateDraw, hecho]
    | some echo =>
        rw [hecho, Option.getD_some] at ha
        rw [ha] at hecho
        rw [fnAjaxUpdateDraw_newest hecho]
        rfl

/-- The events of the system: actions of the user, changes of the routes by others, and
messages that arrive. -/
abbrev GridEvent := Event RouteTable (RowOrder Route) Action

/-- A request the action has had, with the table it found. -/
abbrev GridHandling := Handling RouteTable (RowOrder Route) ListingRequest

/-- The system when the grid has sent its first request. -/
def firstDraw (t : RouteTable) : State RouteTable Grid ListingRequest Listing :=
  opening (counting c compareStrings) t fnInitialise

/-- The system after a run. -/
abbrev reached (t : RouteTable) (es : List GridEvent) :
    State RouteTable Grid ListingRequest Listing :=
  run (step (grid c compareStrings)) (firstDraw c compareStrings t) es

/-- The requests the action has had by then. -/
abbrev requestsHandled (t : RouteTable) (es : List GridEvent) : List GridHandling :=
  handled (grid c compareStrings) (firstDraw c compareStrings t) es

/-- The answers the grid has drawn by then. -/
abbrev answersDrawn (t : RouteTable) (es : List GridEvent) : List Listing :=
  taken (counting c compareStrings) (firstDraw c compareStrings t) es

/-! ## What is drawn -/

/-- What is known of the grid: it is processing while the answer to its last request is
out, otherwise it shows that answer; what it shows meanwhile is the last answer it took. -/
structure Showing (g : Grid) (hs : List GridHandling) (got : List Listing)
    (a : Option Listing) : Prop where
  processing : a = none → g.processing = true
  waiting : a ≠ none → g.processing = true → g.timeouts ≠ []
  empty : got = [] → a = none ∧ g.drawn = none
  drawn : ∀ x, got.getLast? = some x → ∃ h ∈ hs, h.result (grid c compareStrings) = some x
    ∧ g.drawn = some (shownFor h.request x) ∧ (a ≠ none → h.request = fnAjaxParameters g)

variable {c compareStrings} {g : Grid} {hs : List GridHandling} {got : List Listing}
  {a : Option Listing}

theorem Showing.handled (hg : Showing c compareStrings g hs got a) (h : GridHandling) :
    Showing c compareStrings g (hs ++ [h]) got a where
  processing := hg.processing
  waiting := hg.waiting
  empty := hg.empty
  drawn x hx := by
    obtain ⟨h', hmem, hshown⟩ := hg.drawn x hx
    exact ⟨h', List.mem_append_left _ hmem, hshown⟩

theorem Showing.sent (hg : Showing c compareStrings g hs got a) {e : Action}
    {req : ListingRequest} (hsent : (act g e).2 = some req) :
    Showing c compareStrings (act g e).1 hs got none := by
  rcases act_cases g e with ⟨h, hact, -, hdrawn⟩ | hact | ⟨click, -, hact⟩
  -- what was drawn stays on the page while the new request is out
  · rw [hact]
    refine ⟨fun _ => rfl, fun hne => absurd rfl hne, fun hgot => ⟨rfl, ?_⟩, fun x hx => ?_⟩
    · exact hdrawn.trans (hg.empty hgot).2
    · obtain ⟨h', hmem, hresult, hshown, -⟩ := hg.drawn x hx
      exact ⟨h', hmem, hresult, hdrawn.trans hshown, fun hne => absurd rfl hne⟩
  · simp [hact] at hsent
  · simp [hact] at hsent

theorem Showing.rested (hg : Showing c compareStrings g hs got a) {e : Action}
    (hsent : (act g e).2 = none) : Showing c compareStrings (act g e).1 hs got a := by
  rcases act_cases g e with ⟨h, hact, -⟩ | hact | ⟨click, -, hact⟩
  · simp [hact, fnDraw] at hsent
  · rw [hact]
    exact hg
  · rw [hact]
    -- a click says that the grid is processing, and waits in its timeout
    exact ⟨fun _ => rfl, fun _ _ => List.append_ne_nil_of_right_ne_nil _ (List.cons_ne_nil _ _),
      hg.empty, hg.drawn⟩

theorem Showing.received {h : GridHandling} (hmem : h ∈ hs)
    (hquery : h.request = fnAjaxParameters g) {x : Listing}
    (hresult : h.result (grid c compareStrings) = some x) :
    Showing c compareStrings (fnAjaxUpdateDraw g x) hs (got ++ [x]) (some x) := by
  -- the answer carries the number of what the grid asks for now, so it is drawn
  have hecho : toNumber x.sEcho = some g.iDraw := by
    rw [sEcho_of_handler c compareStrings ((handle_eq_some c compareStrings).mp hresult), hquery]
    exact toNumber_numberText g.iDraw
  rw [fnAjaxUpdateDraw_newest hecho]
  exact
    { processing := fun hnone => absurd hnone (Option.some_ne_none x)
      waiting := fun _ hprocessing => absurd hprocessing Bool.false_ne_true
      empty := fun hnil =>
        absurd hnil (List.append_ne_nil_of_right_ne_nil _ (List.cons_ne_nil _ _))
      drawn := fun y hy => by
        rw [List.getLast?_concat, Option.some.injEq] at hy
        subst hy
        refine ⟨h, hmem, hresult, ?_, fun _ => hquery⟩
        rw [hquery] }

variable (c compareStrings)

/-- The grid after a run. -/
theorem showing_run (t : RouteTable) (es : List GridEvent) :
    ∃ a, Stage (counting c compareStrings)
        (fnAjaxParameters (reached c compareStrings t es).client)
        (reached c compareStrings t es).requests (reached c compareStrings t es).responses
        (requestsHandled c compareStrings t es) a
      ∧ Showing c compareStrings (reached c compareStrings t es).client
          (requestsHandled c compareStrings t es) (answersDrawn c compareStrings t es) a := by
  refine newest_rule (N := counting c compareStrings) (I := Showing c compareStrings)
    (fun _ _ _ h _ hg => hg.handled h) (fun _ _ _ _ _ _ hg hsent => hg.sent hsent)
    (fun _ _ _ _ _ hg hsent => hg.rested hsent)
    (fun _ _ _ _ _ _ hmem hquery hresult => Showing.received hmem hquery hresult) ?_ es
  exact ⟨fun _ => rfl, fun hne => absurd rfl hne, fun _ => ⟨rfl, rfl⟩, fun x hx => nomatch hx⟩

/-- The page shows the answer to one of the requests. -/
def ShowsAnswer (hs : List GridHandling) (g : Grid)
    (req : ListingRequest) (a : Listing) : Prop :=
  g.drawn = some (shownFor req a)
    ∧ ∃ h ∈ hs, h.request = req
      ∧ jQueryDataTablesHandler c compareStrings h.server h.choice req = .ok a

/-- **What the grid draws.** Whatever the order of the messages, the answers it draws are
to requests one after the other; the page shows the last of them, with the numbers of the
request it is for; and a grid that is not processing shows the answer to what it asks for
now. -/
theorem drawn_newest (t : RouteTable) (es : List GridEvent) :
    ((answersDrawn c compareStrings t es).map (counting c compareStrings).echo).Pairwise (· < ·)
      ∧ (match (answersDrawn c compareStrings t es).getLast? with
        | none => (reached c compareStrings t es).client.drawn = none
        | some a => ∃ req, ShowsAnswer c compareStrings (requestsHandled c compareStrings t es)
            (reached c compareStrings t es).client req a)
      ∧ ((reached c compareStrings t es).client.processing = false →
          ∃ a, ShowsAnswer c compareStrings (requestsHandled c compareStrings t es)
            (reached c compareStrings t es).client
            (fnAjaxParameters (reached c compareStrings t es).client) a) := by
  obtain ⟨a, -, hshowing⟩ := showing_run c compareStrings t es
  refine ⟨taken_ordered (counting c compareStrings) t fnInitialise es, ?_, fun hidle => ?_⟩
  · cases hlast : (answersDrawn c compareStrings t es).getLast? with
    | none => exact (hshowing.empty (List.getLast?_eq_none_iff.mp hlast)).2
    | some x =>
        obtain ⟨h, hmem, hresult, hdrawn, -⟩ := hshowing.drawn x hlast
        exact ⟨h.request, hdrawn, h, hmem, rfl, (handle_eq_some c compareStrings).mp hresult⟩
  -- a grid that is not processing has the answer to its last request
  · have harrived : a ≠ none := by
      intro hnone
      rw [hshowing.processing hnone] at hidle
      exact absurd hidle.symm Bool.false_ne_true
    have hdrew : answersDrawn c compareStrings t es ≠ [] :=
      fun hnil => harrived (hshowing.empty hnil).1
    obtain ⟨x, hlast⟩ := Option.ne_none_iff_exists'.mp
      (fun hnone => hdrew (List.getLast?_eq_none_iff.mp hnone))
    obtain ⟨h, hmem, hresult, hdrawn, hnewest⟩ := hshowing.drawn x hlast
    rw [hnewest harrived] at hdrawn
    refine ⟨x, hdrawn, h, hmem, hnewest harrived, ?_⟩
    rw [← hnewest harrived]
    exact (handle_eq_some c compareStrings).mp hresult

end Counting

/-! ## Requests of the view -/

/-- An entry for a column of the view, in one of its directions. -/
def SortEntry.Regular (e : SortEntry) : Prop :=
  e.column < aoColumns.length ∧ e.direction ∈ asSorting

/-- A grid as the view's menus leave it: it sorts by columns of its own, up or down, and
its pages are as long as the menu has them. -/
structure Regular (g : Grid) : Prop where
  sorted : ∀ e ∈ g.aaSorting, e.Regular
  clicked : ∀ click ∈ g.timeouts, click.column < aoColumns.length
  length : g.iDisplayLength ∈ aLengthMenu

theorem SortEntry.regular_first {c : ℕ} (hc : c < aoColumns.length) :
    SortEntry.Regular ⟨c, "asc", 0⟩ :=
  ⟨hc, List.mem_cons_self⟩

theorem sorted_sortAlso {c : ℕ} (hc : c < aoColumns.length) {es : List SortEntry}
    (h : ∀ e ∈ es, e.Regular) : ∀ e ∈ sortAlso c es, e.Regular := by
  induction es with
  | nil =>
      rw [sortAlso, List.forall_mem_singleton]
      exact SortEntry.regular_first hc
  | cons e es ih =>
      rw [List.forall_mem_cons] at h
      rw [sortAlso]
      by_cases hcolumn : e.column = c
      · rw [if_pos hcolumn]
        cases hnext : asSorting[e.index + 1]? with
        | none => exact h.2
        | some direction =>
            rw [List.forall_mem_cons]
            exact ⟨⟨h.1.1, List.mem_of_getElem? hnext⟩, h.2⟩
      · rw [if_neg hcolumn, List.forall_mem_cons]
        exact ⟨h.1, ih h.2⟩

theorem sorted_sortOnly {c : ℕ} (hc : c < aoColumns.length) {es : List SortEntry}
    (h : ∀ e ∈ es, e.Regular) : ∀ e ∈ sortOnly c es, e.Regular := by
  -- several columns, or another one, give way to the column that was clicked
  have hother : ∀ e ∈ [(⟨c, "asc", 0⟩ : SortEntry)], e.Regular := by
    rw [List.forall_mem_singleton]
    exact SortEntry.regular_first hc
  match es with
  | [] | _ :: _ :: _ => exact hother
  | [e] =>
      rw [List.forall_mem_singleton] at h
      rw [sortOnly]
      by_cases hcolumn : e.column = c
      · rw [if_pos hcolumn]
        cases hnext : asSorting[e.index + 1]? with
        | none =>
            rw [List.forall_mem_singleton]
            exact SortEntry.regular_first h.1
        | some direction =>
            rw [List.forall_mem_singleton]
            exact ⟨h.1, List.mem_of_getElem? hnext⟩
      · rw [if_neg hcolumn]
        exact hother

/-- The routes of a table have a name and a `CreatedBy`. -/
def Readable (t : RouteTable) : Prop :=
  ∀ r ∈ GenericUpdatableRepository.live t, r.name ≠ none ∧ r.createdBy ≠ none

/-- The view has headers for its columns and a menu of lengths, and others leave routes
that can be read. -/
def Offered : State RouteTable Grid ListingRequest Listing → GridEvent → Prop
  | _, .act (.click click) => click.column < aoColumns.length
  | _, .act (.length n) => n ∈ aLengthMenu
  | _, .store t => Readable t
  | _, _ => True

theorem Regular.draw {g : Grid} (hg : Regular g) : Regular (fnDraw g).1 :=
  ⟨hg.sorted, hg.clicked, hg.length⟩

theorem Regular.startingAt {g : Grid} (hg : Regular g) (start : ℕ) :
    Regular { g with iDisplayStart := start } :=
  ⟨hg.sorted, hg.clicked, hg.length⟩

theorem Regular.act {g : Grid} (hg : Regular g) {e : Action}
    {s : State RouteTable Grid ListingRequest Listing} (he : Offered s (.act e)) :
    Regular (act g e).1 := by
  cases e with
  | keyup value =>
      rw [RoutesGrid.act]
      split_ifs
      · exact hg
      · exact ⟨hg.sorted, hg.clicked, hg.length⟩
  | click click =>
      refine ⟨hg.sorted, fun click' hclick => ?_, hg.length⟩
      rcases List.mem_append.mp hclick with hclick | hclick
      · exact hg.clicked click' hclick
      · rw [List.mem_singleton.mp hclick]
        exact he
  | timeout =>
      cases htimeouts : g.timeouts with
      | nil =>
          simp only [RoutesGrid.act, htimeouts]
          exact hg
      | cons click rest =>
          simp only [RoutesGrid.act, htimeouts]
          -- a timeout takes up the oldest click
          have hclicked := hg.clicked
          rw [htimeouts, List.forall_mem_cons] at hclicked
          refine ⟨?_, hclicked.2, hg.length⟩
          change ∀ e ∈ (if click.shiftKey then sortAlso click.column g.aaSorting
            else sortOnly click.column g.aaSorting), e.Regular
          split_ifs
          · exact sorted_sortAlso hclicked.1 hg.sorted
          · exact sorted_sortOnly hclicked.1 hg.sorted
  | length n =>
      have hlength : Regular { g with iDisplayLength := n } := ⟨hg.sorted, hg.clicked, he⟩
      rw [RoutesGrid.act, fnLengthListener]
      apply Regular.draw
      split_ifs
      · exact hlength.startingAt _
      · exact hlength
  | page action =>
      have hpage : Regular (fnPageChange action g) := by
        rw [fnPageChange_eq]
        exact hg.startingAt _
      rw [RoutesGrid.act]
      split_ifs
      · exact hpage
      · exact hpage.draw
  | number k => exact ⟨hg.sorted, hg.clicked, hg.length⟩

theorem Regular.answer {g : Grid} (hg : Regular g) (a : Listing) :
    Regular (fnAjaxUpdateDraw g a) := by
  rw [fnAjaxUpdateDraw]
  cases toNumber a.sEcho with
  | none => exact hg
  | some echo =>
      dsimp only
      split_ifs
      · exact hg
      · exact ⟨hg.sorted, hg.clicked, hg.length⟩

theorem positive_of_mem_aLengthMenu {n : ℕ} (hn : n ∈ aLengthMenu) : 0 < n := by
  have hmenu : ∀ n ∈ aLengthMenu, 0 < n := by decide
  exact hmenu n hn

/-- The names are sent as they stand in the view. -/
theorem fnColumnOrdering_aoColumns :
    fnColumnOrdering aoColumns = ",".intercalate aoColumns := by
  decide +kernel

/-- A column is sent as the number the action reads. -/
theorem numberText_column : ∀ n < aoColumns.length,
    numberText n = int32ToString (Int32.ofNat n) ∧ (Int32.ofNat n).toInt = n := by
  decide +kernel

/-- A grid that sorts asks for a sort by its first column. -/
theorem sortRequest_fnAjaxParameters {g : Grid} (hg : Regular g) {e : SortEntry}
    (he : g.aaSorting.head? = some e) : SortRequest (fnAjaxParameters g) e.column where
  columns := by
    rw [← fnColumnOrdering_aoColumns]
    rfl
  column := by
    obtain ⟨htext, hnumber⟩ := numberText_column e.column
      (hg.sorted e (List.mem_of_head? he)).1
    refine ⟨numberText e.column, Int32.ofNat e.column, ?_, ?_, hnumber⟩
    · rw [fnAjaxParameters, he]
      rfl
    · rw [htext]
      exact int32Parse_int32ToString _
  direction := by
    refine ⟨e.direction, ?_, fun hempty => ?_⟩
    · rw [fnAjaxParameters, he]
      rfl
    · have hmem := (hg.sorted e (List.mem_of_head? he)).2
      rw [hempty] at hmem
      exact absurd hmem (by decide)

section Answers

variable (c : Culture) (compareStrings : String → String → Ordering)

/-- A request to sort by a column without a property is answered only if the search finds
no route. -/
theorem listRows_updated_iff {req : ListingRequest} {i : ℕ} (hreq : SortRequest req i)
    (hupdated : i = 6 ∨ i = 7) (hlength : 0 < req.param.iDisplayLength) {routes : List Route}
    (hname : ∀ r ∈ routes, r.name ≠ none) :
    (∃ a, listRows c compareStrings req routes = .ok a)
      ↔ routes.filter (matchesSearch req) = [] := by
  have hi : i < aoColumns.length := by
    change i < 9
    omega
  have hordered : orderedRoutes compareStrings req routes
      = .ok ((Enumerable.ofList (routes.filter (matchesSearch req))).orderBy
          (orderingFunction aoColumns[i]) (compareObjects compareStrings)
          (req.sSortDir_0 != some "asc")) := by
    rw [orderedRoutes, hreq.sortColumn_eq hi, ok_bind, filteredRoutes_eq (fun _ => hname)]
    rfl
  constructor
  · rintro ⟨a, ha⟩
    by_contra hfound
    obtain ⟨r, hr⟩ := List.exists_mem_of_ne_nil _ hfound
    -- the key of any route found throws, so the sort does when the first row is asked for
    have hkey : orderingFunction aoColumns[i] r = .error { type := .nullReference } := by
      rw [orderingFunction, getProperty_updated hi hupdated]
    obtain ⟨hends, hnone⟩ := Enumerable.orderBy_key_throws (orderingFunction aoColumns[i])
      (compareObjects compareStrings) (req.sSortDir_0 != some "asc")
      (s := Enumerable.ofList (routes.filter (matchesSearch req))) hr hkey
    exact listRows_throws c compareStrings hordered hends hnone hlength a ha
  · intro hnone
    -- no key is computed for an empty list
    have hdisplayed : displayedRoutes compareStrings req routes = .ok (.ofList []) := by
      rw [displayedRoutes, hordered, ok_bind, hnone]
      simp [Enumerable.orderBy, Enumerable.mapUntil, Enumerable.compareAll, Enumerable.take,
        Enumerable.skip, Enumerable.ofList, pure, Except.pure]
    obtain ⟨a, ha, -⟩ := listRows_of_displayed c compareStrings hdisplayed rfl
      (List.forall_mem_nil _)
    exact ⟨a, ha⟩

/-- The grid sorts by a column that shows a last update. -/
def SortsByUpdate (g : Grid) : Prop :=
  ∃ e, g.aaSorting.head? = some e ∧ (e.column = 6 ∨ e.column = 7)

/-- The table has a route to show for what the grid asks. -/
def Finds (t : RouteTable) (req : ListingRequest) : Prop :=
  ∃ r ∈ GenericUpdatableRepository.live t, matchesSearch req r = true

/-- A grid that sorts by no last update asks for something that compares. -/
theorem sortable_fnAjaxParameters {g : Grid} (hg : Regular g) (hsort : ¬ SortsByUpdate g) :
    Sortable (fnAjaxParameters g) := by
  cases hhead : g.aaSorting.head? with
  | none =>
      refine ⟨none, ?_, fun name hname => nomatch hname⟩
      rw [sortColumn, fnAjaxParameters, hhead]
      rfl
  | some e =>
      have hi := (hg.sorted e (List.mem_of_head? hhead)).1
      have hcolumn := (sortRequest_fnAjaxParameters hg hhead).sortColumn_eq hi
      have hcomparable := (getProperty_aoColumns hi
        (fun hsix => hsort ⟨e, hhead, Or.inl hsix⟩)
        (fun hseven => hsort ⟨e, hhead, Or.inr hseven⟩)).2
      refine ⟨_, hcolumn, fun name hname => ?_⟩
      rw [← Option.some.inj hname]
      exact hcomparable

/-- **The answers of the action to the grid**: it throws exactly when it has to sort a
route by a last update. -/
theorem answered_iff {t : RouteTable} (ht : Readable t) (o : RowOrder Route) {g : Grid}
    (hg : Regular g) :
    (∃ a, jQueryDataTablesHandler c compareStrings t o (fnAjaxParameters g) = .ok a)
      ↔ ¬ (SortsByUpdate g ∧ Finds t (fnAjaxParameters g)) := by
  have hlisted := mem_getAllRoutes t o
  have hread := fun r hr => ht r ((hlisted r).mp hr)
  rw [jQueryDataTablesHandler, getAllRoutes_eq, ok_bind]
  by_cases hsort : SortsByUpdate g
  -- sorted by an update the action gets by only if the search finds nothing to sort
  · obtain ⟨e, hhead, hupdated⟩ := id hsort
    have hlength : 0 < (fnAjaxParameters g).param.iDisplayLength :=
      Int.natCast_pos.mpr (positive_of_mem_aLengthMenu hg.length)
    rw [listRows_updated_iff c compareStrings (sortRequest_fnAjaxParameters hg hhead) hupdated
      hlength (fun r hr => (hread r hr).1), List.filter_eq_nil_iff]
    constructor
    · rintro hnone ⟨-, r, hr, hmatches⟩
      exact hnone r ((hlisted r).mpr hr) hmatches
    · intro hnot r hr hmatches
      exact hnot ⟨hsort, r, (hlisted r).mp hr, hmatches⟩
  · exact iff_of_true
      (listRows_ok c compareStrings _ _ (fun r hr => (hread r hr).1) (fun r hr => (hread r hr).2)
        (sortable_fnAjaxParameters hg hsort))
      (fun h => hsort h.1)

theorem regular_fnInitialise : Regular fnInitialise where
  sorted := List.forall_mem_singleton.mpr (SortEntry.regular_first (by decide))
  clicked := List.forall_mem_nil _
  length := by decide

/-- The grid stays as the menus leave it. -/
theorem regular_run {t : RouteTable} {es : List GridEvent}
    (hes : Guarded (step (grid c compareStrings)) Offered (firstDraw c compareStrings t) es) :
    Regular (reached c compareStrings t es).client := by
  -- only the actions and the answers touch the grid
  have hstep : ∀ s e, Regular s.client → Offered s e →
      Regular (step (grid c compareStrings) s e).client := by
    intro s e hs he
    cases e with
    | act e => exact hs.act he
    | store t => exact hs
    | handle o i =>
        simp only [step]
        split
        · exact hs
        · exact hs
    | receive i =>
        simp only [step]
        split
        · exact hs
        · exact hs.answer _
  exact invariant_run hstep regular_fnInitialise hes

/-- **The grid that waits for good.** Of routes that can be read, when nothing is under
way any more, the grid still says that it is processing exactly if it sorts by a last
update and the action found a route for it. -/
theorem waits_iff {t : RouteTable} (ht : Readable t) {es : List GridEvent}
    (hes : Guarded (step (grid c compareStrings)) Offered (firstDraw c compareStrings t) es)
    (hrequests : (reached c compareStrings t es).requests = [])
    (hresponses : (reached c compareStrings t es).responses = [])
    (htimeouts : (reached c compareStrings t es).client.timeouts = []) :
    (reached c compareStrings t es).client.processing = true
      ↔ SortsByUpdate (reached c compareStrings t es).client
        ∧ ∃ h ∈ requestsHandled c compareStrings t es,
          h.request = fnAjaxParameters (reached c compareStrings t es).client
            ∧ Finds h.server h.request := by
  obtain ⟨a, hstage, hshowing⟩ := showing_run c compareStrings t es
  rw [hrequests, hresponses] at hstage
  obtain ⟨h, hmem, hquery, hresult⟩ := hstage.settled
  -- with no click waiting, the grid is processing exactly while it has no answer
  have hwaits : (reached c compareStrings t es).client.processing = true ↔ a = none := by
    refine ⟨fun hprocessing => ?_, hshowing.processing⟩
    by_contra hne
    exact hshowing.waiting hne hprocessing htimeouts
  have hreadable : Readable h.server := handled_by ht
    (hes.mono fun s e he t' ht' => by rw [ht'] at he; exact he) h hmem
  have hanswered := answered_iff c compareStrings hreadable h.choice
    (regular_run c compareStrings hes)
  rw [hwaits, ← hresult, ← not_iff_not, Handling.result, hquery, ← ne_eq,
    Option.ne_none_iff_exists']
  simp only [handle_eq_some]
  rw [hanswered, not_iff_not]
  -- the request is handled once at most, so the table it found is the one meant
  constructor
  · rintro ⟨hsort, hfinds⟩
    exact ⟨hsort, h, hmem, hquery, by rw [hquery]; exact hfinds⟩
  · rintro ⟨hsort, h', hmem', hquery', hfinds⟩
    rw [hstage.handled_unique hmem' hmem hquery' hquery, hquery] at hfinds
    exact ⟨hsort, hfinds⟩

end Answers

/-- The seeded routes, seen by a grid that is told to sort by the last update before its
first answer has arrived. -/
def sortedByUpdate : List GridEvent :=
  [.act (.click ⟨6, false⟩), .act .timeout, .handle RowOrder.stored 1, .handle RowOrder.stored 0,
    .receive 0]

/-- The grid by then. -/
def updateGrid : Grid := (fnSort { fnInitialise with aaSorting := [⟨6, "asc", 0⟩] }).1

theorem readable_seedTable : Readable seedTable := by
  unfold Readable
  decide

theorem reached_sortedByUpdate :
    reached exampleCulture compare seedTable sortedByUpdate = ⟨seedTable, updateGrid, [], []⟩ := by
  have hregular : Regular updateGrid :=
    ⟨List.forall_mem_singleton.mpr (SortEntry.regular_first (by decide)), List.forall_mem_nil _,
      by decide⟩
  obtain ⟨a, ha⟩ := (answered_iff exampleCulture compare readable_seedTable RowOrder.stored
    regular_fnInitialise).mpr (fun h => by
      obtain ⟨e, he, hcolumn⟩ := h.1
      rw [← Option.some.inj he] at hcolumn
      exact absurd hcolumn (by decide))
  -- the sort by the update throws; the answer to the first request is then too old
  have hrefused : (grid exampleCulture compare).handle seedTable RowOrder.stored
      (fnAjaxParameters updateGrid) = none := by
    rw [Option.eq_none_iff_forall_ne_some]
    intro b hb
    refine (answered_iff exampleCulture compare readable_seedTable RowOrder.stored hregular).mp
      ⟨b, (handle_eq_some _ _).mp hb⟩ ⟨⟨_, rfl, Or.inl rfl⟩, ruta1, ?_, rfl⟩
    decide
  have hstale : (grid exampleCulture compare).receive updateGrid a = updateGrid := by
    apply (counting exampleCulture compare).receive_older
    change (toNumber a.sEcho).getD 0 < _
    rw [sEcho_of_handler _ _ ha]
    decide
  have hopened : run (step (grid exampleCulture compare))
      (firstDraw exampleCulture compare seedTable) [.act (.click ⟨6, false⟩), .act .timeout]
      = ⟨seedTable, updateGrid, [fnAjaxParameters fnInitialise, fnAjaxParameters updateGrid], []⟩ :=
    rfl
  have hanswered := (handle_eq_some exampleCulture compare).mpr ha
  rw [reached, show sortedByUpdate = [.act (.click ⟨6, false⟩), .act .timeout]
    ++ [.handle RowOrder.stored 1, .handle RowOrder.stored 0, .receive 0] from rfl, run_append,
    hopened]
  simp [run, step, hrefused, hanswered, hstale]

/-- It waits for good. -/
theorem waits_updated :
    SortsByUpdate (reached exampleCulture compare seedTable sortedByUpdate).client
      ∧ ∃ h ∈ requestsHandled exampleCulture compare seedTable sortedByUpdate,
        h.request = fnAjaxParameters
            (reached exampleCulture compare seedTable sortedByUpdate).client
          ∧ Finds h.server h.request := by
  have hreached := reached_sortedByUpdate
  refine (@waits_iff exampleCulture compare seedTable readable_seedTable sortedByUpdate
    ?_ ?_ ?_ ?_).mp ?_
  · exact ⟨(by decide : 6 < aoColumns.length), trivial, trivial, trivial, trivial, trivial⟩
  · rw [hreached]
  · rw [hreached]
  · rw [hreached]
    rfl
  · rw [hreached]
    rfl

end CgGuide.RoutesGrid
