/-
Any number of clients that edit routes.

Clients open edit forms, change what the forms show and submit them, whenever and as
often as they like; some submissions are refused. Row by row that is the protocol of
`Lineages`: a form that is shown is a copy of the whole route, and a submission that
reports success writes it back with the texts it posts in place of the rendered ones
(`refines_handle`).

So a stored route is what the edits on its lineage made of it, and every edit that was
reported as done is among them exactly if each was made on the one before (`edited_run`).
Of the texts the forms posted, the newest of each control on the lineage is stored
(`newest_texts`). The other edits are gone as if they had never been submitted: one client
who makes the edits that are left, one after the other, leaves the same table (`replayed`).
-/
import CgGuide.EditBinding
import CgGuide.EditClients
import CgGuide.Lineages

set_option autoImplicit false

namespace CgGuide.EditLineages

open CgGuide.DotNet CgGuide.KeyedTable CgGuide.Entities CgGuide.DbContext CgGuide.RoutesService
open CgGuide.EditForm CgGuide.EditForm.RoutesController CgGuide.EditBinding CgGuide.Runs
open CgGuide.Lineages AppDbContext

/-! ## The requests -/

/-- The texts a form posts in place of the rendered ones, whether its client typed them or
the script of the page put them there. A control that is posted as it was rendered has no
text, and the box none unless it is checked. -/
structure Posted where
  name : Option String
  distance : Option String
  created : Option String
  comments : Option String
  customer : Option String
  isDeleted : Option String
deriving DecidableEq

/-- The form as it is posted. -/
def Posted.fillIn (posted : Posted) (page : EditPage) : Submission where
  name := posted.name.getD page.name
  distance := posted.distance.getD page.distance
  created := posted.created.getD page.created
  comments := posted.comments.getD page.comments
  customer := posted.customer.getD page.texts.customer
  isDeleted := posted.isDeleted

/-- Every submission is of this form, in particular what the script makes of a page that
was opened and not touched. -/
theorem exists_fillIn (s : Submission) (page : EditPage) :
    ∃ posted : Posted, posted.fillIn page = s :=
  ⟨⟨some s.name, some s.distance, some s.created, some s.comments, some s.customer,
    s.isDeleted⟩, rfl⟩

/-- A client opens the form of a route, or submits the form it has open. -/
inductive Request (Client : Type)
  | get (k : Client) (id : ℤ)
  | post (k : Client) (posted : Posted)

/-- The table, and the form each client has open, with the `id` of its URL. -/
structure Site (Client : Type) where
  table : RouteTable
  pages : Client → Option (ℤ × EditPage)

section Requests

variable {Client : Type} [DecidableEq Client] (c : Culture) (runtimeText : ExceptionType → String)

/-- Nobody has a form open. -/
def Site.opening (t : RouteTable) : Site Client := ⟨t, fun _ => none⟩

/-- The two `Edit` actions. A form that was submitted can be submitted again. -/
def handle (s : Site Client) : Request Client → Site Client
  | .get k id =>
    { s with
      pages := Function.update s.pages k ((editGet c s.table id).toOption.map (Prod.mk id)) }
  | .post k posted =>
    match s.pages k with
    | none => s
    | some (id, page) =>
      { s with table := (editPost c runtimeText s.table id (posted.fillIn page).values).2 }

/-- What a request has done, if it is answered with a form or reports success. -/
def done (s : Site Client) : Request Client → List (Event Client ℤ Posted)
  | .get k id =>
    match editGet c s.table id with
    | .error _ => []
    | .ok _ => [.read k id]
  | .post k posted =>
    match s.pages k with
    | none => []
    | some (id, page) =>
      if (editPost c runtimeText s.table id (posted.fillIn page).values).1 = editSuccess then
        [.write k posted]
      else []

/-- All that was done in a run. -/
def edits (t : RouteTable) (es : List (Request Client)) : List (Event Client ℤ Posted) :=
  emitted (handle c runtimeText) (done c runtimeText) (Site.opening t) es

end Requests

/-- A route after a round through the form. -/
def edited (c : Culture) (r : Route) (posted : Posted) : Route :=
  bindRoute c r.id (posted.fillIn (renderEdit c r)).values

/-! ## The refinement -/

section Refinement

variable {Client : Type} [DecidableEq Client] {c : Culture} {runtimeText : ExceptionType → String}

/-- The stored routes are the values of the cells, and a form that is open shows its
client's copy. -/
structure Refines (c : Culture) (t : RouteTable) (s : Site Client) (a : State Client ℤ Route) :
    Prop where
  stored : ∀ id, s.table.find? id = (t.find? id).map (fun _ => a.cells id)
  pages : ∀ k id page, s.pages k = some (id, page) →
    ∃ r, a.copy k = some (id, r) ∧ r.id = id ∧ page = renderEdit c r

/-- The routes before the first request. -/
def cellsOf (t : RouteTable) (id : ℤ) : Route := (t.find? id).getD Route.default

omit [DecidableEq Client] in
theorem refines_opening (t : RouteTable) :
    Refines c t (Site.opening t : Site Client) (start (cellsOf t)) where
  stored id := by
    show t.find? id = (t.find? id).map (fun _ => (t.find? id).getD Route.default)
    cases t.find? id with
    | none => rfl
    | some r => rfl
  pages k id page h := absurd h.symm (Option.some_ne_none _)

variable (c runtimeText) in
/-- A GET of a stored route. -/
theorem get_stored {s : Site Client} {id : ℤ} {r : Route} (hr : s.table.find? id = some r)
    (k : Client) :
    handle c runtimeText s (.get k id)
        = { s with pages := Function.update s.pages k (some (id, renderEdit c r)) }
      ∧ done c runtimeText s (.get k id) = [.read k id] := by
  simp only [handle, done, editGet_stored c hr, and_true]
  rfl

variable (c runtimeText) in
/-- Without a row the client is left without a form. -/
theorem get_missing {s : Site Client} {id : ℤ} (hr : s.table.find? id = none) (k : Client) :
    handle c runtimeText s (.get k id) = { s with pages := Function.update s.pages k none }
      ∧ done c runtimeText s (.get k id) = [] := by
  have hget : editGet c s.table id = .error { type := .nullReference } := by
    rw [editGet, getRouteById_eq, hr]
  simp only [handle, done, hget, and_true]
  rfl

/-- A GET takes a copy, if the route is stored. -/
theorem refines_get {t : RouteTable} {s : Site Client} {a : State Client ℤ Route}
    (h : Refines c t s a) (k : Client) (id : ℤ) :
    Refines c t (handle c runtimeText s (.get k id))
      (run (step (edited c)) a (done c runtimeText s (.get k id))) := by
  cases hr : s.table.find? id with
  | none =>
      obtain ⟨hhandle, hdone⟩ := get_missing c runtimeText hr k
      rw [hhandle, hdone]
      refine ⟨h.stored, fun k' id' page hpage => h.pages k' id' page ?_⟩
      have hpage : Function.update s.pages k none k' = some (id', page) := hpage
      by_cases hk : k' = k
      · rw [hk, Function.update_self] at hpage
        exact absurd hpage.symm (Option.some_ne_none _)
      · rwa [Function.update_of_ne hk] at hpage
  | some r =>
      obtain ⟨hhandle, hdone⟩ := get_stored c runtimeText hr k
      have hcell : a.cells id = r := by
        have hstored := h.stored id
        rw [hr] at hstored
        obtain ⟨-, -, hcell⟩ := Option.map_eq_some_iff.mp hstored.symm
        exact hcell
      rw [hhandle, hdone]
      refine ⟨h.stored, fun k' id' page hpage => ?_⟩
      have hpage : Function.update s.pages k (some (id, renderEdit c r)) k' = some (id', page) :=
        hpage
      show ∃ r, Function.update a.copy k (some (id, a.cells id)) k' = some (id', r) ∧ _
      by_cases hk : k' = k
      · rw [hk, Function.update_self] at hpage ⊢
        obtain ⟨rfl, rfl⟩ := Prod.mk.inj (Option.some.inj hpage)
        exact ⟨r, by rw [hcell], ((s.table.find?_eq_some id r).mp hr).2, rfl⟩
      · rw [Function.update_of_ne hk] at hpage ⊢
        exact h.pages k' id' page hpage

/-- A submission that reports success stores what is bound, in place of a stored route. -/
theorem post_success {t : RouteTable} {r : Route} {posted : Posted}
    (h : (editPost c runtimeText t r.id (posted.fillIn (renderEdit c r)).values).1
      = editSuccess) :
    saveModified t (edited c r posted)
      = .ok (editPost c runtimeText t r.id (posted.fillIn (renderEdit c r)).values).2 :=
  (editPost_success_iff c runtimeText t _ r.id _).mp (Prod.ext h rfl)

/-- A POST writes the copy back, if it reports success. -/
theorem refines_post {t : RouteTable} {s : Site Client} {a : State Client ℤ Route}
    (h : Refines c t s a) (k : Client) (posted : Posted) :
    Refines c t (handle c runtimeText s (.post k posted))
      (run (step (edited c)) a (done c runtimeText s (.post k posted))) := by
  cases hpage : s.pages k with
  | none =>
      simp only [handle, done, hpage]
      exact h
  | some p =>
      obtain ⟨id, page⟩ := p
      obtain ⟨r, hcopy, rfl, rfl⟩ := h.pages k id page hpage
      simp only [handle, done, hpage]
      by_cases hanswer : (editPost c runtimeText s.table r.id
          (posted.fillIn (renderEdit c r)).values).1 = editSuccess
      · rw [if_pos hanswer]
        obtain ⟨-, -, ⟨old, hold⟩, htable⟩ := saveModified_ok.mp (post_success hanswer)
        have hwrite : run (step (edited c)) a [.write k posted]
            = { a with cells := Function.update a.cells r.id (edited c r posted) } := by
          simp only [run, List.foldl_cons, List.foldl_nil, step, hcopy]
        rw [hwrite, htable]
        refine ⟨fun id => ?_, h.pages⟩
        show (s.table.replace (edited c r posted)).find? id
          = (t.find? id).map (fun _ => Function.update a.cells r.id (edited c r posted) id)
        have hstored := h.stored id
        by_cases hid : id = r.id
        · subst hid
          -- the row was there before the first request, as no request adds one
          have hself : (s.table.replace (edited c r posted)).find? r.id
              = some (edited c r posted) :=
            Table.find?_replace_self s.table.toTable (edited c r posted) hold
          have hold : s.table.find? r.id = some old := hold
          rw [hold] at hstored
          obtain ⟨first, hfirst, -⟩ := Option.map_eq_some_iff.mp hstored.symm
          rw [hself, hfirst, Option.map_some, Function.update_self]
        · have hother : (s.table.replace (edited c r posted)).find? id = s.table.find? id :=
            Table.find?_replace_of_ne s.table.toTable (edited c r posted) hid
          rw [hother, Function.update_of_ne hid]
          exact hstored
      · rw [if_neg hanswer, editPost_failure c runtimeText _ _ _ hanswer]
        exact h

/-- **The site refines the protocol**: each request is an event of it, or none. -/
theorem refines_handle {t : RouteTable} {s : Site Client} {a : State Client ℤ Route}
    (h : Refines c t s a) (e : Request Client) :
    Refines c t (handle c runtimeText s e)
      (run (step (edited c)) a (done c runtimeText s e)) := by
  cases e with
  | get k id => exact refines_get h k id
  | post k posted => exact refines_post h k posted

variable (c runtimeText) in
/-- **What is stored after a run**: each route with the edits of its lineage. -/
theorem find?_run (t : RouteTable) (es : List (Request Client)) (id : ℤ) :
    (run (handle c runtimeText) (Site.opening t) es).table.find? id
      = (t.find? id).map (fun r => (lineage (edits c runtimeText t es) id).foldl (edited c) r) := by
  have hrun : Refines c t (run (handle c runtimeText) (Site.opening t) es)
      (run (step (edited c)) (start (cellsOf t)) (edits c runtimeText t es)) :=
    run_emitted (R := Refines c t) (fun _ _ e h => refines_handle h e) (refines_opening t)
  rw [hrun.stored, cells_run, cellsOf]
  cases t.find? id with
  | none => rfl
  | some r => rfl

end Refinement

/-! ## The texts of the form -/

section Texts

/-- What a control shows after some edits: the newest text that was posted for it, or else
what it showed first. -/
def lastPosted (control : Posted → Option String) (l : List Posted) (first : String) : String :=
  (l.filterMap control).getLast?.getD first

/-- The texts of a page after some edits. -/
def postedOver (l : List Posted) (page : EditPage) : EditPage where
  name := lastPosted Posted.name l page.name
  distance := lastPosted Posted.distance l page.distance
  created := lastPosted Posted.created l page.created
  comments := lastPosted Posted.comments l page.comments
  customers := page.customers

/-- The route holds what the texts of a page read as, the date up to the time of day. -/
structure ReadFrom (c : Culture) (page : EditPage) (r : Route) : Prop where
  name : r.name.getD "" = page.name
  distance : r.distance = (c.toInt32 page.distance).getD Route.default.distance
  created : date r.created = date ((c.toDateTime page.created).getD Route.default.created)
  comments : r.comments.getD "" = page.comments

theorem lastPosted_concat (control : Posted → Option String) (l : List Posted) (posted : Posted)
    (first : String) :
    lastPosted control (l ++ [posted]) first
      = (control posted).getD (lastPosted control l first) := by
  rw [lastPosted, List.filterMap_append]
  cases htext : control posted with
  | none => rw [List.filterMap_cons_none htext, List.filterMap_nil, List.append_nil,
      Option.getD_none, lastPosted]
  | some text => rw [List.filterMap_cons_some htext, List.filterMap_nil, List.getLast?_concat,
      Option.getD_some, Option.getD_some]

variable {c : Culture} (hround : ∀ d, c.toInt32 (c.int32ToString d) = some d)
  (hdate : ∀ d, c.toDateTime (c.toShortDateString d) = some (date d))

include hround hdate

theorem readFrom_renderEdit (r : Route) : ReadFrom c (renderEdit c r) r where
  name := rfl
  distance := by
    show r.distance = (c.toInt32 (c.int32ToString r.distance)).getD _
    rw [hround, Option.getD_some]
  created := by
    show date r.created = date ((c.toDateTime (c.toShortDateString r.created)).getD _)
    rw [hdate, Option.getD_some, date_date]
  comments := rfl

/-- One more edit, and the texts that it posted. -/
theorem ReadFrom.concat {page : EditPage} {r : Route} {l : List Posted}
    (h : ReadFrom c (postedOver l page) r) (posted : Posted) :
    ReadFrom c (postedOver (l ++ [posted]) page) (edited c r posted) where
  name := by
    rw [edited, getD_name_bindRoute, Posted.fillIn]
    show posted.name.getD (r.name.getD "") = lastPosted Posted.name (l ++ [posted]) page.name
    rw [h.name, lastPosted_concat]
    rfl
  distance := by
    show (c.toInt32 (posted.distance.getD (c.int32ToString r.distance))).getD _
      = (c.toInt32 (lastPosted Posted.distance (l ++ [posted]) page.distance)).getD _
    rw [lastPosted_concat]
    cases posted.distance with
    | none =>
      -- what was read once reads the same again
      rw [Option.getD_none, Option.getD_none, hround, Option.getD_some]
      exact h.distance
    | some text => rw [Option.getD_some, Option.getD_some]
  created := by
    show date ((c.toDateTime (posted.created.getD (c.toShortDateString r.created))).getD _)
      = date ((c.toDateTime (lastPosted Posted.created (l ++ [posted]) page.created)).getD _)
    rw [lastPosted_concat]
    cases posted.created with
    | none =>
      rw [Option.getD_none, Option.getD_none, hdate, Option.getD_some, date_date]
      exact h.created
    | some text => rw [Option.getD_some, Option.getD_some]
  comments := by
    rw [edited, getD_comments_bindRoute, Posted.fillIn]
    show posted.comments.getD (r.comments.getD "")
      = lastPosted Posted.comments (l ++ [posted]) page.comments
    rw [h.comments, lastPosted_concat]
    rfl

/-- **A route that was edited again and again** holds the newest text of each control. -/
theorem readFrom_foldl (r : Route) (l : List Posted) :
    ReadFrom c (postedOver l (renderEdit c r)) (l.foldl (edited c) r) := by
  induction l using List.reverseRecOn with
  | nil => exact readFrom_renderEdit hround hdate r
  | append_singleton l posted ih =>
      rw [List.foldl_concat]
      exact ih.concat hround hdate posted

end Texts

/-! ## What is left of the edits -/

section Edits

variable {Client : Type} [DecidableEq Client] (c : Culture) (runtimeText : ExceptionType → String)
  (t : RouteTable) (es : List (Request Client))

/-- **Which edits are left.** A stored route is what the edits on its lineage made of it.
They are some of those that were reported as done, in that order and with the newest of
them. They are all of them exactly if each was submitted from a form that was opened after
the one before it was done. -/
theorem edited_run (id : ℤ) :
    (run (handle c runtimeText) (Site.opening t) es).table.find? id
        = (t.find? id).map
            (fun r => (lineage (edits c runtimeText t es) id).foldl (edited c) r)
      ∧ (lineage (edits c runtimeText t es) id).Sublist (writes (edits c runtimeText t es) id)
      ∧ (lineage (edits c runtimeText t es) id).getLast?
          = (writes (edits c runtimeText t es) id).getLast?
      ∧ (lineage (edits c runtimeText t es) id = writes (edits c runtimeText t es) id
          ↔ Serial (edits c runtimeText t es) id) := by
  refine ⟨?_, ?_, ?_, ?_⟩
  · exact find?_run c runtimeText t es id
  · exact (sublist_writes _).1 id
  · exact getLast?_lineage _ id
  · exact lineage_eq_writes_iff _ id

variable {id : ℤ} {r : Route} (hr : t.find? id = some r)

include hr

/-- **What the stored route holds**: in each control the newest text of the edits that are
left, and of the newest edit also the box. Once it was edited its audit columns are null. -/
theorem newest_texts (hround : ∀ d, c.toInt32 (c.int32ToString d) = some d)
    (hdate : ∀ d, c.toDateTime (c.toShortDateString d) = some (date d)) :
    ∃ r', (run (handle c runtimeText) (Site.opening t) es).table.find? id = some r'
      ∧ ReadFrom c (postedOver (lineage (edits c runtimeText t es) id) (renderEdit c r)) r'
      ∧ ∀ newest, (writes (edits c runtimeText t es) id).getLast? = some newest →
          r'.isDeleted = (newest.isDeleted.bind c.toBoolean).getD false ∧ blankAudit r' := by
  have hrow := find?_run c runtimeText t es id
  rw [hr, Option.map_some] at hrow
  refine ⟨_, hrow, readFrom_foldl hround hdate r _, fun newest hnewest => ?_⟩
  rw [← getLast?_lineage] at hnewest
  obtain ⟨before, hbefore⟩ := List.getLast?_eq_some_iff.mp hnewest
  rw [hbefore, List.foldl_concat]
  refine ⟨?_, rfl, rfl, rfl, rfl, rfl⟩
  show bindValue (newest.fillIn _).values "IsDeleted" c.toBoolean false = _
  have hbox : ∀ page, (newest.fillIn page).values "IsDeleted" = newest.isDeleted := fun page => rfl
  rw [bindValue, hbox]
  cases newest.isDeleted with
  | none => rfl
  | some text => rfl

end Edits

/-- One client posts another name, and one a comment. -/
def rename : Posted := ⟨some "Ruta Norte", none, none, none, none, none⟩

def comment : Posted := ⟨none, none, none, some "Cerrada", none, none⟩

/-- Both open the form before either submits it. -/
def overlapping : List (Request Bool) :=
  [.get false 3, .get true 3, .post false rename, .post true comment]

/-- Both are told that the route was modified, and the new name is gone. -/
theorem newest_texts_overlapping :
    writes (edits dayCulture (fun _ => "") seedTable overlapping) 3 = [rename, comment]
      ∧ ∃ r', (run (handle dayCulture (fun _ => "")) (Site.opening seedTable)
          overlapping).table.find? 3 = some r'
        ∧ r'.name.getD "" = "Ruta 1" ∧ r'.comments.getD "" = "Cerrada" ∧ blankAudit r' := by
  have hwrites : writes (edits dayCulture (fun _ => "") seedTable overlapping) 3
      = [rename, comment] := by decide +kernel
  have hlineage : lineage (edits dayCulture (fun _ => "") seedTable overlapping) 3
      = [comment] := by decide +kernel
  have hstored : seedTable.find? 3 = some ruta1 := by decide
  obtain ⟨r', hrow, hread, hnewest⟩ := newest_texts dayCulture (fun _ => "") seedTable
    overlapping hstored dayCulture_round dayCulture_date
  rw [hlineage] at hread
  refine ⟨hwrites, r', hrow, ?_, ?_, ?_⟩
  · exact hread.name
  · exact hread.comments
  · exact (hnewest comment (by rw [hwrites]; rfl)).2

/-! ## One client instead of all -/

section Replay

variable {Client : Type} [DecidableEq Client] {c : Culture} {runtimeText : ExceptionType → String}

/-- One client makes these edits, each from a form it opens for it. -/
def replay (k : Client) (id : ℤ) (l : List Posted) : List (Request Client) :=
  l.flatMap (fun posted => [.get k id, .post k posted])

/-- ... and those of all routes, route after route. -/
def replays (t : RouteTable) (l : ℤ → List Posted) (k : Client) : List (Request Client) :=
  (t.rows.map ID).flatMap (fun id => replay k id (l id))

/-- A route that the mapping and the columns take. -/
def Taken (r : Route) : Prop :=
  UpdatableEntity.validates r = true ∧ UpdatableEntity.columnsAccept r = true

/-- So is every version that the edits make of the route. -/
def AllTaken (c : Culture) (r : Route) (l : List Posted) : Prop :=
  ∀ l' posted, l' ++ [posted] <+: l → Taken (edited c (l'.foldl (edited c) r) posted)

omit [DecidableEq Client] in
theorem replay_concat (k : Client) (id : ℤ) (l : List Posted) (posted : Posted) :
    replay k id (l ++ [posted]) = replay k id l ++ [.get k id, .post k posted] := by
  rw [replay, List.flatMap_append, List.flatMap_singleton, replay]

variable (runtimeText) in
/-- Submitting the form of a stored route, where the save takes what is bound. -/
theorem post_taken {s : Site Client} {r : Route} (hr : s.table.find? r.id = some r) {k : Client}
    (hpage : s.pages k = some (r.id, renderEdit c r)) {posted : Posted}
    (htaken : Taken (edited c r posted)) :
    handle c runtimeText s (.post k posted)
        = { s with table := s.table.replace (edited c r posted) }
      ∧ done c runtimeText s (.post k posted) = [.write k posted] := by
  have hsave : saveModified s.table (edited c r posted)
      = .ok (s.table.replace (edited c r posted)) :=
    saveModified_ok.mpr ⟨htaken.1, htaken.2, ⟨r, hr⟩, rfl⟩
  have hpost : editPost c runtimeText s.table r.id (posted.fillIn (renderEdit c r)).values
      = (editSuccess, s.table.replace (edited c r posted)) :=
    (editPost_success_iff c runtimeText _ _ _ _).mpr hsave
  simp only [handle, done, hpage, hpost, if_true, and_self]

variable (runtimeText) in
/-- Opening the form and submitting it. -/
theorem handle_edit {s : Site Client} {r : Route} (hr : s.table.find? r.id = some r) (k : Client)
    {posted : Posted} (htaken : Taken (edited c r posted)) :
    (∀ i, (run (handle c runtimeText) s [.get k r.id, .post k posted]).table.find? i
        = if i = r.id then some (edited c r posted) else s.table.find? i)
      ∧ emitted (handle c runtimeText) (done c runtimeText) s [.get k r.id, .post k posted]
        = [.read k r.id, .write k posted] := by
  obtain ⟨hget, hread⟩ := get_stored c runtimeText hr k
  have hpage : Function.update s.pages k (some (r.id, renderEdit c r)) k
      = some (r.id, renderEdit c r) := Function.update_self _ _ _
  obtain ⟨hpost, hwrite⟩ := post_taken runtimeText
    (s := ⟨s.table, Function.update s.pages k (some (r.id, renderEdit c r))⟩) hr hpage htaken
  simp only [emitted, run_cons, hget, hread, hpost, hwrite]
  refine ⟨fun i => ?_, rfl⟩
  show (s.table.replace (edited c r posted)).find? i = _
  split_ifs with hi
  · rw [hi]
    exact Table.find?_replace_self s.table.toTable (edited c r posted) hr
  · exact Table.find?_replace_of_ne s.table.toTable (edited c r posted) hi

variable (runtimeText) in
/-- Edits that are all taken are all done. -/
theorem run_replay {s : Site Client} {id : ℤ} {r : Route} (hr : s.table.find? id = some r)
    (k : Client) {l : List Posted} (hl : AllTaken c r l) :
    (∀ i, (run (handle c runtimeText) s (replay k id l)).table.find? i
        = if i = id then some (l.foldl (edited c) r) else s.table.find? i)
      ∧ emitted (handle c runtimeText) (done c runtimeText) s (replay k id l)
        = l.flatMap (fun posted => [.read k id, .write k posted]) := by
  induction l using List.reverseRecOn with
  | nil =>
      refine ⟨fun i => ?_, rfl⟩
      show s.table.find? i = if i = id then some r else s.table.find? i
      split_ifs with hi
      · rw [hi, hr]
      · rfl
  | append_singleton l posted ih =>
      obtain ⟨hrows, hdone⟩ := ih (fun l' posted' h =>
        hl l' posted' (h.trans (List.prefix_append l [posted])))
      have hrow := hrows id
      rw [if_pos rfl] at hrow
      obtain rfl : (l.foldl (edited c) r).id = id := ((Table.find?_eq_some _ _ _).mp hrow).2
      obtain ⟨hrows', hdone'⟩ := handle_edit runtimeText hrow k (hl l posted (List.prefix_refl _))
      rw [replay_concat, run_append, emitted_append, List.flatMap_append, List.flatMap_singleton,
        List.foldl_concat, hdone', hdone]
      refine ⟨fun i => ?_, rfl⟩
      rw [hrows']
      split_ifs with hi
      · rfl
      · rw [hrows, if_neg hi]

variable (runtimeText) in
/-- Route after route, what is taken is done. -/
theorem run_replays {l : ℤ → List Posted} {ids : List ℤ} (hids : ids.Nodup) (k : Client) :
    ∀ {s : Site Client},
      (∀ id ∈ ids, ∃ r, s.table.find? id = some r ∧ AllTaken c r (l id)) →
      (∀ i, (run (handle c runtimeText) s
            (ids.flatMap (fun id => replay k id (l id)))).table.find? i
          = (s.table.find? i).map (fun r => if i ∈ ids then (l i).foldl (edited c) r else r))
        ∧ emitted (handle c runtimeText) (done c runtimeText) s
            (ids.flatMap (fun id => replay k id (l id)))
          = ids.flatMap (fun id =>
              (l id).flatMap (fun posted => [.read k id, .write k posted])) := by
  induction ids with
  | nil =>
      refine fun _ => ⟨fun i => ?_, rfl⟩
      simp only [List.not_mem_nil, if_false, Option.map_id_fun', id]
      rfl
  | cons id ids ih =>
      intro s htaken
      obtain ⟨hid, hids⟩ := List.nodup_cons.mp hids
      obtain ⟨r, hr, hl⟩ := htaken id List.mem_cons_self
      obtain ⟨hrows, hdone⟩ := run_replay runtimeText hr k hl
      -- the routes that follow are still what they were
      obtain ⟨hrows', hdone'⟩ := ih hids (s := run (handle c runtimeText) s (replay k id (l id)))
        (fun i hi => by
          obtain ⟨r', hr', hl'⟩ := htaken i (List.mem_cons_of_mem id hi)
          have hne : i ≠ id := fun h => hid (h ▸ hi)
          exact ⟨r', by rw [hrows, if_neg hne, hr'], hl'⟩)
      rw [List.flatMap_cons, List.flatMap_cons, run_append, emitted_append, hdone, hdone']
      refine ⟨fun i => ?_, rfl⟩
      rw [hrows', hrows]
      by_cases hi : i = id
      · subst hi
        rw [if_pos rfl, hr, Option.map_some, Option.map_some, if_neg hid,
          if_pos List.mem_cons_self]
      · have hmem : i ∈ id :: ids ↔ i ∈ ids := List.mem_cons.trans (or_iff_right hi)
        simp only [if_neg hi, hmem]

/-- The requests that report success write routes that are taken. -/
theorem guarded_edits (t : RouteTable) (es : List (Request Client)) :
    Guarded (step (edited c)) (WritesOnly Taken (edited c)) (start (cellsOf t))
      (edits c runtimeText t es) := by
  refine guarded_emitted (R := Refines c t) (fun _ _ e h => refines_handle h e)
    (fun s a e h => ?_) (refines_opening t)
  cases e with
  | get k id =>
      rw [done]
      cases editGet c s.table id with
      | error x => trivial
      | ok page => exact ⟨fun k' x i v he => (by cases he), trivial⟩
  | post k posted =>
      cases hpage : s.pages k with
      | none =>
          simp only [done, hpage]
          trivial
      | some p =>
          obtain ⟨id, page⟩ := p
          obtain ⟨r, hcopy, rfl, rfl⟩ := h.pages k id page hpage
          simp only [done, hpage]
          split_ifs with hanswer
          · refine ⟨fun k' x i v he hv => ?_, trivial⟩
            obtain ⟨rfl, rfl⟩ := Event.write.inj he
            rw [hcopy] at hv
            obtain ⟨-, rfl⟩ := Prod.mk.inj (Option.some.inj hv)
            obtain ⟨hvalid, haccept, -, -⟩ := saveModified_ok.mp (post_success hanswer)
            exact ⟨hvalid, haccept⟩
          · trivial

variable (c runtimeText) in
/-- **One client can leave the same table.** For every run there is one in which a client
makes the edits that are left, route after route and one after the other: they are all done,
and no route is different in the end. The other edits might as well never have been
submitted. -/
theorem replayed (t : RouteTable) (es : List (Request Client)) (k : Client) :
    (∀ id, (run (handle c runtimeText) (Site.opening t)
          (replays t (lineage (edits c runtimeText t es)) k)).table.find? id
        = (run (handle c runtimeText) (Site.opening t) es).table.find? id)
      ∧ edits c runtimeText t (replays t (lineage (edits c runtimeText t es)) k)
        = (t.rows.map ID).flatMap (fun id =>
            (lineage (edits c runtimeText t es) id).flatMap
              (fun posted => [.read k id, .write k posted])) := by
  have htaken : ∀ id ∈ t.rows.map ID, ∃ r, t.find? id = some r
      ∧ AllTaken c r (lineage (edits c runtimeText t es) id) := by
    intro id hid
    obtain ⟨r, hmem, rfl⟩ := List.mem_map.mp hid
    have hr : t.find? (ID r) = some r := (Table.find?_eq_some _ _ _).mpr ⟨hmem, rfl⟩
    have hcell : cellsOf t (ID r) = r := by rw [cellsOf, hr, Option.getD_some]
    refine ⟨r, hr, fun l posted hl => ?_⟩
    have hversion := lineage_writesOnly (guarded_edits t es) (ID r) hl
    rw [hcell] at hversion
    exact hversion
  obtain ⟨hrows, hdone⟩ := run_replays runtimeText t.keys_nodup k (s := Site.opening t) htaken
  refine ⟨fun id => ?_, hdone⟩
  rw [replays, hrows, find?_run]
  show (t.find? id).map _ = _
  cases hr : t.find? id with
  | none => rfl
  | some r =>
      obtain ⟨hmem, rfl⟩ := (Table.find?_eq_some _ _ _).mp hr
      rw [Option.map_some, Option.map_some, if_pos (List.mem_map_of_mem hmem)]

end Replay

end CgGuide.EditLineages
