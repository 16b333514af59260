/-
Clients that edit one route at the same time.

A client opens the edit form (GET), changes some of the fields it is shown,
and submits the whole form (POST). The form carries no version and the mapping no
concurrency token, so the server cannot tell that a form was rendered before
somebody else's POST: seen through the three fields a client changes, the two
actions are `read` and `write` of `ReadModifyWrite`, with the page as the
client's copy. `refines_serve` is that statement, and `two_edits` reads off it what
two clients leave behind.
-/
import CgGuide.EditForm
import CgGuide.ReadModifyWrite
import Mathlib.Data.List.Induction

set_option autoImplicit false

namespace CgGuide.EditClients

open CgGuide.DotNet CgGuide.KeyedTable CgGuide.Entities CgGuide.DbContext CgGuide.RoutesService
open CgGuide.EditForm CgGuide.EditForm.RoutesController CgGuide.Runs CgGuide.ReadModifyWrite

/-! ## What a client changes -/

/-- A text the binder reads as a number. -/
structure NumberText (c : Culture) where
  text : String
  value : Int32
  reads : c.toInt32 text = some value

/-- A client's changes: the texts its form posts in place of the rendered ones, whether it
typed them or the script of the page put them there. A field that is posted as it was
rendered has none. -/
structure Changes (c : Culture) where
  name : Option String
  distance : Option (NumberText c)
  comments : Option String

/-- The form a client posts. -/
def Changes.fillIn {c : Culture} (ch : Changes c) (page : EditPage) : Submission :=
  { page.texts with
    name := ch.name.getD page.name
    distance := (ch.distance.map NumberText.text).getD page.distance
    comments := ch.comments.getD page.comments }

/-! ## The server -/

section Server

variable {Client : Type} [DecidableEq Client]

/-- The table, the page each client was last shown, and the answers to the POSTs
in order. -/
structure Site (Client : Type) where
  table : RouteTable
  pages : Client → Option EditPage
  answers : List String

def Site.start (t : RouteTable) : Site Client := ⟨t, fun _ => none, []⟩

/-- One request for the route `id`: `read` is a client's GET, `write` its POST. -/
def handle (c : Culture) (runtimeText : ExceptionType → String) (id : ℤ)
    (changes : Client → Changes c) (s : Site Client) : Event Client → Site Client
  | .read k =>
    match editGet c s.table id with
    | .error _ => s
    | .ok page => { s with pages := Function.update s.pages k (some page) }
  | .write k =>
    match s.pages k with
    | none => s
    | some page =>
      let answer := editPost c runtimeText s.table id ((changes k).fillIn page).values
      { s with table := answer.2, answers := s.answers ++ [answer.1] }

def serve (c : Culture) (runtimeText : ExceptionType → String) (id : ℤ)
    (changes : Client → Changes c) (s : Site Client) (es : List (Event Client)) : Site Client :=
  run (handle c runtimeText id changes) s es

end Server

/-! ## The three fields -/

/-- What the three inputs show of a route. A null text shows as an empty one. -/
structure Fields where
  name : String
  distance : Int32
  comments : String

def fields (r : Route) : Fields := ⟨r.name.getD "", r.distance, r.comments.getD ""⟩

/-- The changes, on the fields. -/
def Changes.apply {c : Culture} (ch : Changes c) (f : Fields) : Fields where
  name := ch.name.getD f.name
  distance := (ch.distance.map NumberText.value).getD f.distance
  comments := ch.comments.getD f.comments

/-- Every field that was changed holds its change. -/
structure Changes.StoredIn {c : Culture} (ch : Changes c) (f : Fields) : Prop where
  name : ∀ text, ch.name = some text → f.name = text
  distance : ∀ number, ch.distance = some number → f.distance = number.value
  comments : ∀ text, ch.comments = some text → f.comments = text

/-- No field was changed by both. -/
structure Changes.Apart {c : Culture} (ch ch' : Changes c) : Prop where
  name : ch.name = none ∨ ch'.name = none
  distance : ch.distance = none ∨ ch'.distance = none
  comments : ch.comments = none ∨ ch'.comments = none

theorem Changes.storedIn_apply {c : Culture} (ch : Changes c) (f : Fields) :
    ch.StoredIn (ch.apply f) where
  name text h := by rw [Changes.apply, h, Option.getD_some]
  distance number h := by rw [Changes.apply, h, Option.map_some, Option.getD_some]
  comments text h := by rw [Changes.apply, h, Option.getD_some]

/-- Changes to other fields leave the stored ones. -/
theorem Changes.StoredIn.apply {c : Culture} {ch ch' : Changes c} {f : Fields}
    (h : ch.StoredIn f) (hapart : ch.Apart ch') : ch.StoredIn (ch'.apply f) where
  name text htext := by
    have hnone : ch'.name = none := hapart.name.resolve_left (by simp [htext])
    rw [Changes.apply, hnone, Option.getD_none]
    exact h.name text htext
  distance number hnumber := by
    have hnone : ch'.distance = none := hapart.distance.resolve_left (by simp [hnumber])
    rw [Changes.apply, hnone, Option.map_none, Option.getD_none]
    exact h.distance number hnumber
  comments text htext := by
    have hnone : ch'.comments = none := hapart.comments.resolve_left (by simp [htext])
    rw [Changes.apply, hnone, Option.getD_none]
    exact h.comments text htext

/-- The page shows these fields. -/
structure Shows (c : Culture) (page : EditPage) (f : Fields) : Prop where
  name : page.name = f.name
  distance : page.distance = c.int32ToString f.distance
  comments : page.comments = f.comments

theorem shows_renderEdit (c : Culture) (r : Route) : Shows c (renderEdit c r) (fields r) :=
  ⟨rfl, rfl, rfl⟩

/-- The route bound from a submitted page has the page's fields with the changes
made: numbers read back as they were written. -/
theorem fields_bindRoute {c : Culture} (hround : ∀ d, c.toInt32 (c.int32ToString d) = some d)
    (ch : Changes c) {page : EditPage} {f : Fields} (hpage : Shows c page f) (id : ℤ) :
    fields (bindRoute c id (ch.fillIn page).values) = ch.apply f := by
  have hdistance : (c.toInt32 (ch.fillIn page).distance).getD Route.default.distance
      = (ch.apply f).distance := by
    rw [Changes.fillIn, Changes.apply]
    cases ch.distance with
    | none =>
      -- the text was not touched: it reads back as the number it was written from
      show (c.toInt32 page.distance).getD _ = f.distance
      rw [hpage.distance, hround, Option.getD_some]
    | some number =>
      show (c.toInt32 number.text).getD _ = number.value
      rw [number.reads, Option.getD_some]
  have hbound : (bindRoute c id (ch.fillIn page).values).distance = (ch.apply f).distance :=
    hdistance
  rw [fields, getD_name_bindRoute, getD_comments_bindRoute, hbound, Changes.fillIn, Changes.apply,
    hpage.name, hpage.comments]

/-! ## The refinement -/

section Refinement

variable {Client : Type} [DecidableEq Client] {c : Culture} {runtimeText : ExceptionType → String}
  {id : ℤ} {changes : Client → Changes c}

/-- The stored route shows the shared fields, and each client's page its copy. -/
structure Refines (c : Culture) (id : ℤ) (s : Site Client) (a : State Client Fields) : Prop where
  stored : ∃ r, s.table.find? id = some r ∧ fields r = a.shared
  pages : ∀ k, Option.Rel (Shows c) (s.pages k) (a.copy k)

omit [DecidableEq Client] in
theorem refines_start {t : RouteTable} {r : Route} (hr : t.find? id = some r) :
    Refines c id (Site.start t : Site Client) ⟨fields r, fun _ => none⟩ :=
  ⟨⟨r, hr, rfl⟩, fun _ => Option.Rel.none⟩

/-- A GET is a `read`. -/
theorem refines_get {s : Site Client} {a : State Client Fields} (h : Refines c id s a)
    (k : Client) :
    Refines c id (handle c runtimeText id changes s (.read k))
      (step (fun i => (changes i).apply) a (.read k)) := by
  obtain ⟨⟨r, hr, hshared⟩, hpages⟩ := h
  have hhandle : handle c runtimeText id changes s (.read k)
      = { s with pages := Function.update s.pages k (some (renderEdit c r)) } := by
    simp only [handle, editGet_stored c hr]
  rw [hhandle, step_read]
  refine ⟨⟨r, hr, hshared⟩, fun i => ?_⟩
  -- only the page and the copy of `k` are new, and they show the same fields
  show Option.Rel (Shows c) (Function.update s.pages k (some (renderEdit c r)) i)
    (Function.update a.copy k (some a.shared) i)
  by_cases hi : i = k
  · rw [hi, Function.update_self, Function.update_self, ← hshared]
    exact Option.Rel.some (shows_renderEdit c r)
  · rw [Function.update_of_ne hi, Function.update_of_ne hi]
    exact hpages i

/-- A POST that reports success is a `write`. -/
theorem refines_post (hround : ∀ d, c.toInt32 (c.int32ToString d) = some d)
    {s : Site Client} {a : State Client Fields} (h : Refines c id s a) (k : Client)
    (hok : ∀ answer ∈ (handle c runtimeText id changes s (.write k)).answers,
      answer = editSuccess) :
    Refines c id (handle c runtimeText id changes s (.write k))
      (step (fun i => (changes i).apply) a (.write k)) := by
  have hk := h.pages k
  cases hpage : s.pages k with
  | none =>
    -- the client has no page to submit, and no copy to write
    rw [hpage] at hk
    have hcopy : a.copy k = none := by
      cases hc : a.copy k with
      | none => rfl
      | some f =>
        rw [hc] at hk
        exact absurd hk (by simp)
    simp only [handle, hpage, step, hcopy]
    exact h
  | some page =>
    obtain ⟨f, hcopy, hshows⟩ : ∃ f, a.copy k = some f ∧ Shows c page f := by
      cases hc : a.copy k with
      | none =>
        rw [hpage, hc] at hk
        exact absurd hk (by simp)
      | some f =>
        rw [hpage, hc] at hk
        cases hk with
        | some hshows => exact ⟨f, rfl, hshows⟩
    obtain ⟨⟨r, hr, -⟩, hpages⟩ := h
    simp only [handle, hpage] at hok ⊢
    have hanswer : (editPost c runtimeText s.table id ((changes k).fillIn page).values).1
        = editSuccess := hok _ (List.mem_append_right _ List.mem_cons_self)
    have hpost : editPost c runtimeText s.table id ((changes k).fillIn page).values
        = (editSuccess, (editPost c runtimeText s.table id ((changes k).fillIn page).values).2) :=
      Prod.ext hanswer rfl
    have hsave := (editPost_success_iff c runtimeText _ _ _ _).mp hpost
    obtain ⟨-, -, -, htable⟩ := saveModified_ok.mp hsave
    rw [step_write _ a hcopy]
    refine ⟨⟨bindRoute c id ((changes k).fillIn page).values, ?_, ?_⟩, hpages⟩
    · rw [htable]
      exact Table.find?_replace_self s.table.toTable
        (bindRoute c id ((changes k).fillIn page).values) hr
    · exact fields_bindRoute hround (changes k) hshows id

/-- A request keeps the answers already given. -/
theorem answers_handle (s : Site Client) (e : Event Client) :
    s.answers <+: (handle c runtimeText id changes s e).answers := by
  cases e with
  | read k =>
    rw [handle]
    cases editGet c s.table id with
    | error e => exact List.prefix_refl _
    | ok page => exact List.prefix_refl _
  | write k =>
    rw [handle]
    cases s.pages k with
    | none => exact List.prefix_refl _
    | some page => exact List.prefix_append _ _

/-- **The server refines the protocol** along every sequence of requests whose
POSTs all report success. The induction is on the requests from the last. -/
theorem refines_serve (hround : ∀ d, c.toInt32 (c.int32ToString d) = some d)
    {s : Site Client} {a : State Client Fields} (h : Refines c id s a) (es : List (Event Client))
    (hok : ∀ answer ∈ (serve c runtimeText id changes s es).answers, answer = editSuccess) :
    Refines c id (serve c runtimeText id changes s es)
      (run (step (fun i => (changes i).apply)) a es) := by
  induction es using List.reverseRecOn with
  | nil => exact h
  | append_singleton es e ih =>
      have hserve : serve c runtimeText id changes s (es ++ [e])
          = handle c runtimeText id changes (serve c runtimeText id changes s es) e :=
        run_append _ s es [e]
      have hrun : run (step (fun i => (changes i).apply)) a (es ++ [e])
          = step (fun i => (changes i).apply) (run (step (fun i => (changes i).apply)) a es) e :=
        run_append _ a es [e]
      rw [hserve] at hok ⊢
      rw [hrun]
      -- the answers only grow, so the earlier POSTs reported success too
      have hbefore := ih (fun answer hmem => hok answer ((answers_handle _ e).subset hmem))
      cases e with
      | read k => exact refines_get hbefore k
      | write k => exact refines_post hround hbefore k hok

end Refinement

/-! ## Two clients -/

/-- **Two clients edit one route, both POSTs report success, and `k`'s comes
last.** The stored fields hold all `k` changed. If `k` opened the form after
`j`'s POST they are both clients' changes on the original ones; in every other
order they are the original ones with `k`'s changes, and what `j` wrote is gone. -/
theorem two_edits {Client : Type} [DecidableEq Client] (c : Culture)
    (runtimeText : ExceptionType → String)
    (hround : ∀ d, c.toInt32 (c.int32ToString d) = some d) (t : RouteTable) (id : ℤ) (r : Route)
    (hr : t.find? id = some r) (changes : Client → Changes c) (j k : Client) (hjk : j ≠ k)
    (es : List (Event Client)) (hes : Shuffle [.read j, .write j] [.read k, .write k] es)
    (hlast : es.getLast? = some (.write k))
    (hok : ∀ answer ∈ (serve c runtimeText id changes (Site.start t) es).answers,
      answer = editSuccess) :
    ∃ r', (serve c runtimeText id changes (Site.start t) es).table.find? id = some r'
      ∧ (changes k).StoredIn (fields r')
      ∧ (es = [.read j, .write j, .read k, .write k] →
          fields r' = (changes k).apply ((changes j).apply (fields r))
            ∧ ((changes j).Apart (changes k) → (changes j).StoredIn (fields r')))
      ∧ (es ≠ [.read j, .write j, .read k, .write k] →
          fields r' = (changes k).apply (fields r)) := by
  obtain ⟨⟨r', hr', hfields⟩, -⟩ := refines_serve hround (refines_start hr) es hok
  rw [shared_two_clients _ _ hjk hes hlast] at hfields
  refine ⟨r', hr', ?_, ?_, ?_⟩
  · rw [hfields]
    split_ifs
    · exact (changes k).storedIn_apply _
    · exact (changes k).storedIn_apply _
  · intro hserial
    rw [if_pos hserial] at hfields
    refine ⟨hfields, fun hapart => ?_⟩
    rw [hfields]
    exact ((changes j).storedIn_apply _).apply hapart
  · intro hoverlap
    rw [if_neg hoverlap] at hfields
    exact hfields

/-- One client renames the route, the other comments on it. -/
def renameAndComment : Bool → Changes exampleCulture
  | false => ⟨some "Ruta Norte", none, none⟩
  | true => ⟨none, none, some "Cerrada"⟩

/-- One after the other, the two edits of the seeded route are both stored. -/
theorem two_edits_in_turn :
    ∃ r', (serve exampleCulture (fun _ => "") 3 renameAndComment (Site.start seedTable)
        [.read false, .write false, .read true, .write true]).table.find? 3 = some r'
      ∧ fields r' = ⟨"Ruta Norte", 10, "Cerrada"⟩ := by
  have hes : Shuffle [Event.read false, Event.write false] [Event.read true, Event.write true]
      [.read false, .write false, .read true, .write true] :=
    .left _ (.left _ (.right _ (.right _ .nil)))
  obtain ⟨r', hr', -, hserial, -⟩ := two_edits exampleCulture (fun _ => "")
    exampleCulture_round seedTable 3 ruta1
    (by decide) renameAndComment false true (by decide) _ hes rfl (by decide +kernel)
  exact ⟨r', hr', (hserial rfl).1⟩

/-- Opened by both before either submits, the form of the second one puts the
old name back, and both are told that the route was modified. -/
theorem overlapping_edits_lose_rename :
    ¬ ∀ (t : RouteTable) (id : ℤ) (r : Route), t.find? id = some r →
      ∀ (changes : Bool → Changes exampleCulture) (es : List (Event Bool)),
        Shuffle [.read false, .write false] [.read true, .write true] es →
        (changes false).Apart (changes true) →
        (∀ answer ∈ (serve exampleCulture (fun _ => "") id changes (Site.start t) es).answers,
          answer = editSuccess) →
        ∀ r', (serve exampleCulture (fun _ => "") id changes (Site.start t) es).table.find? id
            = some r' →
          (changes false).StoredIn (fields r') ∧ (changes true).StoredIn (fields r') := by
  intro h
  have hes : Shuffle [Event.read false, Event.write false] [Event.read true, Event.write true]
      [.read false, .read true, .write false, .write true] :=
    .left _ (.right _ (.left _ (.right _ .nil)))
  have hstored := h seedTable 3 ruta1 (by decide) renameAndComment _ hes
    ⟨Or.inr rfl, Or.inl rfl, Or.inl rfl⟩ (by decide +kernel)
    { Route.default with
      id := 3, created := ruta1.created, name := some "Ruta 1", distance := 10,
      comments := some "Cerrada" } (by decide +kernel)
  exact absurd (hstored.1.name "Ruta Norte" rfl) (by decide)

end CgGuide.EditClients
