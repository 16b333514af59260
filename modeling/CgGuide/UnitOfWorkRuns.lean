/-
Calls of `DefaultRoutesService` that share one unit of work.

The context keeps one object for each key, and `Update` attaches its argument, so what
an update does depends on every object an earlier call left in the tracker. A caller
cannot see the tracker, but it can know what is in it: as long as no save has failed,
the tracked objects are those that earlier calls returned or were given
(`tracks_run`). An update of another object under a key in use throws at `Attach`;
any other update of a stored route succeeds (`update_in_unitOfWork`).

A save that fails leaves its object in the tracker with what it owes the database, and
the saves after it send that again.
-/
import CgGuide.RoutesService
import CgGuide.Runs

set_option autoImplicit false

namespace CgGuide.UnitOfWorkRuns

open CgGuide.DotNet CgGuide.KeyedTable CgGuide.Entities CgGuide.DbContext CgGuide.Repositories
open CgGuide.Program CgGuide.RoutesService CgGuide.Runs UpdatableEntity AppDbContext

/-! ## The state of the tracker -/

/-- Nothing is left to be saved. -/
def Settled (ctx : AppDbContext Route) : Prop := ∀ e ∈ ctx.entries, e.state = .unchanged

/-- Another object is tracked under the key of this one. -/
def TracksOther (ctx : AppDbContext Route) (route : Instance Route) : Prop :=
  ∃ e ∈ ctx.entries, e.entity.ref ≠ route.ref ∧ ID e.entity.value = ID route.value

instance (ctx : AppDbContext Route) (route : Instance Route) :
    Decidable (TracksOther ctx route) :=
  inferInstanceAs (Decidable (∃ e ∈ ctx.entries, _))

/-- The entries of the other objects. -/
def others (ctx : AppDbContext Route) (route : Instance Route) : List (Entry Route) :=
  ctx.entries.filter (fun e => decide (e.entity.ref ≠ route.ref))

theorem mem_others {ctx : AppDbContext Route} {route : Instance Route} {e : Entry Route} :
    e ∈ others ctx route ↔ e ∈ ctx.entries ∧ e.entity.ref ≠ route.ref := by
  simp [others]

/-- `Update` of an object whose key another one has. -/
theorem update_throws {ctx : AppDbContext Route} {route : Instance Route}
    (h : TracksOther ctx route) :
    (GenericUpdatableRepository.update route).run ctx
      = .error { type := .invalidOperation } ctx := by
  obtain ⟨e, he, hother, hkey⟩ := h
  have hany : ctx.entries.any (fun e => decide (e.entity.ref ≠ route.ref
      ∧ ID e.entity.value = ID route.value)) = true :=
    List.any_eq_true.mpr ⟨e, he, decide_eq_true ⟨hother, hkey⟩⟩
  simp only [GenericUpdatableRepository.update, attach, EStateM.run_bind, EStateM.run_get, hany,
    if_true, run_throw]

/-- Any other `Update` leaves its argument tracked, as modified. -/
theorem update_run {ctx : AppDbContext Route} {route : Instance Route}
    (h : ¬ TracksOther ctx route) :
    (GenericUpdatableRepository.update route).run ctx
      = .ok () { ctx with entries := others ctx route ++ [⟨route, .modified⟩] } := by
  have hany : ctx.entries.any (fun e => decide (e.entity.ref ≠ route.ref
      ∧ ID e.entity.value = ID route.value)) = false := by
    rw [List.any_eq_false]
    intro e he hmatch
    exact h ⟨e, he, of_decide_eq_true hmatch⟩
  have hothers : (others ctx route).map (fun e : Entry Route =>
      if e.entity.ref = route.ref then { e with state := .modified } else e)
        = others ctx route := by
    refine (List.map_congr_left (g := id) fun e he => ?_).trans (List.map_id _)
    exact if_neg (mem_others.mp he).2
  have hattach : (attach route).run ctx
      = .ok () { ctx with entries := others ctx route ++ [⟨route, .unchanged⟩] } := by
    simp only [attach, EStateM.run_bind, EStateM.run_get, hany]
    rfl
  rw [GenericUpdatableRepository.update, EStateM.run_bind, hattach]
  simp only [setEntryState, EStateM.run_modify, List.map_append, hothers, List.map_singleton,
    if_true]

/-! ## One call -/

theorem settled_others {ctx : AppDbContext Route} (h : Settled ctx) (route : Instance Route) :
    ∀ e ∈ others ctx route, e.state = .unchanged :=
  fun e he => h e (mem_others.mp he).1

theorem saveChanges_run (ctx : AppDbContext Route) :
    saveChanges.run ctx
      = if ctx.entries.any (fun e => Saved e && !validates e.entity.value) then
          .error { type := .dbEntityValidation } ctx
        else match flush ctx.table ctx.entries with
          | .error x => .error x ctx
          | .ok p => .ok () { ctx with table := p.1, entries := p.2 } := by
  unfold saveChanges
  rw [EStateM.run_bind, EStateM.run_get]
  dsimp only
  split
  · rfl
  · cases flush ctx.table ctx.entries with
    | error x => rfl
    | ok p => rfl

/-- A save of one object among settled ones. -/
theorem saveChanges_settled {es : List (Entry Route)} (hes : ∀ e ∈ es, e.state = .unchanged)
    {e : Entry Route} (he : Saved e = true) (t : RouteTable) (n : ℕ) :
    outcome saveChanges ⟨t, es ++ [e], n⟩
      = if validates e.entity.value = false then
          (.error { type := .dbEntityValidation }, ⟨t, es ++ [e], n⟩)
        else match flushEntry t e with
          | .error x => (.error x, ⟨t, es ++ [e], n⟩)
          | .ok p => (.ok (), ⟨p.1, es ++ p.2.toList, n⟩) := by
  have hany : (es ++ [e]).any (fun e => Saved e && !validates e.entity.value)
      = !validates e.entity.value := by
    have hnone : es.any (fun e => Saved e && !validates e.entity.value) = false := by
      rw [List.any_eq_false]
      intro e' he'
      simp [Saved, hes e' he']
    rw [List.any_append, hnone, Bool.false_or, List.any_cons, he]
    simp
  have hflush : flush t (es ++ [e])
      = (flushEntry t e).map (fun p => (p.1, es ++ p.2.toList)) := by
    rw [flush_append, flush_unchanged hes]
    show (flush t [e]).map _ = _
    rw [flush_singleton]
    cases flushEntry t e with
    | error x => rfl
    | ok p => rfl
  rw [outcome, saveChanges_run]
  dsimp only
  rw [hany, hflush]
  by_cases hvalid : validates e.entity.value = true
  · rw [if_neg (by simp [hvalid]), if_neg (by simp [hvalid])]
    cases flushEntry t e with
    | error x => rfl
    | ok p => rfl
  · rw [if_pos (by simpa using hvalid), if_pos (by simpa using hvalid)]

/-- **`Update`** in a settled context, of an object whose key no other one has: the row
is rewritten and the object tracked, or the object is left to be saved. -/
theorem update_settled {ctx : AppDbContext Route} (hctx : Settled ctx) {route : Instance Route}
    (h : ¬ TracksOther ctx route) :
    outcome (DefaultRoutesService.update route) ctx
      = match saveModified ctx.table route.value with
        | .error x => (.error x, { ctx with entries := others ctx route ++ [⟨route, .modified⟩] })
        | .ok t => (.ok (), { ctx with
            table := t
            entries := others ctx route ++ [⟨route, .unchanged⟩] }) := by
  have hsave := saveChanges_settled (settled_others hctx route)
    (e := ⟨route, .modified⟩) rfl ctx.table ctx.nextRef
  rw [DefaultRoutesService.update, outcome_bind_ok (update_run h), UnitOfWork.save, hsave]
  unfold saveModified flushEntry
  dsimp only
  by_cases hvalid : validates route.value = false
  · rw [if_pos hvalid, if_pos hvalid]
  · rw [if_neg hvalid, if_neg hvalid]
    by_cases haccept : columnsAccept route.value = true
    · rw [if_pos haccept, if_neg (by simp [haccept])]
      cases ctx.table.find? (ID route.value) with
      | none => rfl
      | some row => rfl
    · rw [if_neg haccept, if_pos (by simpa using haccept)]

/-- **`Add`** in a settled context: the object is stored and tracked under the next
identity, or it is left to be saved. -/
theorem add_settled {ctx : AppDbContext Route} (hctx : Settled ctx) (route : Instance Route) :
    outcome (DefaultRoutesService.add route) ctx
      = match saveAdded ctx.table route.value with
        | .error x => (.error x, { ctx with entries := others ctx route ++ [⟨route, .added⟩] })
        | .ok t => (.ok (), { ctx with
            table := t
            entries := others ctx route
              ++ [⟨⟨route.ref, withID ctx.table.next route.value⟩, .unchanged⟩] }) := by
  have hinsert : (GenericUpdatableRepository.insert route).run ctx
      = .ok () { ctx with entries := others ctx route ++ [⟨route, .added⟩] } := rfl
  have hsave := saveChanges_settled (settled_others hctx route)
    (e := ⟨route, .added⟩) rfl ctx.table ctx.nextRef
  rw [DefaultRoutesService.add, outcome_bind_ok hinsert, UnitOfWork.save, hsave]
  unfold saveAdded flushEntry
  dsimp only
  by_cases hvalid : validates route.value = false
  · rw [if_pos hvalid, if_pos hvalid]
  · rw [if_neg hvalid, if_neg hvalid]
    by_cases haccept : columnsAccept route.value = true
    · rw [if_pos haccept, if_neg (by simp [haccept])]
      rfl
    · rw [if_neg haccept, if_pos (by simpa using haccept)]

/-- The statement of a modified object writes it. -/
theorem flushEntry_modified {t : RouteTable} {route : Instance Route}
    {p : RouteTable × Option (Entry Route)} (h : flushEntry t ⟨route, .modified⟩ = .ok p) :
    p.1.find? (ID route.value) = some route.value := by
  unfold flushEntry at h
  dsimp only at h
  split at h
  · cases hrow : t.find? (ID route.value) with
    | none =>
      rw [hrow] at h
      exact absurd h (by simp)
    | some row =>
      rw [hrow] at h
      rw [← Except.ok.inj h]
      exact Table.find?_replace_self t.toTable route.value hrow
  · exact absurd h (by simp)

/-- **An `Update` that returns**, in whatever context, has stored its argument. -/
theorem update_returns {ctx ctx' : AppDbContext Route} {route : Instance Route}
    (h : outcome (DefaultRoutesService.update route) ctx = (.ok (), ctx')) :
    ctx'.table.find? (ID route.value) = some route.value := by
  by_cases hother : TracksOther ctx route
  · rw [DefaultRoutesService.update, outcome_bind_error (update_throws hother)] at h
    exact absurd (congrArg Prod.fst h) (by simp)
  · rw [DefaultRoutesService.update, outcome_bind_ok (update_run hother), UnitOfWork.save, outcome,
      saveChanges_run] at h
    dsimp only at h
    split at h
    · next a s' hrun =>
      split at hrun
      · exact absurd hrun (by simp)
      · -- the argument is the last entry, and its statement the last one of the save
        rw [flush_append] at hrun
        cases hothers : flush ctx.table (others ctx route) with
        | error x => simp [hothers, Except.bind] at hrun
        | ok p =>
          rw [hothers] at hrun
          dsimp only [Except.bind] at hrun
          rw [flush_singleton] at hrun
          cases hentry : flushEntry p.1 ⟨route, .modified⟩ with
          | error x => simp [hentry, Except.map] at hrun
          | ok q =>
            simp only [hentry, Except.map, EStateM.Result.ok.injEq] at hrun
            have hctx : s' = ctx' := congrArg Prod.snd h
            rw [← hctx, ← hrun.2]
            exact flushEntry_modified hentry
    · exact absurd (congrArg Prod.fst h) (by simp)

/-! ## A run of calls -/

/-- A call of the service on the shared unit of work. -/
inductive RoutesCall
  | getById (routeId : ℤ)
  | getAll (order : RowOrder Route)
  | add (route : Instance Route)
  | update (route : Instance Route)

/-- The caller's object as the framework has left it. -/
def asTracked (route : Instance Route) : Call Route (List (Instance Route)) := do
  let ctx ← get
  return (ctx.entries.map Entry.entity).filter (fun o => decide (o.ref = route.ref))

/-- The call, and the objects its caller then holds. -/
def RoutesCall.program : RoutesCall → Call Route (List (Instance Route))
  | .getById routeId => do
    let route ← DefaultRoutesService.getById routeId
    return route.toList
  | .getAll order => DefaultRoutesService.getAll order
  | .add route => do
    DefaultRoutesService.add route
    asTracked route
  | .update route => do
    DefaultRoutesService.update route
    asTracked route

/-- The unit of work beside what its caller knows: the objects it holds, each with its
`ID`, and whether a save has failed. -/
structure Session where
  context : AppDbContext Route
  inUse : ℕ → Option ℤ
  saveFailed : Bool

/-- A new unit of work; the caller's own objects are those below `n`. -/
def Session.new (t : RouteTable) (n : ℕ) : Session where
  context := AppDbContext.new t n
  inUse := fun _ => none
  saveFailed := false

/-- The caller holds one more object. -/
def hold (inUse : ℕ → Option ℤ) (o : Instance Route) : ℕ → Option ℤ :=
  fun ref => if ref = o.ref then some (ID o.value) else inUse ref

/-- The session after a call. `Attach` throws before anything is saved. -/
def call (s : Session) (c : RoutesCall) : Session :=
  match outcome c.program s.context with
  | (.ok objects, ctx) => { s with context := ctx, inUse := objects.foldl hold s.inUse }
  | (.error e, ctx) => { s with
      context := ctx
      saveFailed := s.saveFailed || e.type != .invalidOperation }

/-- The object passed exists. -/
def ObjectExists (s : Session) : RoutesCall → Prop
  | .add route => route.ref < s.context.nextRef
  | .update route => route.ref < s.context.nextRef
  | _ => True

/-- What the caller knows is what is tracked. -/
structure Tracks (ctx : AppDbContext Route) (inUse : ℕ → Option ℤ) : Prop where
  settled : Settled ctx
  ref_lt : ∀ e ∈ ctx.entries, e.entity.ref < ctx.nextRef
  inUse : ∀ ref id, inUse ref = some id
    ↔ ∃ e ∈ ctx.entries, e.entity.ref = ref ∧ ID e.entity.value = id

/-- An object that is tracked in the place of itself or as a new one is held. -/
theorem Tracks.track {ctx ctx' : AppDbContext Route} {inUse : ℕ → Option ℤ}
    (h : Tracks ctx inUse) {o : Instance Route}
    (hentries : ctx'.entries = others ctx o ++ [⟨o, .unchanged⟩])
    (hnext : ctx.nextRef ≤ ctx'.nextRef) (ho : o.ref < ctx'.nextRef) :
    Tracks ctx' (hold inUse o) := by
  refine ⟨?_, ?_, ?_⟩
  · intro e he
    rw [hentries, List.mem_append, List.mem_singleton] at he
    rcases he with he | rfl
    · exact h.settled e (mem_others.mp he).1
    · rfl
  · intro e he
    rw [hentries, List.mem_append, List.mem_singleton] at he
    rcases he with he | rfl
    · exact Nat.lt_of_lt_of_le (h.ref_lt e (mem_others.mp he).1) hnext
    · exact ho
  · intro ref id
    rw [hentries]
    simp only [List.mem_append, List.mem_singleton, hold]
    by_cases href : ref = o.ref
    · -- under its own reference only the object itself is tracked
      rw [if_pos href, Option.some.injEq]
      constructor
      · rintro rfl
        exact ⟨_, Or.inr rfl, href.symm, rfl⟩
      · rintro ⟨e, he | rfl, heref, hid⟩
        · exact absurd (heref.trans href) (mem_others.mp he).2
        · exact hid
    · rw [if_neg href, h.inUse]
      constructor
      · rintro ⟨e, he, heref, hid⟩
        exact ⟨e, Or.inl (mem_others.mpr ⟨he, fun hne => href (heref.symm.trans hne)⟩), heref, hid⟩
      · rintro ⟨e, he | rfl, heref, hid⟩
        · exact ⟨e, (mem_others.mp he).1, heref, hid⟩
        · exact absurd heref.symm href

/-- A tracked object is held already. -/
theorem Tracks.hold_eq {ctx : AppDbContext Route} {inUse : ℕ → Option ℤ} (h : Tracks ctx inUse)
    {e : Entry Route} (he : e ∈ ctx.entries) : hold inUse e.entity = inUse := by
  funext ref
  unfold hold
  by_cases href : ref = e.entity.ref
  · rw [if_pos href, (h.inUse ref (ID e.entity.value)).mpr ⟨e, he, href.symm, rfl⟩]
  · rw [if_neg href]

/-! ## Reads -/

/-- What a read does to the tracker: it tracks what it returns. -/
def Reads (ctx : AppDbContext Route) (inUse : ℕ → Option ℤ) (os : List (Instance Route))
    (ctx' : AppDbContext Route) : Prop :=
  Tracks ctx' (os.foldl hold inUse) ∧ ctx'.table = ctx.table ∧ ctx.nextRef ≤ ctx'.nextRef

theorem tracks_materialize {ctx : AppDbContext Route} {inUse : ℕ → Option ℤ}
    (h : Tracks ctx inUse) (row : Route) :
    ∃ o ctx', (materialize row).run ctx = .ok o ctx' ∧ Reads ctx inUse [o] ctx' := by
  cases hfind : ctx.entries.find? (fun e => decide (ID e.entity.value = ID row)) with
  | some e =>
    have hmem := List.mem_of_find?_eq_some hfind
    refine ⟨e.entity, ctx, ?_, ?_, rfl, Nat.le_refl _⟩
    · simp only [materialize, EStateM.run_bind, EStateM.run_get, hfind, EStateM.run_pure]
    · rw [List.foldl_cons, List.foldl_nil, h.hold_eq hmem]
      exact h
  | none =>
    have hrun := materialize_run ctx row
      (fun e he heq => List.find?_eq_none.mp hfind e he (decide_eq_true heq))
    refine ⟨_, _, hrun, ?_, rfl, Nat.le_succ _⟩
    have hnew : others ctx ⟨ctx.nextRef, row⟩ = ctx.entries := by
      rw [others, List.filter_eq_self]
      intro e he
      exact decide_eq_true (Nat.ne_of_lt (h.ref_lt e he))
    exact h.track (by rw [hnew]) (Nat.le_succ _) (Nat.lt_succ_self _)

theorem tracks_toList (rows : List Route) {ctx : AppDbContext Route} {inUse : ℕ → Option ℤ}
    (h : Tracks ctx inUse) :
    ∃ os ctx', (toList rows).run ctx = .ok os ctx' ∧ Reads ctx inUse os ctx' := by
  induction rows generalizing ctx inUse with
  | nil => exact ⟨[], ctx, rfl, h, rfl, Nat.le_refl _⟩
  | cons row rows ih =>
    obtain ⟨o, ctx₁, hrow, htracks, htable, hnext⟩ := tracks_materialize h row
    obtain ⟨os, ctx₂, hrows, htracks', htable', hnext'⟩ := ih htracks
    refine ⟨o :: os, ctx₂, ?_, htracks', htable'.trans htable, Nat.le_trans hnext hnext'⟩
    simp only [toList, EStateM.run_bind, hrow, hrows, EStateM.run_pure]

theorem tracks_find {ctx : AppDbContext Route} {inUse : ℕ → Option ℤ} (h : Tracks ctx inUse)
    (id : ℤ) :
    ∃ o ctx', (find id).run ctx = .ok o ctx' ∧ Reads ctx inUse o.toList ctx' := by
  cases hfind : ctx.entries.find? (fun e => decide (ID e.entity.value = id)) with
  | some e =>
    have hmem := List.mem_of_find?_eq_some hfind
    refine ⟨some e.entity, ctx, ?_, ?_, rfl, Nat.le_refl _⟩
    · simp only [find, EStateM.run_bind, EStateM.run_get, hfind, EStateM.run_pure]
    · rw [Option.toList_some, List.foldl_cons, List.foldl_nil, h.hold_eq hmem]
      exact h
  | none =>
    cases hrow : ctx.table.find? id with
    | none =>
      refine ⟨none, ctx, ?_, h, rfl, Nat.le_refl _⟩
      simp only [find, EStateM.run_bind, EStateM.run_get, hfind, hrow, EStateM.run_pure]
    | some row =>
      obtain ⟨o, ctx', hrun, hreads⟩ := tracks_materialize h row
      refine ⟨some o, ctx', ?_, hreads⟩
      simp only [find, EStateM.run_bind, EStateM.run_get, hfind, hrow, hrun, EStateM.run_pure]

/-! ## The tracker in a run -/

theorem saveModified_error {t : RouteTable} {r : Route} {x : Exception}
    (h : saveModified t r = .error x) : x.type ≠ .invalidOperation := by
  unfold saveModified at h
  split at h
  · rw [← Except.error.inj h]
    decide
  · split at h
    · rw [← Except.error.inj h]
      decide
    · split at h
      · rw [← Except.error.inj h]
        decide
      · exact absurd h (by simp)

theorem saveAdded_error {t : RouteTable} {r : Route} {x : Exception}
    (h : saveAdded t r = .error x) : x.type ≠ .invalidOperation := by
  unfold saveAdded at h
  split at h
  · rw [← Except.error.inj h]
    decide
  · split at h
    · rw [← Except.error.inj h]
      decide
    · exact absurd h (by simp)

theorem call_ok {s : Session} {c : RoutesCall} {objects : List (Instance Route)}
    {ctx : AppDbContext Route} (h : outcome c.program s.context = (.ok objects, ctx)) :
    call s c = { s with context := ctx, inUse := objects.foldl hold s.inUse } := by
  simp only [call, h]

/-- A call that fails to save is remembered. -/
theorem call_error {s : Session} {c : RoutesCall} {x : Exception}
    (h : (outcome c.program s.context).1 = .error x) (hx : x.type ≠ .invalidOperation) :
    (call s c).saveFailed = true := by
  have htype : (x.type != .invalidOperation) = true := bne_iff_ne.mpr hx
  have hpair : outcome c.program s.context = (.error x, (outcome c.program s.context).2) :=
    Prod.ext h rfl
  rw [call, hpair]
  simp only [htype, Bool.or_true]

/-- The object a caller holds after its object was saved. -/
theorem outcome_asTracked {ctx ctx' : AppDbContext Route} {route o : Instance Route}
    (hentries : ctx'.entries = others ctx route ++ [⟨o, .unchanged⟩]) (href : o.ref = route.ref) :
    outcome (asTracked route) ctx' = (.ok [o], ctx') := by
  have hnone : ((others ctx route).map Entry.entity).filter
      (fun o => decide (o.ref = route.ref)) = [] := by
    rw [List.filter_eq_nil_iff]
    intro o' ho'
    obtain ⟨e, he, rfl⟩ := List.mem_map.mp ho'
    simpa using (mem_others.mp he).2
  apply outcome_eq_of_run_ok
  simp only [asTracked, EStateM.run_bind, EStateM.run_get, EStateM.run_pure, hentries,
    List.map_append, List.filter_append, hnone, List.nil_append, List.map_singleton, href,
    decide_true, List.filter_cons_of_pos, List.filter_nil]

/-- A call that saves its argument keeps what the caller knows, unless it fails. -/
theorem tracks_save {s : Session} {c : RoutesCall} {x : Call Route Unit} {route o : Instance Route}
    {result : Except Exception RouteTable} {left : AppDbContext Route}
    (hprogram : c.program = (do
      x
      asTracked route))
    (hrun : outcome x s.context = match result with
      | .error e => (.error e, left)
      | .ok t => (.ok (), { s.context with
          table := t
          entries := others s.context route ++ [⟨o, .unchanged⟩] }))
    (hresult : ∀ e, result = .error e → e.type ≠ .invalidOperation) (href : o.ref = route.ref)
    (hobject : route.ref < s.context.nextRef) (h : Tracks s.context s.inUse)
    (hsaved : (call s c).saveFailed = false) : Tracks (call s c).context (call s c).inUse := by
  cases result with
  | error e =>
    have hfailed : (call s c).saveFailed = true := by
      refine call_error ?_ (hresult e rfl)
      rw [hprogram, outcome_bind, hrun]
    rw [hfailed] at hsaved
    exact absurd hsaved (by decide)
  | ok t =>
    have houtcome : outcome c.program s.context
        = (.ok [o], { s.context with
            table := t
            entries := others s.context route ++ [⟨o, .unchanged⟩] }) := by
      rw [hprogram, outcome_bind, hrun]
      exact @outcome_asTracked s.context _ route o rfl href
    have hothers : others s.context route = others s.context o := by
      rw [others, others, href]
    rw [call_ok houtcome]
    refine h.track ?_ (Nat.le_refl _) (by rw [href]; exact hobject)
    rw [hothers]

/-- **One call** keeps what the caller knows of the tracker. -/
theorem tracks_call {s : Session} {c : RoutesCall} (hobject : ObjectExists s c)
    (h : Tracks s.context s.inUse) (hsaved : (call s c).saveFailed = false) :
    Tracks (call s c).context (call s c).inUse := by
  cases c with
  | getById routeId =>
    obtain ⟨o, ctx', hrun, htracks, -⟩ := tracks_find h routeId
    have houtcome : outcome (RoutesCall.getById routeId).program s.context
        = (.ok o.toList, ctx') := by
      rw [RoutesCall.program, DefaultRoutesService.getById, GenericUpdatableRepository.getByID,
        outcome_bind_ok hrun]
      rfl
    rw [call_ok houtcome]
    exact htracks
  | getAll order =>
    obtain ⟨os, ctx', hrun, htracks, -⟩ := tracks_toList
      (RoutesRepository.orderByDescendingCreated
        (order.arrange (GenericUpdatableRepository.live s.context.table))) h
    have houtcome : outcome (RoutesCall.getAll order).program s.context = (.ok os, ctx') :=
      outcome_eq_of_run_ok hrun
    rw [call_ok houtcome]
    exact htracks
  | add route =>
    exact tracks_save rfl (add_settled h.settled route) (fun _ => saveAdded_error) rfl hobject h
      hsaved
  | update route =>
    by_cases hother : TracksOther s.context route
    · have houtcome : outcome (RoutesCall.update route).program s.context
          = (.error { type := .invalidOperation }, s.context) := by
        rw [RoutesCall.program, DefaultRoutesService.update, outcome_bind,
          outcome_bind_error (update_throws hother)]
      -- `Attach` threw, and nothing has changed
      simp only [call, houtcome]
      exact h
    · exact tracks_save rfl (update_settled h.settled hother) (fun _ => saveModified_error) rfl
        hobject h hsaved

/-- **The tracker of a run**: as long as no save has failed, the tracked objects are
those that the calls returned or were given, and nothing is left to be saved. -/
theorem tracks_run (t : RouteTable) (n : ℕ) {cs : List RoutesCall}
    (hcs : Guarded call ObjectExists (Session.new t n) cs)
    (hsaved : (run call (Session.new t n) cs).saveFailed = false) :
    Tracks (run call (Session.new t n) cs).context (run call (Session.new t n) cs).inUse := by
  have hstart : Tracks (Session.new t n).context (Session.new t n).inUse :=
    ⟨fun e he => absurd he List.not_mem_nil, fun e he => absurd he List.not_mem_nil,
      fun ref id => by simp [Session.new, AppDbContext.new]⟩
  have hstep : ∀ s c, (s.saveFailed = false → Tracks s.context s.inUse) → ObjectExists s c →
      (call s c).saveFailed = false → Tracks (call s c).context (call s c).inUse := by
    intro s c h hobject hsaved
    refine tracks_call hobject (h ?_) hsaved
    -- a save that has failed stays remembered
    unfold call at hsaved
    split at hsaved
    · exact hsaved
    · exact (Bool.or_eq_false_iff.mp hsaved).1
  have hend : (run call (Session.new t n) cs).saveFailed = false →
      Tracks (run call (Session.new t n) cs).context (run call (Session.new t n) cs).inUse :=
    @invariant_run _ _ call ObjectExists
      (fun s => s.saveFailed = false → Tracks s.context s.inUse) hstep cs _ (fun _ => hstart) hcs
  exact hend hsaved

end CgGuide.UnitOfWorkRuns
