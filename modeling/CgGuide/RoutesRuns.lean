/-
Runs of the routes service: which routes its reads return after any sequence of
`Add`, `Update` and `Delete`, each call in a unit of work of its own.

The reads agree with one another by construction (`getAll_perm_list`): `GetAll`
and `List` filter on the same flag, and the order of `GetAll` is a sort of the
same rows. What the reads return after a `Delete` is another matter. `Delete` is
`Update`, so it stores its argument, flag included, and the route is gone from
the reads exactly when the caller has set the flag (`delete_unread_iff`).
-/
import CgGuide.RoutesService

set_option autoImplicit false

namespace CgGuide.RoutesRuns

open CgGuide.DotNet CgGuide.KeyedTable CgGuide.Entities CgGuide.DbContext CgGuide.Repositories
open CgGuide.RoutesService UpdatableEntity AppDbContext

/-! ## Runs -/

/-- A call that may write. -/
inductive ServiceCall
  | add (route : Route)
  | update (route : Route)
  | delete (route : Route)

/-- One call in its own unit of work: its outcome and the table it leaves. -/
def ServiceCall.run (t : RouteTable) : ServiceCall → Except Exception Unit × RouteTable
  | .add route => inUnitOfWork t (DefaultRoutesService.add (argument route))
  | .update route => inUnitOfWork t (DefaultRoutesService.update (argument route))
  | .delete route => inUnitOfWork t (DefaultRoutesService.delete (argument route))

/-- The table a sequence of calls leaves. A call that throws is followed by the
next one all the same. -/
def runCalls (t : RouteTable) : List ServiceCall → RouteTable
  | [] => t
  | c :: cs => runCalls (c.run t).2 cs

/-! ## The reads of one table -/

/-- No read returns the route as a live one. -/
structure Unread (t : RouteTable) (id : ℤ) : Prop where
  getAll : ∀ o rows, getAllRoutes t o = .ok rows → ∀ r ∈ rows, r.id ≠ id
  list : ∀ o rows, listRoutes t o = .ok rows → ∀ r ∈ rows, r.id ≠ id
  getById : ∀ r, getRouteById t id = .ok (some r) → r.isDeleted = true

/-- All three reads turn on the stored flag. -/
theorem unread_iff (t : RouteTable) (id : ℤ) :
    Unread t id ↔ ∀ r, t.find? id = some r → r.isDeleted = true := by
  constructor
  · intro h r hr
    exact h.getById r (by rw [getRouteById_eq, hr])
  · intro h
    -- a live row with this id would be the stored one, and that one is deleted
    have hlive : ∀ r ∈ GenericUpdatableRepository.live t, r.id ≠ id := by
      intro r hr heq
      obtain ⟨hfind, hflag⟩ := (mem_live t r).mp hr
      rw [heq] at hfind
      rw [h r hfind] at hflag
      exact Bool.noConfusion hflag
    refine ⟨?_, ?_, ?_⟩
    · intro o rows hrows r hr
      rw [getAllRoutes_eq, Except.ok.injEq] at hrows
      rw [← hrows, RoutesRepository.orderByDescendingCreated, List.mem_mergeSort] at hr
      exact hlive r ((arrange_live_perm t o).mem_iff.mp hr)
    · intro o rows hrows r hr
      rw [listRoutes_eq, Except.ok.injEq] at hrows
      rw [← hrows] at hr
      exact hlive r ((arrange_live_perm t o).mem_iff.mp hr)
    · intro r hr
      rw [getRouteById_eq, Except.ok.injEq] at hr
      exact h r hr

/-- In every table, `GetAll` is a reordering of `List` with `Created`
non-increasing, whatever order the engine gave either of them. -/
theorem getAll_perm_list (t : RouteTable) (o o' : RowOrder Route) :
    ∃ rows rows', getAllRoutes t o = .ok rows ∧ listRoutes t o' = .ok rows' ∧ rows.Perm rows'
      ∧ rows.Pairwise (fun a b => b.created ≤ a.created) := by
  refine ⟨_, _, getAllRoutes_eq t o, listRoutes_eq t o', ?_, orderByDescendingCreated_sorted _⟩
  have hsort := List.mergeSort_perm (o.arrange (GenericUpdatableRepository.live t))
    (fun a b => decide (b.created ≤ a.created))
  exact (hsort.trans (arrange_live_perm t o)).trans (arrange_live_perm t o').symm

/-! ## One call -/

/-- What a `Delete` that returns normally did: it rewrote the stored row with
its argument. -/
theorem delete_ok {t t' : RouteTable} {r : Route}
    (h : (ServiceCall.delete r).run t = (.ok (), t')) : t' = t.replace r := by
  rw [ServiceCall.run, delete_spec] at h
  cases hs : saveModified t r with
  | error e => simp [saveResult, hs] at h
  | ok t₁ =>
    have ht : t₁ = t' := by simpa [saveResult, hs] using h
    rw [← ht]
    exact (saveModified_ok.mp hs).2.2.2

/-- **Frame.** A call writes no row but the one its argument names; the row an
`Add` writes is a new one. -/
theorem run_find?_of_ne (t : RouteTable) (c : ServiceCall) {id : ℤ} {x : Route}
    (hx : t.find? id = some x)
    (hc : ∀ r, c = .update r ∨ c = .delete r → r.id ≠ id) :
    (c.run t).2.find? id = some x := by
  have hmod : ∀ r : Route, r.id ≠ id → (saveResult t (saveModified t r)).2.find? id = some x := by
    intro r hr
    cases hs : saveModified t r with
    | error e => simpa [saveResult] using hx
    | ok t' =>
      obtain ⟨-, -, -, rfl⟩ := saveModified_ok.mp hs
      have hne : id ≠ ID r := Ne.symm hr
      rw [saveResult, IdentityTable.toTable_replace, Table.find?_replace_of_ne _ _ hne]
      exact hx
  cases c with
  | add r =>
    rw [ServiceCall.run, add_spec]
    unfold saveAdded
    split_ifs
    · exact hx
    · exact hx
    · -- the new row is stored under an identity above every stored one
      have hlt := t.lt_next_of_find? hx
      rw [saveResult, IdentityTable.find?_insertNew_of_ne _ _ _ (by omega)]
      exact hx
  | update r =>
    rw [ServiceCall.run, update_spec]
    exact hmod r (hc r (Or.inl rfl))
  | delete r =>
    rw [ServiceCall.run, delete_spec]
    exact hmod r (hc r (Or.inr rfl))

/-! ## What a `Delete` hides -/

/-- A `Delete` of a stored route that returns normally: right after it the route
is unread exactly when the argument carried the flag, and no other route has
moved. -/
theorem delete_unread_iff {t t' : RouteTable} {r old : Route} (hold : t.find? r.id = some old)
    (h : (ServiceCall.delete r).run t = (.ok (), t')) :
    (Unread t' r.id ↔ r.isDeleted = true) ∧ ∀ id, id ≠ r.id → t'.find? id = t.find? id := by
  obtain rfl := delete_ok h
  have hself : (t.replace r).find? r.id = some r := Table.find?_replace_self t.toTable r hold
  constructor
  · rw [unread_iff, hself]
    simp
  · intro id hid
    have hne : id ≠ ID r := hid
    exact Table.find?_replace_of_ne t.toTable r hne

/-- The flag a call would store for a route, if it names that route. -/
def ServiceCall.KeepsDeleted (id : ℤ) (c : ServiceCall) : Prop :=
  ∀ r, c = .update r ∨ c = .delete r → r.id = id → r.isDeleted = true

/-- A deleted route stays deleted through calls that do not store it live
again. The induction is on the calls; what it carries is the stored flag. -/
theorem runCalls_keeps_deleted (id : ℤ) (cs : List ServiceCall) :
    ∀ (t : RouteTable) (x : Route), t.find? id = some x → x.isDeleted = true →
      (∀ c ∈ cs, c.KeepsDeleted id) →
      ∃ y, (runCalls t cs).find? id = some y ∧ y.isDeleted = true := by
  induction cs with
  | nil => exact fun t x hx hflag _ => ⟨x, hx, hflag⟩
  | cons c cs ih =>
      intro t x hx hflag hcs
      have hkeep : c.KeepsDeleted id := hcs c List.mem_cons_self
      have hstep : ∃ y, (c.run t).2.find? id = some y ∧ y.isDeleted = true := by
        by_cases hname : ∀ r, c = .update r ∨ c = .delete r → r.id ≠ id
        · exact ⟨x, run_find?_of_ne t c hx hname, hflag⟩
        · -- the call names this route: it stores its argument or nothing
          push Not at hname
          obtain ⟨r, hc, hid⟩ := hname
          have hrun : (c.run t).2 = (saveResult t (saveModified t r)).2 := by
            rcases hc with rfl | rfl
            · rw [ServiceCall.run, update_spec]
            · rw [ServiceCall.run, delete_spec]
          cases hs : saveModified t r with
          | error e => exact ⟨x, by rw [hrun, hs]; exact hx, hflag⟩
          | ok t' =>
            obtain ⟨-, -, ⟨old, hold⟩, rfl⟩ := saveModified_ok.mp hs
            refine ⟨r, ?_, hkeep r hc hid⟩
            rw [hrun, hs, ← hid]
            exact Table.find?_replace_self t.toTable r hold
      obtain ⟨y, hy, hyflag⟩ := hstep
      exact ih _ y hy hyflag (fun c' hc' => hcs c' (List.mem_cons_of_mem _ hc'))

/-! ## Whole runs -/

/-- **Deletes in a run, and the reads of every state it reaches.** For a
`Delete` of a stored route that returns normally, anywhere in a run from any
table: no read returns the route and every other row is as it was, exactly when
the caller had set `IsDeleted`; and then the route stays unread until a later
call stores it live again. In every state of the run `GetAll` is `List`
reordered by falling `Created`. -/
theorem run_reads (t₀ : RouteTable) (cs : List ServiceCall) :
    (∀ pre r post, cs = pre ++ .delete r :: post →
      ∀ old t', (runCalls t₀ pre).find? r.id = some old →
        (ServiceCall.delete r).run (runCalls t₀ pre) = (.ok (), t') →
          ((Unread t' r.id ∧ ∀ id, id ≠ r.id → t'.find? id = (runCalls t₀ pre).find? id)
            ↔ r.isDeleted = true)
          ∧ (r.isDeleted = true → (∀ c ∈ post, c.KeepsDeleted r.id) →
              Unread (runCalls t' post) r.id))
    ∧ ∀ pre, pre <+: cs → ∀ o o', ∃ rows rows',
        getAllRoutes (runCalls t₀ pre) o = .ok rows ∧ listRoutes (runCalls t₀ pre) o' = .ok rows'
          ∧ rows.Perm rows' ∧ rows.Pairwise (fun a b => b.created ≤ a.created) := by
  refine ⟨?_, fun pre _ o o' => getAll_perm_list (runCalls t₀ pre) o o'⟩
  intro pre r post _ old t' hold hrun
  obtain ⟨hunread, hframe⟩ := delete_unread_iff hold hrun
  refine ⟨⟨fun h => hunread.mp h.1, fun h => ⟨hunread.mpr h, hframe⟩⟩, ?_⟩
  intro hflag hpost
  have hself : t'.find? r.id = some r := by
    rw [delete_ok hrun]
    exact Table.find?_replace_self _ r hold
  obtain ⟨y, hy, hyflag⟩ := runCalls_keeps_deleted r.id post t' r hself hflag hpost
  rw [unread_iff, hy]
  intro x hx
  rw [← Option.some.inj hx]
  exact hyflag

/-- A deleted copy of the first stored route, passed to `Delete`: the theorem at
a run of one call. -/
theorem run_reads_seed :
    Unread (seedTable.replace { ruta1 with isDeleted := true }) 3 := by
  have h := (run_reads seedTable [.delete { ruta1 with isDeleted := true }]).1 [] _ [] rfl
    ruta1 (seedTable.replace { ruta1 with isDeleted := true }) (by decide) (by rfl)
  exact (h.1.mpr rfl).1

/-- Passing `Delete` the stored route as it was read leaves it listed. -/
theorem delete_leaves_listed :
    ¬ ∀ (t₀ : RouteTable) (cs pre : List ServiceCall) (r : Route) (post : List ServiceCall),
      cs = pre ++ .delete r :: post →
      ∀ old t', (runCalls t₀ pre).find? r.id = some old →
        (ServiceCall.delete r).run (runCalls t₀ pre) = (.ok (), t') → Unread t' r.id := by
  intro h
  have hunread := h seedTable [.delete ruta1] [] ruta1 [] rfl ruta1 (seedTable.replace ruta1)
    (by decide) (by rfl)
  have hflag := (unread_iff _ _).mp hunread ruta1 (by decide)
  exact absurd hflag (by decide)

end CgGuide.RoutesRuns
