/-
What the page shows when all answers have arrived.

`Tracked` says what is known at every point of a run: the rows are those made of the
answers that have arrived, less the rows taken away; the index is what it was, with the
products added, less those removed; a row that is being removed is one the page made.
Every event keeps it, and when nothing is under way it decides what is shown. A product
in one answer has one row, and loses it when it is removed. A product in two answers has
two rows, and a removal takes only one of them away, so it is shown twice while it is in
the index, and may be shown when it is not.
-/
import CgGuide.ProductsViewModel
import Mathlib.Data.List.Dedup
import Mathlib.Data.List.Pairwise

set_option autoImplicit false

namespace CgGuide.ProductsShown

open CgGuide.Runs CgGuide.Exchange CgGuide.ProductsViewModel

/-! ## The invariant -/

/-- No generated id is that of another product. -/
def DistinctIds (index : Index) (sent : List Response) : Prop :=
  ((index.products ++ added sent).map Product.id).Nodup

instance (index : Index) (sent : List Response) : Decidable (DistinctIds index sent) :=
  inferInstanceAs (Decidable (List.Nodup _))

def Request.asksAll : Request → Bool
  | .getAllProducts => true
  | _ => false

def Response.hasAll : Response → Bool
  | .products _ => true
  | _ => false

/-- What is known of a run that began with `index`. -/
structure Tracked (index : Index) (s : State Server ViewModel Request Response)
    (sent got : List Response) : Prop where
  loading : s.requests.countP Request.asksAll + sent.countP Response.hasAll = 1
  views : Views s.client (pushed got) (removed got)
  rows : ∀ row, .remove row ∈ s.requests ∨ row ∈ removed sent → row ∈ objects (pushed got)
  stored : ∀ p, p ∈ s.server.index.products ↔
    (p ∈ index.products ∨ p ∈ added sent) ∧ ∀ row ∈ removed sent, row.value.id ≠ p.id
  initial : 0 < sent.countP Response.hasAll → ∀ p ∈ index.products, p ∈ loaded sent
  known : ∀ p ∈ loaded sent, p ∈ index.products ∨ p ∈ added sent
  loaded_nodup : ((loaded sent).map Product.id).Nodup

theorem DistinctIds.of_append {index : Index} {sent : List Response} {response : Response}
    (h : DistinctIds index (sent ++ [response])) : DistinctIds index sent := by
  rw [DistinctIds, added_append, ← List.append_assoc, List.map_append] at h
  exact h.of_append_left

/-- A new id is not that of a product there was. -/
theorem DistinctIds.ne_of_product {index : Index} {sent : List Response} {new p : Product}
    (h : DistinctIds index (sent ++ [.product new])) (hp : p ∈ index.products ∨ p ∈ added sent) :
    p.id ≠ new.id := by
  rw [DistinctIds, added_append, ← List.append_assoc, List.map_append, List.nodup_append] at h
  refine h.2.2 _ (List.mem_map_of_mem (List.mem_append.mpr hp)) _ ?_
  exact List.mem_map_of_mem List.mem_cons_self

theorem loaded_eq_nil {sent : List Response} (h : sent.countP Response.hasAll = 0) :
    loaded sent = [] := by
  rw [List.countP_eq_zero] at h
  rw [loaded, List.flatMap_eq_nil_iff]
  intro response hresponse
  cases response with
  | products products => exact absurd rfl (h _ hresponse)
  | product product => rfl
  | removed product ok => rfl

/-- A row the page made is of a product that an answer carried. -/
theorem exists_product_of_row {sent got rest : List Response} (hperm : sent.Perm (got ++ rest))
    {row : Row} (hrow : row ∈ objects (pushed got)) :
    ∃ p, (p ∈ loaded sent ∨ p ∈ added sent) ∧ .ofProduct p = row.value := by
  obtain ⟨p, hp, hvalue⟩ := mem_objects.mp hrow
  refine ⟨p, ?_, hvalue⟩
  have hgot : p ∈ pushed got := List.mem_of_getElem? hp
  have hsent : p ∈ pushed sent := by
    rw [pushed, List.mem_flatMap] at hgot ⊢
    obtain ⟨response, hresponse, hmem⟩ := hgot
    exact ⟨response, hperm.mem_iff.mpr (List.mem_append_left _ hresponse), hmem⟩
  rw [← List.mem_append, ← (pushed_perm sent).mem_iff]
  exact hsent

section Steps

variable {index : Index} {s : State Server ViewModel Request Response}
  {sent got : List Response}

theorem tracked_opened (index : Index) : Tracked index (opened index) [] [] where
  loading := rfl
  views := ⟨rfl, rfl⟩
  rows row h := by
    rcases h with h | h
    · rw [opened, List.mem_singleton] at h
      cases h
    · exact absurd h List.not_mem_nil
  stored p := by simp [opened, added, removed]
  initial h := absurd h (by decide)
  known p h := absurd h List.not_mem_nil
  loaded_nodup := List.nodup_nil

/-- A row that is clicked is one of those shown. -/
theorem Tracked.send (h : Tracked index s sent got) {request : Request}
    (hmay : May s.client request) :
    Tracked index { s with requests := s.requests ++ [request] } sent got := by
  refine { h with loading := ?_, rows := ?_ }
  · have hloading := h.loading
    have hno : Request.asksAll request = false := by
      cases request with
      | getAllProducts => exact absurd hmay (by simp [May])
      | addProduct => rfl
      | remove product => rfl
    simp only [List.countP_append, List.countP_singleton, hno]
    exact hloading
  · intro row hrow
    rcases hrow with hrow | hrow
    · rcases List.mem_append.mp hrow with hmem | hmem
      · exact h.rows row (Or.inl hmem)
      · rw [List.mem_singleton] at hmem
        rw [← hmem, May, h.views.products] at hmay
        exact List.mem_of_mem_filter hmay
    · exact h.rows row (Or.inr hrow)

/-- A row that is being removed, or was, stays one the page made when a request is
answered. -/
theorem Tracked.rows_of_perm (h : Tracked index s sent got) {request : Request}
    {rest : List Request} (hrequests : s.requests.Perm (request :: rest)) {row : Row}
    (hrow : .remove row ∈ rest ∨ row ∈ removed sent) : row ∈ objects (pushed got) :=
  h.rows row (hrow.imp_left
    (fun hmem => hrequests.mem_iff.mpr (List.mem_cons_of_mem _ hmem)))

/-- Another request than for all, and its answer, change nothing of what is loaded. -/
theorem Tracked.keeps_loaded (h : Tracked index s sent got) {request : Request}
    {rest : List Request} {response : Response} (hrequests : s.requests.Perm (request :: rest))
    (hrequest : Request.asksAll request = false) (hresponse : Response.hasAll response = false) :
    loaded (sent ++ [response]) = loaded sent
      ∧ rest.countP Request.asksAll + (sent ++ [response]).countP Response.hasAll = 1
      ∧ (0 < (sent ++ [response]).countP Response.hasAll →
          ∀ p ∈ index.products, p ∈ loaded sent) := by
  have hcount : (sent ++ [response]).countP Response.hasAll = sent.countP Response.hasAll := by
    simp [hresponse]
  have hloading := h.loading
  rw [hrequests.countP_eq, List.countP_cons_of_neg (by simp [hrequest])] at hloading
  rw [hcount]
  refine ⟨?_, hloading, h.initial⟩
  cases response with
  | products products => exact absurd hresponse (by simp [Response.hasAll])
  | product product => simp [loaded]
  | removed row ok => simp [loaded]

/-- `GetAllProducts` finds all that the index began with: no row of it can have been
removed, as none was made. -/
theorem Tracked.getAllProducts (h : Tracked index s sent got) {rest : List Request}
    (hprices : ∀ p ∈ index.products, 10 ≤ p.price ∧ p.price ≤ 100)
    (hdistinct : DistinctIds index sent) (hperm : sent.Perm (got ++ s.responses))
    (hrequests : s.requests.Perm (.getAllProducts :: rest)) :
    Tracked index { s with
        requests := rest
        responses := s.responses ++ [.products (s.server.index.query 10 100)] }
      (sent ++ [.products (s.server.index.query 10 100)]) got := by
  have hloading := h.loading
  rw [hrequests.countP_eq, List.countP_cons_of_pos rfl] at hloading
  have hnone : loaded sent = [] := loaded_eq_nil (by omega)
  have hloaded : loaded (sent ++ [.products (s.server.index.query 10 100)])
      = s.server.index.query 10 100 := by
    rw [loaded_append, hnone, List.nil_append]
    exact List.append_nil _
  have hadded : added (sent ++ [.products (s.server.index.query 10 100)]) = added sent := by
    rw [added_append]
    exact List.append_nil _
  have hremoved : removed (sent ++ [.products (s.server.index.query 10 100)]) = removed sent := by
    rw [removed_append]
    exact List.append_nil _
  constructor
  case loading =>
    simp only [List.countP_append, List.countP_singleton, Response.hasAll, if_true]
    omega
  case views => exact h.views
  case rows =>
    intro row hrow
    rw [hremoved] at hrow
    exact h.rows_of_perm hrequests hrow
  case stored =>
    rw [hadded, hremoved]
    exact h.stored
  case initial =>
    intro _ p hp
    rw [hloaded, Index.mem_query, h.stored]
    refine ⟨⟨Or.inl hp, ?_⟩, hprices p hp⟩
    intro row hrow hid
    -- the removed row was of an added product, whose id is not one of the index
    obtain ⟨q, hq, hvalue⟩ := exists_product_of_row hperm (h.rows row (Or.inr hrow))
    rw [hnone] at hq
    have hqadded : q ∈ added sent := hq.resolve_left List.not_mem_nil
    rw [DistinctIds, List.map_append, List.nodup_append] at hdistinct
    refine hdistinct.2.2 p.id (List.mem_map_of_mem hp) q.id (List.mem_map_of_mem hqadded) ?_
    rw [← hid, ← hvalue]
    rfl
  case known =>
    -- what is loaded is in the index, so it began there or was added
    intro p hp
    rw [hloaded, Index.mem_query, h.stored] at hp
    rw [hadded]
    exact hp.1.1
  case loaded_nodup =>
    rw [hloaded]
    exact (List.filter_sublist.map Product.id).nodup s.server.index.ids_nodup

/-- A product that is added has an id no row ever had. -/
theorem Tracked.addProduct (h : Tracked index s sent got) {rest : List Request} {new : Product}
    {generated : ℕ} (hdistinct : DistinctIds index (sent ++ [.product new]))
    (hperm : sent.Perm (got ++ s.responses))
    (hrequests : s.requests.Perm (.addProduct :: rest)) :
    Tracked index { s with
        server := ⟨s.server.index.add new, generated⟩
        requests := rest
        responses := s.responses ++ [.product new] }
      (sent ++ [.product new]) got := by
  obtain ⟨hloaded, hloading, hinitial⟩ :=
    @Tracked.keeps_loaded _ _ _ _ h _ _ (.product new) hrequests rfl rfl
  have hadded : added (sent ++ [.product new]) = added sent ++ [new] := added_append _ _
  have hremoved : removed (sent ++ [.product new]) = removed sent := by
    rw [removed_append]
    exact List.append_nil _
  have hnew : ∀ p, p ∈ index.products ∨ p ∈ added sent → p.id ≠ new.id :=
    fun p hp => hdistinct.ne_of_product hp
  constructor
  case loading => exact hloading
  case views => exact h.views
  case rows =>
    intro row hrow
    rw [hremoved] at hrow
    exact h.rows_of_perm hrequests hrow
  case stored =>
    intro p
    rw [Index.mem_add, h.stored, hadded, hremoved, List.mem_append, List.mem_singleton]
    constructor
    · rintro (⟨⟨hp, hrows⟩, -⟩ | rfl)
      · exact ⟨hp.imp_right Or.inl, hrows⟩
      · refine ⟨Or.inr (Or.inr rfl), fun row hrow hid => ?_⟩
        -- a row with the new id would be of a product there was
        obtain ⟨q, hq, hvalue⟩ := exists_product_of_row hperm (h.rows row (Or.inr hrow))
        have hqid : q.id = row.value.id := by
          rw [← hvalue]
          rfl
        exact hnew q (hq.elim (h.known q) Or.inr) (hqid.trans hid)
    · rintro ⟨hp | hp | rfl, hrows⟩
      · exact Or.inl ⟨⟨Or.inl hp, hrows⟩, hnew p (Or.inl hp)⟩
      · exact Or.inl ⟨⟨Or.inr hp, hrows⟩, hnew p (Or.inr hp)⟩
      · exact Or.inr rfl
  case initial =>
    rw [hloaded]
    exact hinitial
  case known =>
    intro p hp
    rw [hloaded] at hp
    rw [hadded, List.mem_append]
    exact (h.known p hp).imp_right Or.inl
  case loaded_nodup =>
    rw [hloaded]
    exact h.loaded_nodup

/-- A removal takes the products with the id of its row. -/
theorem Tracked.remove (h : Tracked index s sent got) {rest : List Request} {row : Row}
    (hrequests : s.requests.Perm (.remove row :: rest)) :
    Tracked index { s with
        server := { s.server with index := s.server.index.delete row.value.id }
        requests := rest
        responses := s.responses ++ [.removed row true] }
      (sent ++ [.removed row true]) got := by
  obtain ⟨hloaded, hloading, hinitial⟩ :=
    @Tracked.keeps_loaded _ _ _ _ h _ _ (.removed row true) hrequests rfl rfl
  have hadded : added (sent ++ [.removed row true]) = added sent := by
    rw [added_append]
    exact List.append_nil _
  have hremoved : removed (sent ++ [.removed row true]) = removed sent ++ [row] :=
    removed_append _ _
  constructor
  case loading => exact hloading
  case views => exact h.views
  case rows =>
    intro row' hrow
    rw [hremoved, List.mem_append, List.mem_singleton] at hrow
    rcases hrow with hrow | hrow | rfl
    · exact h.rows_of_perm hrequests (Or.inl hrow)
    · exact h.rows_of_perm hrequests (Or.inr hrow)
    · exact h.rows row' (Or.inl (hrequests.mem_iff.mpr List.mem_cons_self))
  case stored =>
    intro p
    rw [Index.mem_delete, h.stored, hadded, hremoved, and_assoc]
    simp only [List.forall_mem_append, List.forall_mem_singleton, ne_comm]
  case initial =>
    rw [hloaded]
    exact hinitial
  case known =>
    intro p hp
    rw [hloaded] at hp
    rw [hadded]
    exact h.known p hp
  case loaded_nodup =>
    rw [hloaded]
    exact h.loaded_nodup

/-- What arrives changes only what the page shows. -/
theorem Tracked.receive (h : Tracked index s sent got) {response : Response}
    {rest : List Response} (hperm : sent.Perm (got ++ response :: rest)) :
    Tracked index { s with client := s.client.success response, responses := rest }
      sent (got ++ [response]) := by
  -- a removal that arrives was answered, so its row is one the page made
  have hgone : ∀ row ∈ removed got, row ∈ objects (pushed got) := by
    intro row hrow
    refine h.rows row (Or.inr ?_)
    rw [removed, List.mem_flatMap] at hrow ⊢
    obtain ⟨answer, hanswer, hmem⟩ := hrow
    exact ⟨answer, hperm.mem_iff.mpr (List.mem_append_left _ hanswer), hmem⟩
  refine { h with views := ?_, rows := ?_ }
  · rw [pushed_append, removed_append]
    cases response with
    | products products =>
      have hviews := h.views.pushAll products hgone
      simp only [pushed, removed, List.flatMap_cons, List.flatMap_nil, List.append_nil] at hviews ⊢
      exact hviews
    | product product =>
      have hviews := h.views.push hgone product
      simp only [pushed, removed, List.flatMap_cons, List.flatMap_nil, List.append_nil] at hviews ⊢
      exact hviews
    | removed row ok =>
      cases ok with
      | false =>
        have hviews := h.views
        simp only [pushed, removed, List.flatMap_cons, List.flatMap_nil, List.append_nil]
          at hviews ⊢
        exact hviews
      | true =>
        have hrow : row ∈ removed sent := by
          rw [removed, List.mem_flatMap]
          refine ⟨.removed row true, ?_, List.mem_cons_self⟩
          exact hperm.mem_iff.mpr (List.mem_append_right _ List.mem_cons_self)
        have hviews := h.views.remove (h.rows row (Or.inr hrow))
        simp only [pushed, removed, List.flatMap_cons, List.flatMap_nil, List.append_nil]
          at hviews ⊢
        exact hviews
  · intro row hrow
    rw [pushed_append]
    exact mem_objects_append (h.rows row hrow) _

end Steps

/-- **What is known** holds after every run in which the ids are distinct. -/
theorem tracked_run (next : ℕ → String) {index : Index}
    (hprices : ∀ p ∈ index.products, 10 ≤ p.price ∧ p.price ≤ 100) {es : List (Event Request)}
    (hguarded : Guarded (step (protocol next)) (Sends May) (opened index) es)
    (hdistinct : DistinctIds index (answers (protocol next) (opened index) es)) :
    (answers (protocol next) (opened index) es).Perm
        (arrived (protocol next) (opened index) es
          ++ (run (step (protocol next)) (opened index) es).responses)
      ∧ Tracked index (run (step (protocol next)) (opened index) es)
          (answers (protocol next) (opened index) es)
          (arrived (protocol next) (opened index) es) := by
  have hrun := invariant_exchange (p := protocol next) (s := opened index) rfl
    (I := fun s sent got => DistinctIds index sent → Tracked index s sent got)
    (fun _ => tracked_opened index) ?_ ?_ ?_ hguarded
  · exact ⟨hrun.1, hrun.2 hdistinct⟩
  · exact fun s sent got request _ ih hmay hdistinct => (ih hdistinct).send hmay
  · intro s sent got request rest hperm ih hrequests hdistinct
    have h := ih hdistinct.of_append
    cases request with
    | getAllProducts => exact h.getAllProducts hprices hdistinct.of_append hperm hrequests
    | addProduct => exact h.addProduct hdistinct hperm hrequests
    | remove row => exact h.remove hrequests
  · exact fun s sent got response rest hperm ih hdistinct => (ih hdistinct).receive hperm

/-! ## What is shown at the end -/

/-- The ids of the products in two answers: an `AddProduct` of the page had stored them
when the server came to its `GetAllProducts`. -/
def overlap (sent : List Response) : List String :=
  ((added sent).filter (fun p => decide (p ∈ loaded sent))).map Product.id

/-- How many rows of a product have been removed. -/
def removals (sent : List Response) (product : Product) : ℕ :=
  (removed sent).dedup.countP (fun row => row.value == .ofProduct product)

/-- What `self.products` shows. -/
def shown (s : State Server ViewModel Request Response) : List ProductReservation :=
  s.client.products.map Row.value

/-- What it is to show. -/
def indexed (s : State Server ViewModel Request Response) : List ProductReservation :=
  s.server.index.products.map ProductReservation.ofProduct

/-- Products in one answer are shown once while they are in the index, and not when they
are not. Products in two are shown twice, less once for each row removed, and are in the
index as long as no row of theirs was. -/
structure ShowsIndex (sent : List Response) (s : State Server ViewModel Request Response) :
    Prop where
  others : ((shown s).filter (fun r => decide (r.id ∉ overlap sent))).Perm
    ((indexed s).filter (fun r => decide (r.id ∉ overlap sent)))
  doubled : ∀ p ∈ added sent, p ∈ loaded sent →
    (shown s).count (.ofProduct p) + removals sent p = 2
      ∧ (p ∈ s.server.index.products ↔ removals sent p = 0)

theorem mem_overlap {sent : List Response} {id : String} :
    id ∈ overlap sent ↔ ∃ p, p ∈ added sent ∧ p ∈ loaded sent ∧ p.id = id := by
  simp only [overlap, List.mem_map, List.mem_filter, decide_eq_true_eq, and_assoc]

theorem symm_of_key {α : Type} (key : α → String) (keys : List String) :
    Std.Symm (fun a b => key a = key b → key a ∈ keys) where
  symm a b h hba := by
    rw [hba]
    exact h hba.symm

theorem map_value_objects (products : List Product) :
    (objects products).map Row.value = products.map ProductReservation.ofProduct := by
  induction products using List.reverseRecOn with
  | nil => rfl
  | append_singleton products product ih =>
      rw [objects_concat, List.map_append, List.map_append, ih]
      rfl

section Complete

variable {index : Index} {s : State Server ViewModel Request Response}
  {sent got : List Response}

theorem DistinctIds.eq_of_id (h : DistinctIds index sent) {p q : Product}
    (hp : p ∈ index.products ∨ p ∈ added sent) (hq : q ∈ index.products ∨ q ∈ added sent)
    (hid : p.id = q.id) : p = q :=
  List.inj_on_of_nodup_map h (List.mem_append.mpr hp) (List.mem_append.mpr hq) hid

theorem DistinctIds.added_nodup (h : DistinctIds index sent) :
    ((added sent).map Product.id).Nodup := by
  rw [DistinctIds, List.map_append] at h
  exact h.of_append_right

theorem nodup_map_ofProduct {products : List Product} (h : (products.map Product.id).Nodup) :
    (products.map ProductReservation.ofProduct).Nodup := by
  refine List.Nodup.of_map ProductReservation.id ?_
  rw [List.map_map]
  exact h

/-- When all answers have arrived, rows were made of all that was loaded and added. -/
theorem pushed_arrived_perm (hperm : sent.Perm got) :
    (pushed got).Perm (loaded sent ++ added sent) :=
  (hperm.symm.flatMap_right _).trans (pushed_perm sent)

/-- Two products with one id that rows are made of are in two answers. -/
theorem Tracked.pairwise (h : Tracked index s sent got) (hdistinct : DistinctIds index sent) :
    (loaded sent ++ added sent).Pairwise (fun p q => p.id = q.id → p.id ∈ overlap sent) := by
  rw [List.pairwise_append]
  refine ⟨?_, ?_, ?_⟩
  · exact (List.pairwise_map.mp h.loaded_nodup).imp (fun hne heq => absurd heq hne)
  · exact (List.pairwise_map.mp hdistinct.added_nodup).imp (fun hne heq => absurd heq hne)
  · intro p hp q hq hid
    have heq : p = q := hdistinct.eq_of_id (h.known p hp) (Or.inr hq) hid
    rw [mem_overlap]
    exact ⟨q, hq, heq ▸ hp, hid.symm⟩

/-- So are two rows with one id. -/
theorem Tracked.rows_pairwise (h : Tracked index s sent got)
    (hdistinct : DistinctIds index sent) (hperm : sent.Perm got) :
    (objects (pushed got)).Pairwise
      (fun row row' => row.value.id = row'.value.id → row.value.id ∈ overlap sent) := by
  have hpushed := pushed_arrived_perm hperm
  have hsymm := symm_of_key Product.id (overlap sent)
  have hpairwise := (hpushed.pairwise_iff (fun {p q} => hsymm.symm p q)).mpr
    (h.pairwise hdistinct)
  have hvalues : ((pushed got).map ProductReservation.ofProduct).Pairwise
      (fun r r' => r.id = r'.id → r.id ∈ overlap sent) := List.pairwise_map.mpr hpairwise
  rw [← map_value_objects] at hvalues
  exact List.pairwise_map.mp hvalues

/-- At the end the rows are those made, less those a removal was answered for. -/
theorem Tracked.products_eq (h : Tracked index s sent got) (hperm : sent.Perm got) :
    s.client.products
      = (objects (pushed got)).filter (fun row => decide (row ∉ removed sent)) := by
  rw [h.views.products]
  apply List.filter_congr
  intro row _
  have hmem : row ∈ removed sent ↔ row ∈ removed got := (hperm.flatMap_right _).mem_iff
  simp only [hmem]

/-- **A product in one answer** is shown if and only if it is in the index. -/
theorem Tracked.others (h : Tracked index s sent got) (hdistinct : DistinctIds index sent)
    (hperm : sent.Perm got) (hloaded : 0 < sent.countP Response.hasAll) :
    ((shown s).filter (fun r => decide (r.id ∉ overlap sent))).Perm
      ((indexed s).filter (fun r => decide (r.id ∉ overlap sent))) := by
  have hpairwise := h.rows_pairwise hdistinct hperm
  have hpushed := pushed_arrived_perm hperm
  have hshown : ((shown s).filter (fun r => decide (r.id ∉ overlap sent))).Nodup := by
    rw [shown, h.products_eq hperm]
    refine List.pairwise_filter.mpr (List.pairwise_map.mpr ?_)
    refine (hpairwise.sublist List.filter_sublist).imp (fun {row row'} hrows hnot _ heq => ?_)
    exact of_decide_eq_true hnot (hrows (by rw [heq]))
  have hstored : ((indexed s).filter (fun r => decide (r.id ∉ overlap sent))).Nodup := by
    rw [indexed]
    exact (nodup_map_ofProduct s.server.index.ids_nodup).filter _
  rw [List.perm_ext_iff_of_nodup hshown hstored]
  intro r
  rw [List.mem_filter, List.mem_filter, decide_eq_true_eq]
  refine and_congr_left (fun hoverlap => ?_)
  rw [shown, indexed, List.mem_map, List.mem_map, h.products_eq hperm]
  constructor
  · rintro ⟨row, hrow, rfl⟩
    rw [List.mem_filter, decide_eq_true_eq] at hrow
    obtain ⟨hrow, hgone⟩ := hrow
    obtain ⟨p, hp, hvalue⟩ := mem_objects.mp hrow
    refine ⟨p, (h.stored p).mpr ⟨?_, ?_⟩, hvalue⟩
    · have hmem := hpushed.mem_iff.mp (List.mem_of_getElem? hp)
      exact (List.mem_append.mp hmem).elim (h.known p) Or.inr
    · -- a row removed with its id would be another row of the same product
      intro row' hrow' hid
      have hid' : row'.value.id = row.value.id := by
        rw [hid, ← hvalue]
        rfl
      have hne : row' ≠ row := by
        rintro rfl
        exact hgone hrow'
      have hsymm := symm_of_key (fun row : Row => row.value.id) (overlap sent)
      have hboth := hpairwise.forall (h.rows row' (Or.inr hrow')) hrow hne hid'
      rw [hid'] at hboth
      exact hoverlap hboth
  · rintro ⟨p, hp, rfl⟩
    rw [h.stored] at hp
    obtain ⟨hknown, hrows⟩ := hp
    have hmem : p ∈ pushed got := by
      rw [hpushed.mem_iff, List.mem_append]
      exact hknown.imp_left (h.initial hloaded p)
    -- its row is the one with the number of its place among the pushed
    obtain ⟨i, hi⟩ := List.getElem?_of_mem hmem
    refine ⟨⟨i, .ofProduct p⟩, ?_, rfl⟩
    rw [List.mem_filter, decide_eq_true_eq]
    exact ⟨mem_objects.mpr ⟨p, hi, rfl⟩, fun hgone => hrows _ hgone rfl⟩

/-- **A product in two answers** has two rows, less those removed. -/
theorem Tracked.doubled (h : Tracked index s sent got) (hdistinct : DistinctIds index sent)
    (hperm : sent.Perm got) {p : Product} (hadded : p ∈ added sent) (hloaded : p ∈ loaded sent) :
    (shown s).count (.ofProduct p) + removals sent p = 2
      ∧ (p ∈ s.server.index.products ↔ removals sent p = 0) := by
  have hpushed := pushed_arrived_perm hperm
  -- one row for each of the two answers
  have hcount : ((pushed got).map ProductReservation.ofProduct).count (.ofProduct p) = 2 := by
    have hone : ∀ ps : List Product, (ps.map Product.id).Nodup → p ∈ ps →
        (ps.map ProductReservation.ofProduct).count (.ofProduct p) = 1 := by
      intro ps hnodup hp
      exact List.count_eq_one_of_mem (nodup_map_ofProduct hnodup) (List.mem_map_of_mem hp)
    rw [(hpushed.map _).count_eq, List.map_append, List.count_append,
      hone _ h.loaded_nodup hloaded, hone _ hdistinct.added_nodup hadded]
  -- the rows removed are rows that were made
  have hgone : ((objects (pushed got)).filter (fun row => decide (row ∈ removed sent))).Perm
      (removed sent).dedup := by
    rw [List.perm_ext_iff_of_nodup ((objects_nodup _).filter _) (List.nodup_dedup _)]
    intro row
    rw [List.mem_filter, decide_eq_true_eq, List.mem_dedup]
    exact ⟨fun hrow => hrow.2, fun hrow => ⟨h.rows row (Or.inr hrow), hrow⟩⟩
  constructor
  · rw [← map_value_objects, List.count_eq_countP, List.countP_map] at hcount
    rw [shown, h.products_eq hperm, List.count_eq_countP, List.countP_map, removals,
      ← hgone.countP_eq]
    have hsplit := List.countP_eq_countP_filter_add (objects (pushed got))
      ((fun x => x == ProductReservation.ofProduct p) ∘ Row.value)
      (fun row => decide (row ∉ removed sent))
    rw [hcount] at hsplit
    simp only [decide_not, Bool.not_not] at hsplit ⊢
    exact hsplit.symm
  · rw [h.stored, removals, List.countP_eq_zero]
    simp only [List.mem_dedup, beq_iff_eq]
    constructor
    · rintro ⟨-, hrows⟩ row hrow hvalue
      refine hrows row hrow ?_
      rw [hvalue]
      rfl
    · intro hrows
      refine ⟨Or.inr hadded, fun row hrow hid => hrows row hrow ?_⟩
      obtain ⟨q, hq, hvalue⟩ := exists_product_of_row
        (hperm.trans (List.Perm.of_eq (List.append_nil got).symm)) (h.rows row (Or.inr hrow))
      have heq : q = p := hdistinct.eq_of_id (hq.elim (h.known q) Or.inr) (Or.inr hadded) (by
        rw [← hid, ← hvalue]
        rfl)
      rw [← hvalue, heq]

end Complete

/-- **The page when nothing is under way.** -/
theorem products_shown (next : ℕ → String) {index : Index}
    (hprices : ∀ p ∈ index.products, 10 ≤ p.price ∧ p.price ≤ 100) {es : List (Event Request)}
    (hguarded : Guarded (step (protocol next)) (Sends May) (opened index) es)
    (hdistinct : DistinctIds index (answers (protocol next) (opened index) es))
    (hrequests : (run (step (protocol next)) (opened index) es).requests = [])
    (hresponses : (run (step (protocol next)) (opened index) es).responses = []) :
    ShowsIndex (answers (protocol next) (opened index) es)
      (run (step (protocol next)) (opened index) es) := by
  obtain ⟨hperm, h⟩ := tracked_run next hprices hguarded hdistinct
  rw [hresponses, List.append_nil] at hperm
  have hloading := h.loading
  rw [hrequests, List.countP_nil, Nat.zero_add] at hloading
  exact ⟨h.others hdistinct hperm (by omega),
    fun p hadded hloaded => h.doubled hdistinct hperm hadded hloaded⟩

/-- Where no product is in two answers, the page shows the index. -/
theorem ShowsIndex.perm {sent : List Response} {s : State Server ViewModel Request Response}
    (h : ShowsIndex sent s) (hnone : overlap sent = []) : (shown s).Perm (indexed s) := by
  have hothers := h.others
  rw [hnone] at hothers
  simpa using hothers

/-- A product of the index, and the ids of the products that are added. -/
def exampleProduct : Product := { SolrController.newProduct "1" with name := some "iPod" }

def exampleIndex : Index := ⟨[exampleProduct], List.nodup_singleton _⟩

def exampleIds : ℕ → String
  | 0 => "17"
  | _ => "42"

/-- A product that is added while all are asked for, and removed again. -/
theorem products_shown_removed :
    ShowsIndex
      (answers (protocol exampleIds) (opened exampleIndex) [.send .addProduct, .handle 0, .handle 0,
        .receive 1, .send (.remove ⟨0, .ofProduct (SolrController.newProduct "17")⟩), .receive 0,
        .handle 0, .receive 0])
      (run (step (protocol exampleIds)) (opened exampleIndex) [.send .addProduct, .handle 0,
        .handle 0, .receive 1, .send (.remove ⟨0, .ofProduct (SolrController.newProduct "17")⟩),
        .receive 0, .handle 0, .receive 0]) :=
  products_shown exampleIds (by decide)
    (by decide) (by decide) rfl rfl

/-- A product that is added before the server comes to the request of the page for all. -/
theorem product_shown_twice :
    ¬ ∀ (next : ℕ → String) (index : Index) (es : List (Event Request)),
      (∀ p ∈ index.products, 10 ≤ p.price ∧ p.price ≤ 100) →
      Guarded (step (protocol next)) (Sends May) (opened index) es →
      DistinctIds index (answers (protocol next) (opened index) es) →
      (run (step (protocol next)) (opened index) es).requests = [] →
      (run (step (protocol next)) (opened index) es).responses = [] →
      (shown (run (step (protocol next)) (opened index) es)).Perm
        (indexed (run (step (protocol next)) (opened index) es)) := by
  intro h
  have hperm := h exampleIds exampleIndex
    [.send .addProduct, .handle 1, .handle 0, .receive 0, .receive 0] (by decide)
    (by decide) (by decide) rfl rfl
  exact absurd hperm.length_eq (by decide)

end CgGuide.ProductsShown
