/-
`SolrViewModel.js`, and the actions of `SolrController` it calls: a page that shows the
products of an index.

The page asks for all products once, when it is opened, and keeps what it shows up to
date from its own additions and removals: the answer to an `AddProduct` appends a row,
the answer to a `Remove` takes the clicked row away, the answer to `GetAllProducts`
appends a row for each product in it. No answer is compared with the rows that are
there. A product that an `AddProduct` stored before the server came to the page's
`GetAllProducts` is therefore in two answers, and gets two rows (`overlap`).
-/
import CgGuide.Exchange
import Mathlib.Data.List.Nodup
import Mathlib.Data.Rat.Defs
import Mathlib.Algebra.Order.Ring.Unbundled.Rat

set_option autoImplicit false

namespace CgGuide.ProductsViewModel

open CgGuide.Runs CgGuide.Exchange

/-! ## The index -/

/-- `Product`. -/
structure Product where
  id : String
  name : Option String
  manufacturer : Option String
  categories : Option (List String)
  price : ℚ
  inStock : Bool
  weight : Option ℚ
deriving DecidableEq

/-- The documents of the index; `id` is their unique key. -/
structure Index where
  products : List Product
  ids_nodup : (products.map Product.id).Nodup

namespace Index

/-- `Delete`, by id. -/
def delete (index : Index) (id : String) : Index where
  products := index.products.filter (fun p => decide (p.id ≠ id))
  ids_nodup := (List.filter_sublist.map Product.id).nodup index.ids_nodup

/-- `Add`. A document with the same key is replaced. -/
def add (index : Index) (product : Product) : Index where
  products := (index.delete product.id).products ++ [product]
  ids_nodup := by
    rw [List.map_append, List.nodup_append]
    refine ⟨(index.delete product.id).ids_nodup, List.nodup_singleton _, ?_⟩
    intro id hid id' hid'
    obtain ⟨p, hp, rfl⟩ := List.mem_map.mp hid
    have hne := (List.mem_filter.mp hp).2
    rw [List.map_singleton, List.mem_singleton] at hid'
    rw [hid']
    exact of_decide_eq_true hne

/-- `Query`, by a range of prices. -/
def query (index : Index) (low high : ℚ) : List Product :=
  index.products.filter (fun p => decide (low ≤ p.price ∧ p.price ≤ high))

theorem mem_delete {index : Index} {id : String} {p : Product} :
    p ∈ (index.delete id).products ↔ p ∈ index.products ∧ p.id ≠ id := by
  rw [delete, List.mem_filter, decide_eq_true_eq]

theorem mem_add {index : Index} {product p : Product} :
    p ∈ (index.add product).products
      ↔ p ∈ index.products ∧ p.id ≠ product.id ∨ p = product := by
  rw [add, List.mem_append, mem_delete, List.mem_singleton]

theorem mem_query {index : Index} {low high : ℚ} {p : Product} :
    p ∈ index.query low high ↔ p ∈ index.products ∧ low ≤ p.price ∧ p.price ≤ high := by
  rw [query, List.mem_filter, decide_eq_true_eq]

end Index

/-! ## The page -/

/-- The fields of a `ProductReservation`. -/
structure ProductReservation where
  id : String
  name : Option String
  manufacturer : Option String
  price : ℚ
deriving DecidableEq

/-- The reservation the page makes of a product it is sent. -/
def ProductReservation.ofProduct (product : Product) : ProductReservation :=
  ⟨product.id, product.name, product.manufacturer, product.price⟩

/-- An element of `self.products`: an object, told from others with the same fields by
its identity. -/
structure Row where
  ref : ℕ
  value : ProductReservation
deriving DecidableEq

/-- `ProductsViewModel`: `self.products`, and the number of objects made so far. -/
structure ViewModel where
  products : List Row
  created : ℕ

/-- `self.products.push(new ProductReservation(...))`. -/
def ViewModel.push (v : ViewModel) (product : Product) : ViewModel where
  -- each push makes an object of its own, also for a product that has a row
  products := v.products ++ [⟨v.created, .ofProduct product⟩]
  created := v.created + 1

/-- `self.products.remove(product)`, which compares objects. -/
def ViewModel.remove (v : ViewModel) (product : Row) : ViewModel :=
  { v with products := v.products.filter (fun row => decide (row.ref ≠ product.ref)) }

/-! ## Requests and answers -/

/-- A request, with the objects its callback holds. -/
inductive Request
  | getAllProducts
  | addProduct
  | remove (product : Row)

/-- An answer. The row beside `ok` is not sent: the callback of the request holds it. -/
inductive Response
  | products (products : List Product)
  | product (product : Product)
  | removed (product : Row) (ok : Bool)

/-- The index, and the number of ids generated so far. -/
structure Server where
  index : Index
  generated : ℕ

namespace SolrController

/-- The product `AddProduct` makes. -/
def newProduct (id : String) : Product where
  id := id
  name := none
  manufacturer := some "Apple"
  categories := some ["Computers", "Electronics"]
  price := 50
  inStock := true
  weight := some 20

/-- `GetAllProducts`. -/
def getAllProducts (s : Server) : Server × Response :=
  (s, .products (s.index.query 10 100))

/-- `AddProduct`, where `next n` is the text the `n`-th `new Random().Next()` gives. -/
def addProduct (next : ℕ → String) (s : Server) : Server × Response :=
  -- nothing compares the new id with those of the index
  let product := newProduct (next s.generated)
  (⟨s.index.add product, s.generated + 1⟩, .product product)

/-- `Remove`, where nothing fails. -/
def remove (s : Server) (product : Row) : Server × Response :=
  ({ s with index := s.index.delete product.value.id }, .removed product true)

end SolrController

/-- The callbacks. -/
def ViewModel.success (v : ViewModel) : Response → ViewModel
  | .products products => products.foldl ViewModel.push v
  | .product product => v.push product
  -- without `result.ok` the page only alerts
  | .removed product ok => if ok then v.remove product else v

/-- The page and the server. -/
def protocol (next : ℕ → String) : Protocol Server ViewModel Request Response where
  handle s
    | .getAllProducts => SolrController.getAllProducts s
    | .addProduct => SolrController.addProduct next s
    | .remove product => SolrController.remove s product
  receive := ViewModel.success

/-- What the page may send: `addProduct` always, `removeProduct` for a row it shows.
`GetAllProducts` is sent when the page is opened, and not again. -/
def May (v : ViewModel) : Request → Prop
  | .getAllProducts => False
  | .addProduct => True
  -- the link stands in the row
  | .remove product => product ∈ v.products

instance (v : ViewModel) : ∀ request, Decidable (May v request)
  | .getAllProducts => .isFalse id
  | .addProduct => .isTrue trivial
  | .remove product => inferInstanceAs (Decidable (product ∈ v.products))

/-- The page when it has been opened. -/
def opened (index : Index) : State Server ViewModel Request Response where
  server := ⟨index, 0⟩
  client := ⟨[], 0⟩
  requests := [.getAllProducts]
  responses := []

/-! ## What answers carry -/

/-- The products of the answers to `GetAllProducts`. -/
def loaded (answers : List Response) : List Product :=
  answers.flatMap fun
    | .products products => products
    | _ => []

/-- The products of the answers to `AddProduct`. -/
def added (answers : List Response) : List Product :=
  answers.flatMap fun
    | .product product => [product]
    | _ => []

/-- The products the page makes rows of. -/
def pushed (answers : List Response) : List Product :=
  answers.flatMap fun
    | .products products => products
    | .product product => [product]
    | _ => []

/-- The rows that answers take away. -/
def removed (answers : List Response) : List Row :=
  answers.flatMap fun
    | .removed product true => [product]
    | _ => []

theorem loaded_append (as bs : List Response) : loaded (as ++ bs) = loaded as ++ loaded bs :=
  List.flatMap_append

theorem added_append (as bs : List Response) : added (as ++ bs) = added as ++ added bs :=
  List.flatMap_append

theorem pushed_append (as bs : List Response) : pushed (as ++ bs) = pushed as ++ pushed bs :=
  List.flatMap_append

theorem removed_append (as bs : List Response) : removed (as ++ bs) = removed as ++ removed bs :=
  List.flatMap_append

/-- Rows are made of what is loaded and what is added. -/
theorem pushed_perm (answers : List Response) :
    (pushed answers).Perm (loaded answers ++ added answers) := by
  induction answers with
  | nil => exact List.Perm.refl _
  | cons response answers ih =>
      cases response with
      | products products =>
        have h := ih.append_left products
        rw [← List.append_assoc] at h
        exact h
      -- what is added stands behind all that is loaded
      | product product =>
        exact (ih.cons product).trans List.perm_middle.symm
      | removed product ok => exact ih

/-! ## Rows by number -/

/-- The rows the page makes of a list of products. -/
def objects (products : List Product) : List Row :=
  products.mapIdx (fun i product => ⟨i, .ofProduct product⟩)

theorem objects_concat (products : List Product) (product : Product) :
    objects (products ++ [product])
      = objects products ++ [⟨products.length, .ofProduct product⟩] :=
  List.mapIdx_concat

theorem mem_objects {products : List Product} {row : Row} :
    row ∈ objects products
      ↔ ∃ product, products[row.ref]? = some product ∧ .ofProduct product = row.value := by
  rw [objects, List.mem_mapIdx]
  constructor
  · rintro ⟨i, hi, rfl⟩
    exact ⟨products[i], List.getElem?_eq_getElem hi, rfl⟩
  · rintro ⟨product, hproduct, hvalue⟩
    obtain ⟨hi, rfl⟩ := List.getElem?_eq_some_iff.mp hproduct
    refine ⟨row.ref, hi, ?_⟩
    rw [hvalue]

theorem ref_lt_of_mem_objects {products : List Product} {row : Row}
    (h : row ∈ objects products) : row.ref < products.length := by
  obtain ⟨product, hproduct, -⟩ := mem_objects.mp h
  exact (List.getElem?_eq_some_iff.mp hproduct).1

theorem eq_of_mem_objects {products : List Product} {row row' : Row}
    (h : row ∈ objects products) (h' : row' ∈ objects products) (href : row.ref = row'.ref) :
    row = row' := by
  obtain ⟨product, hproduct, hvalue⟩ := mem_objects.mp h
  obtain ⟨product', hproduct', hvalue'⟩ := mem_objects.mp h'
  rw [href, hproduct', Option.some.injEq] at hproduct
  obtain ⟨ref, value⟩ := row
  obtain ⟨ref', value'⟩ := row'
  simp only at href hvalue hvalue'
  rw [href, ← hvalue, ← hvalue', hproduct]

theorem objects_nodup (products : List Product) : (objects products).Nodup := by
  induction products using List.reverseRecOn with
  | nil => exact List.nodup_nil
  | append_singleton products product ih =>
      rw [objects_concat, List.nodup_append]
      refine ⟨ih, List.nodup_singleton _, ?_⟩
      intro row hrow row' hrow' heq
      rw [List.mem_singleton] at hrow'
      -- the new number is above those there are
      have hlt := ref_lt_of_mem_objects hrow
      rw [heq, hrow'] at hlt
      exact Nat.lt_irrefl _ hlt

theorem mem_objects_append {products : List Product} {row : Row} (h : row ∈ objects products)
    (products' : List Product) : row ∈ objects (products ++ products') := by
  obtain ⟨product, hproduct, hvalue⟩ := mem_objects.mp h
  refine mem_objects.mpr ⟨product, ?_, hvalue⟩
  rw [List.getElem?_append_left (ref_lt_of_mem_objects h)]
  exact hproduct

/-- The page has made a row of each of the products, and taken some of them away. -/
structure Views (v : ViewModel) (products : List Product) (gone : List Row) : Prop where
  created : v.created = products.length
  products : v.products = (objects products).filter (fun row => decide (row ∉ gone))

theorem Views.push {v : ViewModel} {products : List Product} {gone : List Row}
    (h : Views v products gone) (hgone : ∀ row ∈ gone, row ∈ objects products)
    (product : Product) : Views (v.push product) (products ++ [product]) gone := by
  -- what is taken away was made before
  have hnew : (⟨products.length, .ofProduct product⟩ : Row) ∉ gone := by
    intro hmem
    exact Nat.lt_irrefl _ (ref_lt_of_mem_objects (hgone _ hmem))
  constructor
  · rw [ViewModel.push, List.length_append, h.created, List.length_singleton]
  · rw [ViewModel.push, objects_concat, List.filter_append, h.products, h.created,
      List.filter_singleton, decide_eq_true hnew]
    rfl

theorem Views.pushAll {gone : List Row} (new : List Product) :
    ∀ {v : ViewModel} {products : List Product}, Views v products gone →
      (∀ row ∈ gone, row ∈ objects products) →
      Views (new.foldl ViewModel.push v) (products ++ new) gone := by
  induction new with
  | nil =>
      intro v products h _
      rw [List.append_nil]
      exact h
  | cons product new ih =>
      intro v products h hgone
      have hnext := ih (h.push hgone product)
        (fun row hrow => mem_objects_append (hgone row hrow) _)
      rw [List.append_assoc, List.singleton_append] at hnext
      exact hnext

theorem Views.remove {v : ViewModel} {products : List Product} {gone : List Row}
    (h : Views v products gone) {row : Row} (hrow : row ∈ objects products) :
    Views (v.remove row) products (gone ++ [row]) := by
  refine ⟨h.created, ?_⟩
  rw [ViewModel.remove, h.products, List.filter_filter]
  apply List.filter_congr
  intro row' hrow'
  -- on rows the page made, `===` is equality
  have href : row'.ref ≠ row.ref ↔ row' ≠ row := by
    constructor
    · rintro hne rfl
      exact hne rfl
    · exact fun hne hequal => hne (eq_of_mem_objects hrow' hrow hequal)
  rw [Bool.eq_iff_iff]
  simp only [Bool.and_eq_true, decide_eq_true_eq, List.mem_append, List.mem_singleton, href]
  tauto

end CgGuide.ProductsViewModel
