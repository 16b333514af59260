/-
Orders through a reading.

Values that are compared by what they read as: `read` may fail, and what it returns is
preordered. On the values this is a transitive relation that holds only between values
that can be read, so its intervals behave as intervals do, and one with a bound that
cannot be read is empty.
-/
import Mathlib.Order.Defs.Unbundled

set_option autoImplicit false

namespace CgGuide.Readings

variable {V α ε : Type*}

/-- A reading has one result. -/
theorem ok_unique {x : Except ε α} {a b : α} (ha : x = .ok a) (hb : x = .ok b) : a = b :=
  Except.ok.inj (ha.symm.trans hb)

/-- Both values can be read, and the first one is at most the second. -/
def AtMost (read : V → Except ε α) (le : α → α → Prop) (a b : V) : Prop :=
  ∃ x y, read a = .ok x ∧ read b = .ok y ∧ le x y

theorem atMost_flip (read : V → Except ε α) (le : α → α → Prop) (a b : V) :
    AtMost read (fun x y => le y x) a b ↔ AtMost read le b a := by
  constructor
  · rintro ⟨x, y, hx, hy, h⟩
    exact ⟨y, x, hy, hx, h⟩
  · rintro ⟨y, x, hy, hx, h⟩
    exact ⟨x, y, hx, hy, h⟩

theorem atMost_iff {read : V → Except ε α} (le : α → α → Prop) {a b : V} {x y : α}
    (hx : read a = .ok x) (hy : read b = .ok y) : AtMost read le a b ↔ le x y := by
  unfold AtMost
  simp only [hx, hy, Except.ok.injEq, exists_and_left, exists_eq_left']

/-- Values that can be read are in one order or the other where what they read as is. -/
theorem atMost_total {read : V → Except ε α} {le : α → α → Prop}
    (htotal : ∀ x y, le x y ∨ le y x) {a b : V} (ha : ∃ x, read a = .ok x)
    (hb : ∃ y, read b = .ok y) : AtMost read le a b ∨ AtMost read le b a := by
  obtain ⟨x, hx⟩ := ha
  obtain ⟨y, hy⟩ := hb
  rw [atMost_iff le hx hy, atMost_iff le hy hx]
  exact htotal x y

theorem isTrans_atMost (read : V → Except ε α) (le : α → α → Prop)
    (htrans : ∀ x y z, le x y → le y z → le x z) : IsTrans V (AtMost read le) where
  trans := by
    rintro a b c ⟨x, y, hx, hy, hxy⟩ ⟨y', z, hy', hz, hyz⟩
    obtain rfl := ok_unique hy hy'
    exact ⟨x, z, hx, hz, htrans x y z hxy hyz⟩

/-! ## Intervals -/

/-- The value lies in the interval, bounds included. -/
def Between (atMost : V → V → Prop) (lower upper v : V) : Prop := atMost lower v ∧ atMost v upper

variable {atMost : V → V → Prop} [IsTrans V atMost] {lower upper v : V}

/-- An interval with a value in it is not inverted. -/
theorem Between.bounds (h : Between atMost lower upper v) : atMost lower upper :=
  IsTrans.trans lower v upper h.1 h.2

/-- What is as large as a bound is in the interval. -/
theorem between_lower (hbounds : atMost lower upper) (h₁ : atMost lower v) (h₂ : atMost v lower) :
    Between atMost lower upper v :=
  ⟨h₁, IsTrans.trans v lower upper h₂ hbounds⟩

theorem between_upper (hbounds : atMost lower upper) (h₁ : atMost upper v) (h₂ : atMost v upper) :
    Between atMost lower upper v :=
  ⟨IsTrans.trans lower upper v hbounds h₁, h₂⟩

/-- A wider interval keeps what is in it. -/
theorem Between.widen {lower' upper' : V} (h : Between atMost lower upper v)
    (hlower : atMost lower' lower) (hupper : atMost upper upper') :
    Between atMost lower' upper' v :=
  ⟨IsTrans.trans lower' lower v hlower h.1, IsTrans.trans v upper upper' h.2 hupper⟩

end CgGuide.Readings
