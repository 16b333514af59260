/-
The six operators of `ValidateCompare` together.

Each operator has its own `return` for each data type. They belong together all the same:
on values whose texts parse, every operator says what it says of one total preorder
(`acceptsCompare_means`), the one that the ranges use as well. What is left is about total
preorders, where one of two values comes first or they are equal.
-/
import CgGuide.RangeRules

set_option autoImplicit false

namespace CgGuide.CompareLaws

open CgGuide.DotNet CgGuide.BusinessRules CgGuide.Validation CgGuide.CompareRules
open CgGuide.Readings CgGuide.RangeRules

/-! ## Operators on a total preorder -/

/-- The operator that says the same with its operands exchanged. -/
def mirror : ValidationOperator → ValidationOperator
  | .equal => .equal
  | .notEqual => .notEqual
  | .greaterThan => .lessThan
  | .greaterThanEqual => .lessThanEqual
  | .lessThan => .greaterThan
  | .lessThanEqual => .greaterThanEqual

/-- The operators fit together on one pair of operands. -/
structure Laws (holds : ValidationOperator → Prop) : Prop where
  some : holds .lessThan ∨ holds .equal ∨ holds .greaterThan
  notBoth : ¬ (holds .lessThan ∧ holds .equal) ∧ ¬ (holds .lessThan ∧ holds .greaterThan)
    ∧ ¬ (holds .equal ∧ holds .greaterThan)
  notEqual : holds .notEqual ↔ ¬ holds .equal
  greaterThanEqual : holds .greaterThanEqual ↔ holds .greaterThan ∨ holds .equal
  lessThanEqual : holds .lessThanEqual ↔ holds .lessThan ∨ holds .equal

section Means

variable {α : Type*} {le : α → α → Prop} {a b : α}

/-- What the operator says where `le` is "at most". -/
def means (le : α → α → Prop) (operator : ValidationOperator) (a b : α) : Prop :=
  match operator with
  | .equal => le a b ∧ le b a
  | .notEqual => ¬ (le a b ∧ le b a)
  | .greaterThan => ¬ le a b
  | .greaterThanEqual => le b a
  | .lessThan => ¬ le b a
  | .lessThanEqual => le a b

theorem means_mirror (operator : ValidationOperator) :
    means le (mirror operator) b a ↔ means le operator a b := by
  unfold means
  cases operator with
  | equal => exact and_comm
  | notEqual => exact not_congr and_comm
  | greaterThan => exact Iff.rfl
  | greaterThanEqual => exact Iff.rfl
  | lessThan => exact Iff.rfl
  | lessThanEqual => exact Iff.rfl

/-- Two that are in order, one way or the other, are under the laws. -/
theorem laws_means (h : le a b ∨ le b a) : Laws (fun operator => means le operator a b) := by
  unfold means
  by_cases hab : le a b
  · by_cases hba : le b a
    · constructor <;> simp [hab, hba]
    · constructor <;> simp [hab, hba]
  · have hba : le b a := h.resolve_left hab
    constructor <;> simp [hab, hba]

/-- Nothing but the two comparisons counts. -/
theorem means_congr {β : Type*} {le' : β → β → Prop} {c d : β} (operator : ValidationOperator)
    (h₁ : le a b ↔ le' c d) (h₂ : le b a ↔ le' d c) :
    means le operator a b ↔ means le' operator c d := by
  unfold means
  rw [h₁, h₂]

end Means

/-! ## The orders of the data types -/

variable {runtime : Runtime}

/-- The text of the value parses under the type; `null` has no text. -/
def Parses (runtime : Runtime) : ValidationDataType → Value → Prop
  | .integer, v => ∃ n, readAs runtime int32Parse v = .ok n
  | .double, v => ∃ x, readAs runtime runtime.doubleParse v = .ok x
  | .decimal, v => ∃ d, readAs runtime runtime.decimalParse v = .ok d
  | .date, v => ∃ t, readAs runtime runtime.dateTimeParse v = .ok t
  | .string, v => ∃ s, readAs runtime .ok v = .ok s

theorem atMost_total_of_type (hstrings : OrdersStrings runtime) {dataType : ValidationDataType}
    (hdouble : dataType ≠ .double) {v₁ v₂ : Value} (h₁ : Parses runtime dataType v₁)
    (h₂ : Parses runtime dataType v₂) :
    atMost runtime dataType v₁ v₂ ∨ atMost runtime dataType v₂ v₁ := by
  cases dataType with
  | integer => exact atMost_total Int32.le_total h₁ h₂
  | double => exact absurd rfl hdouble
  | decimal =>
    refine atMost_total (fun a b => ?_) h₁ h₂
    unfold Decimal.lessThanEqual
    rw [decide_eq_true_iff, decide_eq_true_iff]
    exact Int.le_total _ _
  | date => exact atMost_total DateTime.le_total h₁ h₂
  | string =>
    refine atMost_total (fun s t => ?_) h₁ h₂
    rw [hstrings.swap t s]
    exact Int.le_total _ _

/-! ### The comparisons of each type -/

theorem holds_int32 (operator : ValidationOperator) (a b : Int32) :
    operator.holds (fun a b => decide (a = b)) (fun a b => decide (a < b))
        (fun a b => decide (a ≤ b)) a b = true
      ↔ means (fun a b : Int32 => a ≤ b) operator a b := by
  unfold ValidationOperator.holds means
  simp only [Int32.le_iff_toInt_le, Int32.lt_iff_toInt_lt, ← Int32.toInt_inj]
  cases operator <;> simp <;> omega

theorem holds_decimal (operator : ValidationOperator) (a b : Decimal) :
    operator.holds Decimal.equal Decimal.lessThan Decimal.lessThanEqual a b = true
      ↔ means (fun a b => a.lessThanEqual b = true) operator a b := by
  unfold ValidationOperator.holds means Decimal.equal Decimal.lessThan Decimal.lessThanEqual
  simp only [decide_eq_true_iff]
  generalize a.coefficient * 10 ^ b.scale = x, b.coefficient * 10 ^ a.scale = y
  cases operator <;> simp <;> omega

theorem holds_dateTime (operator : ValidationOperator) (a b : DateTime) :
    operator.holds (fun a b => decide (a = b)) (fun a b => decide (a.ticks < b.ticks))
        (fun a b => decide (a ≤ b)) a b = true
      ↔ means (fun a b : DateTime => a ≤ b) operator a b := by
  have hle : ∀ s t : DateTime, s ≤ t ↔ s.ticks ≤ t.ticks := fun _ _ => Iff.rfl
  unfold ValidationOperator.holds means
  simp only [eq_iff_ticks, hle]
  cases operator <;> simp <;> omega

/-- The sign of the result against the result with the texts exchanged. -/
theorem holds_strings (hstrings : OrdersStrings runtime) (operator : ValidationOperator)
    (s t : String) :
    operator.holds (fun a b : ℤ => decide (a = b)) (fun a b => decide (a < b))
        (fun a b => decide (a ≤ b)) (runtime.compareStrings s t) 0 = true
      ↔ means (fun s t => runtime.compareStrings s t ≤ 0) operator s t := by
  unfold ValidationOperator.holds means
  simp only [hstrings.swap t s]
  cases operator <;> simp <;> omega

/-! ## What the rule says of its operands -/

section Rule

variable {o : BusinessObject} {propertyName otherPropertyName : String}

theorem compareBody_means {α : Type} {parse : String → Except Exception α}
    {verdict : ValidationOperator → α → α → Bool} {le : α → α → Prop}
    (hverdict : ∀ operator a b, verdict operator a b = true ↔ means le operator a b)
    (operator : ValidationOperator) :
    orFalse (compareBody runtime parse (verdict operator) o propertyName otherPropertyName) = true
      ↔ ∃ v₁ v₂, o.getPropertyValue propertyName = .ok v₁
          ∧ o.getPropertyValue otherPropertyName = .ok v₂
          ∧ (∃ x, readAs runtime parse v₁ = .ok x) ∧ (∃ y, readAs runtime parse v₂ = .ok y)
          ∧ means (AtMost (readAs runtime parse) le) operator v₁ v₂ := by
  rw [compareBody_iff]
  refine exists_congr (fun v₁ => exists_congr (fun v₂ => ?_))
  have hmeans : ∀ {x y}, readAs runtime parse v₁ = .ok x → readAs runtime parse v₂ = .ok y →
      (means (AtMost (readAs runtime parse) le) operator v₁ v₂ ↔ verdict operator x y = true) := by
    intro x y hx hy
    rw [hverdict]
    exact means_congr operator (atMost_iff le hx hy) (atMost_iff le hy hx)
  constructor
  · rintro ⟨x, y, hv₁, hv₂, hx, hy, hholds⟩
    exact ⟨hv₁, hv₂, ⟨x, hx⟩, ⟨y, hy⟩, (hmeans hx hy).mpr hholds⟩
  · rintro ⟨hv₁, hv₂, ⟨x, hx⟩, ⟨y, hy⟩, hholds⟩
    exact ⟨x, y, hv₁, hv₂, hx, hy, (hmeans hx hy).mp hholds⟩

/-- **What each operator decides**: both texts parse, and it holds in the order of the
type. -/
theorem acceptsCompare_means (hstrings : OrdersStrings runtime) {dataType : ValidationDataType}
    (hdouble : dataType ≠ .double) (operator : ValidationOperator) :
    AcceptsCompare runtime o propertyName otherPropertyName operator dataType
      ↔ ∃ v₁ v₂, o.getPropertyValue propertyName = .ok v₁
          ∧ o.getPropertyValue otherPropertyName = .ok v₂
          ∧ Parses runtime dataType v₁ ∧ Parses runtime dataType v₂
          ∧ means (atMost runtime dataType) operator v₁ v₂ := by
  unfold AcceptsCompare
  cases dataType with
  | integer => exact compareBody_means holds_int32 operator
  | double => exact absurd rfl hdouble
  | decimal => exact compareBody_means holds_decimal operator
  | date => exact compareBody_means holds_dateTime operator
  | string =>
    rw [validate_string]
    exact compareBody_means (holds_strings hstrings) operator

/-- The property has a value, whose text parses. -/
def TextParses (runtime : Runtime) (o : BusinessObject) (propertyName : String)
    (dataType : ValidationDataType) : Prop :=
  ∃ v, o.getPropertyValue propertyName = .ok v ∧ Parses runtime dataType v

theorem not_textParses_null (dataType : ValidationDataType)
    (hnull : o.getPropertyValue propertyName = .ok .null) :
    ¬ TextParses runtime o propertyName dataType := by
  rintro ⟨v, hv, hparses⟩
  obtain rfl := ok_unique hnull hv
  cases dataType <;> exact readAs_null hparses.choose hparses.choose_spec

instance (operator : ValidationOperator) (dataType : ValidationDataType) :
    Decidable (AcceptsCompare runtime o propertyName otherPropertyName operator dataType) :=
  inferInstanceAs (Decidable (orFalse _ = true))

end Rule

/-! ## What is asked of the six operators -/

/-- On two texts that parse the operators are under the laws, and otherwise all reject.
Each has a mirror, and none throws, whatever its message. -/
structure Consistent (runtime : Runtime) (o : BusinessObject)
    (propertyName otherPropertyName : String) (dataType : ValidationDataType) : Prop where
  laws : TextParses runtime o propertyName dataType →
    TextParses runtime o otherPropertyName dataType →
    Laws (fun operator =>
      AcceptsCompare runtime o propertyName otherPropertyName operator dataType)
  mirrored : ∀ operator,
    AcceptsCompare runtime o otherPropertyName propertyName (mirror operator) dataType
      ↔ AcceptsCompare runtime o propertyName otherPropertyName operator dataType
  null : o.getPropertyValue propertyName = .ok .null
      ∨ o.getPropertyValue otherPropertyName = .ok .null →
    ∀ operator, ¬ AcceptsCompare runtime o propertyName otherPropertyName operator dataType
  unparsed : ¬ TextParses runtime o propertyName dataType
      ∨ ¬ TextParses runtime o otherPropertyName dataType →
    ∀ operator, ¬ AcceptsCompare runtime o propertyName otherPropertyName operator dataType
  verdict : ∀ message operator,
    (BusinessRule.validate runtime o
        ⟨propertyName, message, .compare otherPropertyName operator dataType⟩).1
      = .ok (decide (AcceptsCompare runtime o propertyName otherPropertyName operator dataType))

section Main

variable {o : BusinessObject} {propertyName otherPropertyName : String}
  {dataType : ValidationDataType}

theorem laws_of_textParses (hstrings : OrdersStrings runtime) (hdouble : dataType ≠ .double)
    (h₁ : TextParses runtime o propertyName dataType)
    (h₂ : TextParses runtime o otherPropertyName dataType) :
    Laws (fun operator =>
      AcceptsCompare runtime o propertyName otherPropertyName operator dataType) := by
  obtain ⟨v₁, hv₁, hparses₁⟩ := h₁
  obtain ⟨v₂, hv₂, hparses₂⟩ := h₂
  have hmeans : (fun operator =>
        AcceptsCompare runtime o propertyName otherPropertyName operator dataType)
      = fun operator => means (atMost runtime dataType) operator v₁ v₂ := by
    funext operator
    rw [acceptsCompare_means hstrings hdouble]
    simp [hv₁, hv₂, hparses₁, hparses₂]
  rw [hmeans]
  exact laws_means (atMost_total_of_type hstrings hdouble hparses₁ hparses₂)

theorem acceptsCompare_mirror (hstrings : OrdersStrings runtime) (hdouble : dataType ≠ .double)
    (operator : ValidationOperator) :
    AcceptsCompare runtime o otherPropertyName propertyName (mirror operator) dataType
      ↔ AcceptsCompare runtime o propertyName otherPropertyName operator dataType := by
  rw [acceptsCompare_means hstrings hdouble, acceptsCompare_means hstrings hdouble]
  constructor
  · rintro ⟨v₂, v₁, hv₂, hv₁, h₂, h₁, hmeans⟩
    exact ⟨v₁, v₂, hv₁, hv₂, h₁, h₂, (means_mirror operator).mp hmeans⟩
  · rintro ⟨v₁, v₂, hv₁, hv₂, h₁, h₂, hmeans⟩
    exact ⟨v₂, v₁, hv₂, hv₁, h₂, h₁, (means_mirror operator).mpr hmeans⟩

theorem not_acceptsCompare (hstrings : OrdersStrings runtime) (hdouble : dataType ≠ .double)
    (h : ¬ TextParses runtime o propertyName dataType
      ∨ ¬ TextParses runtime o otherPropertyName dataType) (operator : ValidationOperator) :
    ¬ AcceptsCompare runtime o propertyName otherPropertyName operator dataType := by
  rw [acceptsCompare_means hstrings hdouble]
  rintro ⟨v₁, v₂, hv₁, hv₂, h₁, h₂, -⟩
  rcases h with h | h
  · exact h ⟨v₁, hv₁, h₁⟩
  · exact h ⟨v₂, hv₂, h₂⟩

/-- **The six operators fit together**, for every type but `Double`. -/
theorem consistent (hstrings : OrdersStrings runtime) (o : BusinessObject)
    (propertyName otherPropertyName : String) (dataType : ValidationDataType)
    (hdouble : dataType ≠ .double) :
    Consistent runtime o propertyName otherPropertyName dataType where
  laws := laws_of_textParses hstrings hdouble
  mirrored := acceptsCompare_mirror hstrings hdouble
  null h := not_acceptsCompare hstrings hdouble
    (h.imp (not_textParses_null dataType) (not_textParses_null dataType))
  unparsed := not_acceptsCompare hstrings hdouble
  verdict message operator := by
    unfold BusinessRule.validate AcceptsCompare
    exact congrArg Except.ok Bool.decide_eq_true.symm

/-- On two texts, with strings that are in order. -/
theorem consistent_strings :
    Consistent textRuntime (pairObject (.string "a") (.string "b")) "First" "Second" .string :=
  consistent ordersStrings_textRuntime (pairObject (.string "a") (.string "b")) "First" "Second"
    .string (by decide)

end Main

end CgGuide.CompareLaws
