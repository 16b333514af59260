/-
What `ValidateRange` accepts.

Each data type has its order on the values that can be read (`atMost`), and a range rule
is to accept what lies between its bounds, which is also what two comparing rules would
say. It does for all types but one: for `String` the comparison with the lower bound has
its sign flipped, and what is accepted is below both bounds. `rangeMeets_iff` says for
which values that is no difference.
-/
import CgGuide.CompareRules
import CgGuide.Readings
import Mathlib.Tactic.Ring

set_option autoImplicit false

namespace CgGuide.RangeRules

open CgGuide.DotNet CgGuide.BusinessRules CgGuide.Validation CgGuide.CompareRules
open CgGuide.Readings

variable (runtime : Runtime)

/-! ## The orders of the data types -/

/-- `string.Compare` is a total preorder. -/
structure OrdersStrings : Prop where
  swap : ∀ s t, runtime.compareStrings s t ≤ 0 ↔ 0 ≤ runtime.compareStrings t s
  trans : ∀ s t u, runtime.compareStrings s t ≤ 0 → runtime.compareStrings t u ≤ 0 →
    runtime.compareStrings s u ≤ 0

/-- Both values can be read, and the first one is at most the second. -/
def atMost : ValidationDataType → Value → Value → Prop
  | .integer => AtMost (readAs runtime int32Parse) (fun a b => a ≤ b)
  | .double => AtMost (readAs runtime runtime.doubleParse) (fun a b => a ≤ b)
  | .decimal => AtMost (readAs runtime runtime.decimalParse) (fun a b => a.lessThanEqual b = true)
  | .date => AtMost (readAs runtime runtime.dateTimeParse) (fun a b => a ≤ b)
  | .string => AtMost (readAs runtime .ok) (fun s t => runtime.compareStrings s t ≤ 0)

theorem lessThanEqual_trans (a b c : Decimal) (hab : a.lessThanEqual b = true)
    (hbc : b.lessThanEqual c = true) : a.lessThanEqual c = true := by
  unfold Decimal.lessThanEqual at *
  rw [decide_eq_true_iff] at *
  -- over the scale of `b` as well, and without it again
  have hpos : (0 : ℤ) < 10 ^ b.scale := by positivity
  refine le_of_mul_le_mul_right ?_ hpos
  calc a.coefficient * 10 ^ c.scale * 10 ^ b.scale
      = a.coefficient * 10 ^ b.scale * 10 ^ c.scale := by ring
    _ ≤ b.coefficient * 10 ^ a.scale * 10 ^ c.scale :=
        Int.mul_le_mul_of_nonneg_right hab (by positivity)
    _ = b.coefficient * 10 ^ c.scale * 10 ^ a.scale := by ring
    _ ≤ c.coefficient * 10 ^ b.scale * 10 ^ a.scale :=
        Int.mul_le_mul_of_nonneg_right hbc (by positivity)
    _ = c.coefficient * 10 ^ a.scale * 10 ^ b.scale := by ring

variable {runtime}

theorem isTrans_of_type (hstrings : OrdersStrings runtime) {dataType : ValidationDataType}
    (hdouble : dataType ≠ .double) : IsTrans Value (atMost runtime dataType) := by
  cases dataType with
  | integer => exact isTrans_atMost _ _ (fun _ _ _ => Int32.le_trans)
  | double => exact absurd rfl hdouble
  | decimal => exact isTrans_atMost _ _ lessThanEqual_trans
  | date => exact isTrans_atMost _ _ (fun _ _ _ => DateTime.le_trans)
  | string => exact isTrans_atMost _ _ hstrings.trans

/-! ## The body of `ValidateRange` -/

variable (runtime)

/-- The body for one data type, with its two comparisons. -/
def rangeBody {α : Type} (parse : String → Except Exception α) (below above : α → α → Bool)
    (o : BusinessObject) (propertyName : String) (min max : Value) : Except Exception Bool := do
  let value ← toText runtime (← o.getPropertyValue propertyName)
  let lower ← parse (← toText runtime min)
  let upper ← parse (← toText runtime max)
  let val ← parse value
  return below lower val && above val upper

/-- `Validate` of a `ValidateRange` returns true. -/
def AcceptsRange (o : BusinessObject) (propertyName : String) (min max : Value)
    (dataType : ValidationDataType) : Prop :=
  orFalse (ValidateRange.validate runtime o propertyName min max dataType) = true

/-- `Validate` does not look at the operator. -/
theorem accepts_range (o : BusinessObject) (propertyName : String) (message : Option String)
    (min max : Value) (operator : ValidationOperator) (dataType : ValidationDataType) :
    Accepts runtime o ⟨propertyName, message, .range min max operator dataType⟩
      ↔ AcceptsRange runtime o propertyName min max dataType := by
  unfold Accepts AcceptsRange BusinessRule.validate
  simp

/-- The property has a value, which lies between the bounds. -/
def InRange (o : BusinessObject) (propertyName : String) (min max : Value)
    (dataType : ValidationDataType) : Prop :=
  ∃ v, o.getPropertyValue propertyName = .ok v ∧ Between (atMost runtime dataType) min max v

variable {runtime}

/-- **What the body decides**: its two comparisons, on what the values read as. -/
theorem rangeBody_iff {α : Type} {parse : String → Except Exception α} {below above : α → α → Bool}
    {o : BusinessObject} {propertyName : String} {min max : Value} :
    orFalse (rangeBody runtime parse below above o propertyName min max) = true
      ↔ ∃ v, o.getPropertyValue propertyName = .ok v
          ∧ AtMost (readAs runtime parse) (fun a b => below a b = true) min v
          ∧ AtMost (readAs runtime parse) (fun a b => above a b = true) v max := by
  unfold rangeBody
  simp only [orFalse_bind, AtMost, readAs_eq_ok]
  constructor
  · rintro ⟨v, hv, t, ht, tmin, htmin, lower, hlower, tmax, htmax, upper, hupper, x, hx, hverdict⟩
    obtain ⟨hbelow, habove⟩ := Bool.and_eq_true_iff.mp hverdict
    exact ⟨v, hv, ⟨lower, x, ⟨tmin, htmin, hlower⟩, ⟨t, ht, hx⟩, hbelow⟩,
      ⟨x, upper, ⟨t, ht, hx⟩, ⟨tmax, htmax, hupper⟩, habove⟩⟩
  · rintro ⟨v, hv, ⟨lower, x, ⟨tmin, htmin, hlower⟩, ⟨t, ht, hx⟩, hbelow⟩,
      ⟨x', upper, ⟨t', ht', hx'⟩, ⟨tmax, htmax, hupper⟩, habove⟩⟩
    -- the value is read once
    obtain rfl := ok_unique ht ht'
    obtain rfl := ok_unique hx hx'
    exact ⟨v, hv, t, ht, tmin, htmin, lower, hlower, tmax, htmax, upper, hupper, x, hx,
      Bool.and_eq_true_iff.mpr ⟨hbelow, habove⟩⟩

section Verdicts

variable {o : BusinessObject} {propertyName : String} {min max : Value}

/-- All types but `String` accept the interval. -/
theorem acceptsRange_iff {dataType : ValidationDataType} (hstring : dataType ≠ .string) :
    AcceptsRange runtime o propertyName min max dataType
      ↔ InRange runtime o propertyName min max dataType := by
  unfold AcceptsRange InRange Between
  cases dataType with
  | string => exact absurd rfl hstring
  | integer =>
    rw [show ValidateRange.validate runtime o propertyName min max .integer
      = rangeBody runtime int32Parse (fun a b => decide (a ≤ b)) (fun a b => decide (a ≤ b))
          o propertyName min max from rfl, rangeBody_iff]
    simp only [decide_eq_true_iff, atMost]
  | double =>
    rw [show ValidateRange.validate runtime o propertyName min max .double
      = rangeBody runtime runtime.doubleParse (fun a b => decide (a ≤ b))
          (fun a b => decide (a ≤ b)) o propertyName min max from rfl, rangeBody_iff]
    simp only [decide_eq_true_iff, atMost]
  | decimal =>
    rw [show ValidateRange.validate runtime o propertyName min max .decimal
      = rangeBody runtime runtime.decimalParse Decimal.lessThanEqual Decimal.lessThanEqual
          o propertyName min max from rfl, rangeBody_iff]
    simp only [atMost]
  | date =>
    rw [show ValidateRange.validate runtime o propertyName min max .date
      = rangeBody runtime runtime.dateTimeParse (fun a b => decide (a ≤ b))
          (fun a b => decide (a ≤ b)) o propertyName min max from rfl, rangeBody_iff]
    simp only [decide_eq_true_iff, atMost]

/-- `String` has the comparison with the lower bound the other way. -/
theorem acceptsRange_string :
    AcceptsRange runtime o propertyName min max .string
      ↔ ∃ v, o.getPropertyValue propertyName = .ok v
          ∧ AtMost (readAs runtime .ok) (fun s t => 0 ≤ runtime.compareStrings s t) min v
          ∧ atMost runtime .string v max := by
  unfold AcceptsRange
  rw [show ValidateRange.validate runtime o propertyName min max .string
    = rangeBody runtime .ok (fun s t => decide (0 ≤ runtime.compareStrings s t))
        (fun s t => decide (runtime.compareStrings s t ≤ 0)) o propertyName min max from rfl,
    rangeBody_iff]
  simp only [decide_eq_true_iff, atMost]

end Verdicts

/-! ## The two comparing rules -/

section Compare

variable {o : BusinessObject} {propertyName otherPropertyName : String}

theorem compareBody_atMost {α : Type} {parse : String → Except Exception α}
    {verdict : α → α → Bool} :
    orFalse (compareBody runtime parse verdict o propertyName otherPropertyName) = true
      ↔ ∃ v₁ v₂, o.getPropertyValue propertyName = .ok v₁
          ∧ o.getPropertyValue otherPropertyName = .ok v₂
          ∧ AtMost (readAs runtime parse) (fun a b => verdict a b = true) v₁ v₂ := by
  rw [compareBody_iff]
  refine exists_congr (fun v₁ => exists_congr (fun v₂ => ?_))
  constructor
  · rintro ⟨x, y, hv₁, hv₂, h⟩
    exact ⟨hv₁, hv₂, x, y, h⟩
  · rintro ⟨hv₁, hv₂, x, y, h⟩
    exact ⟨x, y, hv₁, hv₂, h⟩

theorem compareBody_atLeast {α : Type} {parse : String → Except Exception α}
    {verdict : α → α → Bool} :
    orFalse (compareBody runtime parse verdict o propertyName otherPropertyName) = true
      ↔ ∃ v₁ v₂, o.getPropertyValue propertyName = .ok v₁
          ∧ o.getPropertyValue otherPropertyName = .ok v₂
          ∧ AtMost (readAs runtime parse) (fun b a => verdict a b = true) v₂ v₁ := by
  rw [compareBody_atMost]
  refine exists_congr (fun v₁ => exists_congr (fun v₂ => ?_))
  rw [← atMost_flip]

theorem acceptsCompare_lessThanEqual (dataType : ValidationDataType) :
    AcceptsCompare runtime o propertyName otherPropertyName .lessThanEqual dataType
      ↔ ∃ v₁ v₂, o.getPropertyValue propertyName = .ok v₁
          ∧ o.getPropertyValue otherPropertyName = .ok v₂ ∧ atMost runtime dataType v₁ v₂ := by
  unfold AcceptsCompare
  cases dataType with
  | integer =>
    rw [validate_integer, compareBody_atMost]
    simp only [ValidationOperator.holds, decide_eq_true_iff, atMost]
  | double =>
    rw [validate_double, compareBody_atMost]
    simp only [ValidationOperator.holds, decide_eq_true_iff, atMost]
  | decimal =>
    rw [validate_decimal, compareBody_atMost]
    simp only [ValidationOperator.holds, atMost]
  | date =>
    rw [validate_date, compareBody_atMost]
    simp only [ValidationOperator.holds, decide_eq_true_iff, atMost]
  | string =>
    rw [validate_string, compareBody_atMost]
    simp only [ValidationOperator.holds, decide_eq_true_iff, atMost]

theorem acceptsCompare_greaterThanEqual (hstrings : OrdersStrings runtime)
    (dataType : ValidationDataType) :
    AcceptsCompare runtime o propertyName otherPropertyName .greaterThanEqual dataType
      ↔ ∃ v₁ v₂, o.getPropertyValue propertyName = .ok v₁
          ∧ o.getPropertyValue otherPropertyName = .ok v₂ ∧ atMost runtime dataType v₂ v₁ := by
  unfold AcceptsCompare
  cases dataType with
  | integer =>
    rw [validate_integer, compareBody_atLeast]
    simp only [ValidationOperator.holds, decide_eq_true_iff, atMost]
  | double =>
    rw [validate_double, compareBody_atLeast]
    simp only [ValidationOperator.holds, decide_eq_true_iff, atMost]
  | decimal =>
    rw [validate_decimal, compareBody_atLeast]
    simp only [ValidationOperator.holds, atMost]
  | date =>
    rw [validate_date, compareBody_atLeast]
    simp only [ValidationOperator.holds, decide_eq_true_iff, atMost]
  | string =>
    rw [validate_string, compareBody_atLeast]
    simp only [ValidationOperator.holds, decide_eq_true_iff, atMost,
      ← hstrings.swap]

end Compare

/-! ## What is asked of a range rule -/

/-- The rule decides by its range, whatever its message and its operator, and as the two
comparing rules do; so it accepts both bounds, nothing when they are inverted, and what a
narrower range accepts. -/
structure RangeMeets (runtime : Runtime) (o : BusinessObject) (propertyName : String)
    (min max : Value) (dataType : ValidationDataType) : Prop where
  exact : ∀ message operator,
    Accepts runtime o ⟨propertyName, message, .range min max operator dataType⟩
      ↔ InRange runtime o propertyName min max dataType
  compare : ∀ minName maxName, o.getPropertyValue minName = .ok min →
    o.getPropertyValue maxName = .ok max →
    (AcceptsRange runtime o propertyName min max dataType
      ↔ AcceptsCompare runtime o propertyName minName .greaterThanEqual dataType
        ∧ AcceptsCompare runtime o propertyName maxName .lessThanEqual dataType)
  bounds : atMost runtime dataType min max → ∀ v, o.getPropertyValue propertyName = .ok v →
    atMost runtime dataType min v ∧ atMost runtime dataType v min
      ∨ atMost runtime dataType max v ∧ atMost runtime dataType v max →
    AcceptsRange runtime o propertyName min max dataType
  inverted : ¬ atMost runtime dataType min max →
    ¬ AcceptsRange runtime o propertyName min max dataType
  widened : ∀ min' max', atMost runtime dataType min min' → atMost runtime dataType max' max →
    AcceptsRange runtime o propertyName min' max' dataType →
    AcceptsRange runtime o propertyName min max dataType

/-- The value and the bounds are there, and these are their texts. -/
structure Texts (runtime : Runtime) (o : BusinessObject) (propertyName : String) (min max : Value)
    (value lower upper : String) : Prop where
  value : ∃ v, o.getPropertyValue propertyName = .ok v ∧ toText runtime v = .ok value
  lower : toText runtime min = .ok lower
  upper : toText runtime max = .ok upper

/-- Where the flipped comparison is no difference: the value is above the upper bound
anyhow, or it compares equal to the lower one. -/
def FlipUnseen (runtime : Runtime) (o : BusinessObject) (propertyName : String)
    (min max : Value) : Prop :=
  ∀ value lower upper, Texts runtime o propertyName min max value lower upper →
    0 < runtime.compareStrings value upper ∨ runtime.compareStrings lower value = 0

section Main

variable {o : BusinessObject} {propertyName : String} {min max : Value}
  {dataType : ValidationDataType}

/-- All of it but the last part follows from the first. -/
theorem meets_of_exact (hstrings : OrdersStrings runtime) (hdouble : dataType ≠ .double)
    (hexact : AcceptsRange runtime o propertyName min max dataType
      ↔ InRange runtime o propertyName min max dataType)
    (hwidened : ∀ min' max', atMost runtime dataType min min' → atMost runtime dataType max' max →
      AcceptsRange runtime o propertyName min' max' dataType →
      AcceptsRange runtime o propertyName min max dataType) :
    RangeMeets runtime o propertyName min max dataType := by
  have htrans := isTrans_of_type hstrings hdouble
  refine ⟨fun _ _ => (accepts_range ..).trans hexact, ?_, ?_, ?_, hwidened⟩
  · intro minName maxName hmin hmax
    rw [hexact, acceptsCompare_greaterThanEqual hstrings, acceptsCompare_lessThanEqual]
    simp only [hmin, hmax, Except.ok.injEq]
    constructor
    · rintro ⟨v, hv, hlower, hupper⟩
      exact ⟨⟨v, min, hv, rfl, hlower⟩, ⟨v, max, hv, rfl, hupper⟩⟩
    · rintro ⟨⟨v, _, hv, rfl, hlower⟩, ⟨v', _, hv', rfl, hupper⟩⟩
      obtain rfl := ok_unique hv hv'
      exact ⟨v, hv, hlower, hupper⟩
  · rintro hle v hv (⟨h₁, h₂⟩ | ⟨h₁, h₂⟩)
    · exact hexact.mpr ⟨v, hv, between_lower hle h₁ h₂⟩
    · exact hexact.mpr ⟨v, hv, between_upper hle h₁ h₂⟩
  · intro hinverted haccepts
    obtain ⟨v, -, hbetween⟩ := hexact.mp haccepts
    exact hinverted hbetween.bounds

/-- The types whose comparisons are the right way round. -/
theorem meets_of_ne_string (hstrings : OrdersStrings runtime) (hdouble : dataType ≠ .double)
    (hstring : dataType ≠ .string) : RangeMeets runtime o propertyName min max dataType := by
  refine meets_of_exact hstrings hdouble (acceptsRange_iff hstring) ?_
  intro min' max' hmin hmax haccepts
  rw [acceptsRange_iff hstring] at haccepts ⊢
  obtain ⟨v, hv, hbetween⟩ := haccepts
  have htrans := isTrans_of_type hstrings hdouble
  exact ⟨v, hv, hbetween.widen hmin hmax⟩

theorem Texts.unique {value lower upper value' lower' upper' : String}
    (h : Texts runtime o propertyName min max value lower upper)
    (h' : Texts runtime o propertyName min max value' lower' upper') :
    value' = value ∧ lower' = lower ∧ upper' = upper := by
  obtain ⟨⟨v, hv, hvalue⟩, hlower, hupper⟩ := h
  obtain ⟨⟨v', hv', hvalue'⟩, hlower', hupper'⟩ := h'
  obtain rfl := ok_unique hv hv'
  exact ⟨ok_unique hvalue' hvalue, ok_unique hlower' hlower, ok_unique hupper' hupper⟩

theorem readAs_text (v : Value) : readAs runtime .ok v = toText runtime v := by
  unfold readAs
  cases toText runtime v with
  | error e => rfl
  | ok text => rfl

/-- Two comparisons on what is read from strings are comparisons of the texts. -/
theorem exists_texts_iff (below above : String → String → Prop) :
    (∃ v, o.getPropertyValue propertyName = .ok v ∧ AtMost (readAs runtime .ok) below min v
        ∧ AtMost (readAs runtime .ok) above v max)
      ↔ ∃ value lower upper, Texts runtime o propertyName min max value lower upper
          ∧ below lower value ∧ above value upper := by
  simp only [AtMost, readAs_text]
  constructor
  · rintro ⟨v, hv, ⟨lower, value, hlower, hvalue, hbelow⟩, ⟨value', upper, hvalue', hupper, habove⟩⟩
    obtain rfl := ok_unique hvalue hvalue'
    exact ⟨value, lower, upper, ⟨⟨v, hv, hvalue⟩, hlower, hupper⟩, hbelow, habove⟩
  · rintro ⟨value, lower, upper, ⟨⟨v, hv, hvalue⟩, hlower, hupper⟩, hbelow, habove⟩
    exact ⟨v, hv, ⟨lower, value, hlower, hvalue, hbelow⟩, ⟨value, upper, hvalue, hupper, habove⟩⟩

/-- **`String`**: the rule decides by its range exactly where the flip is unseen. -/
theorem exact_string_iff :
    (AcceptsRange runtime o propertyName min max .string
        ↔ InRange runtime o propertyName min max .string)
      ↔ FlipUnseen runtime o propertyName min max := by
  unfold InRange Between
  rw [acceptsRange_string]
  unfold atMost
  rw [exists_texts_iff, exists_texts_iff]
  constructor
  · intro h value lower upper htexts
    by_cases habove : 0 < runtime.compareStrings value upper
    · exact Or.inl habove
    right
    have hupper : runtime.compareStrings value upper ≤ 0 := by omega
    by_cases hbelow : runtime.compareStrings lower value ≤ 0
    · -- in the range, so accepted: below the lower bound as well
      obtain ⟨value', lower', upper', htexts', haccepted, -⟩ :=
        h.mpr ⟨value, lower, upper, htexts, hbelow, hupper⟩
      obtain ⟨rfl, rfl, rfl⟩ := htexts.unique htexts'
      omega
    · obtain ⟨value', lower', upper', htexts', hranged, -⟩ :=
        h.mp ⟨value, lower, upper, htexts, by omega, hupper⟩
      obtain ⟨rfl, rfl, rfl⟩ := htexts.unique htexts'
      omega
  · intro h
    constructor
    · rintro ⟨value, lower, upper, htexts, hflipped, hupper⟩
      rcases h value lower upper htexts with habove | hequal
      · omega
      · exact ⟨value, lower, upper, htexts, by omega, hupper⟩
    · rintro ⟨value, lower, upper, htexts, hlower, hupper⟩
      rcases h value lower upper htexts with habove | hequal
      · omega
      · exact ⟨value, lower, upper, htexts, by omega, hupper⟩

/-- A narrower range accepts only what is at most its upper bound, flip or not. -/
theorem widened_string (hstrings : OrdersStrings runtime)
    (h : FlipUnseen runtime o propertyName min max) (min' max' : Value)
    (hmin : atMost runtime .string min min') (hmax : atMost runtime .string max' max)
    (haccepts : AcceptsRange runtime o propertyName min' max' .string) :
    AcceptsRange runtime o propertyName min max .string := by
  have htrans : IsTrans Value (atMost runtime .string) := isTrans_of_type hstrings (by decide)
  rw [acceptsRange_string] at haccepts ⊢
  obtain ⟨v, hv, -, hupper'⟩ := haccepts
  have hupper : atMost runtime .string v max := IsTrans.trans v max' max hupper' hmax
  obtain ⟨lower, -, hlower, -, -⟩ := hmin
  obtain ⟨value, upper, hvalue, hupperText, hle⟩ := hupper
  refine ⟨v, hv, ⟨lower, value, hlower, hvalue, ?_⟩, ⟨value, upper, hvalue, hupperText, hle⟩⟩
  rw [readAs_text] at hlower hvalue hupperText
  rcases h value lower upper ⟨⟨v, hv, hvalue⟩, hlower, hupperText⟩ with habove | hequal
  · omega
  · omega

/-- **What a range rule is asked for, it does** for every type but `String`, and for
`String` on the values where the flip is unseen. -/
theorem rangeMeets_iff (hstrings : OrdersStrings runtime) (hdouble : dataType ≠ .double) :
    RangeMeets runtime o propertyName min max dataType
      ↔ (dataType = .string → FlipUnseen runtime o propertyName min max) := by
  by_cases hstring : dataType = .string
  · subst hstring
    rw [forall_prop_of_true rfl]
    constructor
    · intro h
      exact exact_string_iff.mp ((accepts_range ..).symm.trans (h.exact none .equal))
    · intro h
      exact meets_of_exact hstrings hdouble (exact_string_iff.mpr h) (widened_string hstrings h)
  · exact iff_of_true (meets_of_ne_string hstrings hdouble hstring) (fun h => absurd h hstring)

end Main

theorem ordersStrings_textRuntime : OrdersStrings textRuntime := by
  have hcompare : ∀ s t, textRuntime.compareStrings s t
      = if s < t then -1 else if s = t then 0 else 1 := fun _ _ => rfl
  have hle : ∀ s t, textRuntime.compareStrings s t ≤ 0 ↔ s ≤ t := by
    intro s t
    rw [hcompare]
    split_ifs with hlt heq
    · exact iff_of_true (by decide) (fun h => String.lt_asymm h hlt)
    · subst heq
      exact iff_of_true (by decide) (String.le_refl s)
    · exact iff_of_false (by decide) (fun h => heq (String.le_antisymm h (String.not_lt.mp hlt)))
  have hge : ∀ s t, 0 ≤ textRuntime.compareStrings s t ↔ t ≤ s := by
    intro s t
    rw [hcompare]
    split_ifs with hlt heq
    · exact iff_of_false (by decide) (fun h => String.not_lt.mpr h hlt)
    · subst heq
      exact iff_of_true (by decide) (String.le_refl s)
    · exact iff_of_true (by decide) (String.not_lt.mp hlt)
  refine ⟨fun s t => ?_, fun s t u hst htu => ?_⟩
  · rw [hle, hge]
  · rw [hle] at *
    exact String.le_trans hst htu

/-- A value that is the lower bound is in its range. -/
theorem rangeMeets_lower :
    RangeMeets textRuntime (pairObject (.string "b") .null) "First" (.string "b") (.string "c")
      .string := by
  refine (rangeMeets_iff ordersStrings_textRuntime (by decide)).mpr (fun _ => ?_)
  intro value lower upper htexts
  have hthese : Texts textRuntime (pairObject (.string "b") .null) "First" (.string "b")
      (.string "c") "b" "b" "c" := ⟨⟨.string "b", rfl, rfl⟩, rfl, rfl⟩
  obtain ⟨rfl, rfl, rfl⟩ := hthese.unique htexts
  exact Or.inr (by decide)

/-- A text between the bounds is not. -/
theorem between_not_accepted :
    OrdersStrings textRuntime
      ∧ ¬ RangeMeets textRuntime (pairObject (.string "b") .null) "First" (.string "a")
        (.string "c") .string := by
  refine ⟨ordersStrings_textRuntime, fun h => ?_⟩
  have hinRange : InRange textRuntime (pairObject (.string "b") .null) "First" (.string "a")
      (.string "c") .string :=
    ⟨.string "b", rfl, ⟨"a", "b", rfl, rfl, by decide⟩, ⟨"b", "c", rfl, rfl, by decide⟩⟩
  exact absurd ((h.exact none .equal).mpr hinRange) (by decide)

end CgGuide.RangeRules
