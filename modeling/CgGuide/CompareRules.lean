/-
What `ValidateCompare` compares.

A comparing rule prints its operands and parses the texts again. The body of the rule
has one shape for all data types (`compareBody`), with the parser and the comparison of
the type, so what it decides is the operator on what the texts read as
(`compareBody_iff`). An `int`, a `decimal` and a `string` read as themselves; a
`DateTime` is printed without the fraction of its second. `compares_iff` says when that
makes no difference.
-/
import CgGuide.Validation

set_option autoImplicit false

namespace CgGuide.CompareRules

open CgGuide.DotNet CgGuide.BusinessRules CgGuide.Validation

variable (runtime : Runtime)

/-! ## Readings -/

section Readings

variable {α : Type} (parse : String → Except Exception α)

/-- What a rule reads from a value: its text, parsed. -/
def readAs (v : Value) : Except Exception α := do
  let text ← toText runtime v
  parse text

variable {runtime parse}

theorem readAs_eq_ok {v : Value} {x : α} :
    readAs runtime parse v = .ok x ↔ ∃ text, toText runtime v = .ok text ∧ parse text = .ok x := by
  unfold readAs
  cases toText runtime v with
  | error e => simp
  | ok text => simp

theorem readAs_null (x : α) : readAs runtime parse .null ≠ .ok x := by
  intro h
  obtain ⟨text, htext, -⟩ := readAs_eq_ok.mp h
  exact (nomatch htext)

/-- A body gets to its verdict through every call before it. -/
theorem orFalse_bind (x : Except Exception α) (f : α → Except Exception Bool) :
    orFalse (x >>= f) = true ↔ ∃ a, x = .ok a ∧ orFalse (f a) = true := by
  cases x with
  | error e => simp [orFalse]
  | ok a => simp

end Readings

/-! ## The body of `ValidateCompare` -/

/-- The body for one data type. -/
def compareBody {α : Type} (parse : String → Except Exception α) (verdict : α → α → Bool)
    (o : BusinessObject) (propertyName otherPropertyName : String) : Except Exception Bool := do
  let propValue1 ← toText runtime (← o.getPropertyValue propertyName)
  let propValue2 ← toText runtime (← o.getPropertyValue otherPropertyName)
  let val1 ← parse propValue1
  let val2 ← parse propValue2
  return verdict val1 val2

/-- `Validate` of a `ValidateCompare` returns true. -/
def AcceptsCompare (o : BusinessObject) (propertyName otherPropertyName : String)
    (operator : ValidationOperator) (dataType : ValidationDataType) : Prop :=
  orFalse (ValidateCompare.validate runtime o propertyName otherPropertyName operator dataType)
    = true

theorem accepts_compare (o : BusinessObject) (propertyName otherPropertyName : String)
    (message : Option String) (operator : ValidationOperator) (dataType : ValidationDataType) :
    Accepts runtime o ⟨propertyName, message, .compare otherPropertyName operator dataType⟩
      ↔ AcceptsCompare runtime o propertyName otherPropertyName operator dataType := by
  unfold Accepts AcceptsCompare BusinessRule.validate
  simp

section Bodies

variable (o : BusinessObject) (propertyName otherPropertyName : String)
  (operator : ValidationOperator)

theorem validate_integer :
    ValidateCompare.validate runtime o propertyName otherPropertyName operator .integer
      = compareBody runtime int32Parse (operator.holds (fun a b => decide (a = b))
          (fun a b => decide (a < b)) (fun a b => decide (a ≤ b)))
          o propertyName otherPropertyName := rfl

theorem validate_double :
    ValidateCompare.validate runtime o propertyName otherPropertyName operator .double
      = compareBody runtime runtime.doubleParse (operator.holds (fun a b => a == b)
          (fun a b => decide (a < b)) (fun a b => decide (a ≤ b)))
          o propertyName otherPropertyName := rfl

theorem validate_decimal :
    ValidateCompare.validate runtime o propertyName otherPropertyName operator .decimal
      = compareBody runtime runtime.decimalParse
          (operator.holds Decimal.equal Decimal.lessThan Decimal.lessThanEqual)
          o propertyName otherPropertyName := rfl

theorem validate_date :
    ValidateCompare.validate runtime o propertyName otherPropertyName operator .date
      = compareBody runtime runtime.dateTimeParse (operator.holds (fun a b => decide (a = b))
          (fun a b => decide (a.ticks < b.ticks)) (fun a b => decide (a ≤ b)))
          o propertyName otherPropertyName := rfl

/-- The text of a string is read as it is. -/
theorem validate_string :
    ValidateCompare.validate runtime o propertyName otherPropertyName operator .string
      = compareBody runtime .ok (fun s t => operator.holds (fun a b : ℤ => decide (a = b))
          (fun a b => decide (a < b)) (fun a b => decide (a ≤ b)) (runtime.compareStrings s t) 0)
          o propertyName otherPropertyName := rfl

end Bodies

variable {runtime}

/-- **What the body decides**: the comparison of what the two values read as. -/
theorem compareBody_iff {α : Type} {parse : String → Except Exception α} {verdict : α → α → Bool}
    {o : BusinessObject} {propertyName otherPropertyName : String} :
    orFalse (compareBody runtime parse verdict o propertyName otherPropertyName) = true
      ↔ ∃ v₁ v₂ x y, o.getPropertyValue propertyName = .ok v₁
          ∧ o.getPropertyValue otherPropertyName = .ok v₂
          ∧ readAs runtime parse v₁ = .ok x ∧ readAs runtime parse v₂ = .ok y
          ∧ verdict x y = true := by
  unfold compareBody
  simp only [orFalse_bind, readAs_eq_ok]
  constructor
  · rintro ⟨v₁, hv₁, t₁, ht₁, v₂, hv₂, t₂, ht₂, x, hx, y, hy, hverdict⟩
    exact ⟨v₁, v₂, x, y, hv₁, hv₂, ⟨t₁, ht₁, hx⟩, ⟨t₂, ht₂, hy⟩, hverdict⟩
  · rintro ⟨v₁, v₂, x, y, hv₁, hv₂, ⟨t₁, ht₁, hx⟩, ⟨t₂, ht₂, hy⟩, hverdict⟩
    exact ⟨v₁, hv₁, t₁, ht₁, v₂, hv₂, t₂, ht₂, x, hx, y, hy, hverdict⟩

/-! ## Properties of the type that is compared -/

/-- `TimeSpan.TicksPerSecond`. -/
abbrev ticksPerSecond : ℕ := 10000000

/-- The time without the fraction of its second. -/
def wholeSeconds (t : DateTime) : DateTime where
  ticks := t.ticks / ticksPerSecond * ticksPerSecond
  ticks_lt := Nat.lt_of_le_of_lt (Nat.div_mul_le_self t.ticks ticksPerSecond) t.ticks_lt

/-- What the texts of one culture keep: a `decimal` all, a `DateTime` whole seconds. -/
structure RoundTrips (runtime : Runtime) : Prop where
  decimal : ∀ d, runtime.decimalParse (runtime.decimalToString d) = .ok d
  dateTime : ∀ t, runtime.dateTimeParse (runtime.dateTimeToString t) = .ok (wholeSeconds t)

/-- A value of a property, nullable or not, of the type that the data type is for. -/
def OfType (dataType : ValidationDataType) (v : Value) : Prop :=
  v = .null ∨ match dataType with
    | .integer => ∃ n, v = .int32 n
    | .double => ∃ x, v = .double x
    | .decimal => ∃ d, v = .decimal d
    | .date => ∃ t, v = .dateTime t
    | .string => ∃ s, v = .string s

/-- The operator on the values themselves. -/
def compareValues (runtime : Runtime) (operator : ValidationOperator) : Value → Value → Bool
  | .int32 a, .int32 b => operator.holds (fun a b => decide (a = b)) (fun a b => decide (a < b))
      (fun a b => decide (a ≤ b)) a b
  | .decimal a, .decimal b =>
    operator.holds Decimal.equal Decimal.lessThan Decimal.lessThanEqual a b
  | .dateTime a, .dateTime b => operator.holds (fun a b => decide (a = b))
      (fun a b => decide (a.ticks < b.ticks)) (fun a b => decide (a ≤ b)) a b
  | .string s, .string t => operator.holds (fun a b : ℤ => decide (a = b))
      (fun a b => decide (a < b)) (fun a b => decide (a ≤ b)) (runtime.compareStrings s t) 0
  | _, _ => false

/-- The two properties have values, and the operator holds between them. -/
def ComparesValues (runtime : Runtime) (o : BusinessObject)
    (propertyName otherPropertyName : String) (operator : ValidationOperator) : Prop :=
  ∃ v₁ v₂, o.getPropertyValue propertyName = .ok v₁
    ∧ o.getPropertyValue otherPropertyName = .ok v₂
    ∧ compareValues runtime operator v₁ v₂ = true

section Typed

/- The values are `null` or come from one type, whose texts read as `shown`. -/
variable {α : Type} {parse : String → Except Exception α} {verdict : α → α → Bool}
  {value : α → Value} {shown : α → α} {o : BusinessObject}
  {propertyName otherPropertyName : String} {operator : ValidationOperator}

theorem compareBody_typed (hshown : ∀ a, readAs runtime parse (value a) = .ok (shown a))
    (h₁ : ∀ v, o.getPropertyValue propertyName = .ok v → v = .null ∨ ∃ a, v = value a)
    (h₂ : ∀ v, o.getPropertyValue otherPropertyName = .ok v → v = .null ∨ ∃ a, v = value a) :
    orFalse (compareBody runtime parse verdict o propertyName otherPropertyName) = true
      ↔ ∃ a b, o.getPropertyValue propertyName = .ok (value a)
          ∧ o.getPropertyValue otherPropertyName = .ok (value b)
          ∧ verdict (shown a) (shown b) = true := by
  rw [compareBody_iff]
  constructor
  · rintro ⟨v₁, v₂, x, y, hv₁, hv₂, hx, hy, hverdict⟩
    rcases h₁ v₁ hv₁ with rfl | ⟨a, rfl⟩
    · exact absurd hx (readAs_null x)
    rcases h₂ v₂ hv₂ with rfl | ⟨b, rfl⟩
    · exact absurd hy (readAs_null y)
    rw [hshown, Except.ok.injEq] at hx hy
    rw [← hx, ← hy] at hverdict
    exact ⟨a, b, hv₁, hv₂, hverdict⟩
  · rintro ⟨a, b, hv₁, hv₂, hverdict⟩
    exact ⟨value a, value b, shown a, shown b, hv₁, hv₂, hshown a, hshown b, hverdict⟩

theorem comparesValues_typed
    (h₁ : ∀ v, o.getPropertyValue propertyName = .ok v → v = .null ∨ ∃ a, v = value a)
    (h₂ : ∀ v, o.getPropertyValue otherPropertyName = .ok v → v = .null ∨ ∃ a, v = value a) :
    ComparesValues runtime o propertyName otherPropertyName operator
      ↔ ∃ a b, o.getPropertyValue propertyName = .ok (value a)
          ∧ o.getPropertyValue otherPropertyName = .ok (value b)
          ∧ compareValues runtime operator (value a) (value b) = true := by
  constructor
  · rintro ⟨v₁, v₂, hv₁, hv₂, hholds⟩
    rcases h₁ v₁ hv₁ with rfl | ⟨a, rfl⟩
    · exact absurd hholds Bool.false_ne_true
    rcases h₂ v₂ hv₂ with rfl | ⟨b, rfl⟩
    · unfold compareValues at hholds
      split at hholds <;> simp_all
    · exact ⟨a, b, hv₁, hv₂, hholds⟩
  · rintro ⟨a, b, hv₁, hv₂, hholds⟩
    exact ⟨value a, value b, hv₁, hv₂, hholds⟩

end Typed

/-! ### What the texts of the types read as -/

theorem readAs_int32 (n : Int32) : readAs runtime int32Parse (.int32 n) = .ok n :=
  readAs_eq_ok.mpr ⟨int32ToString n, rfl, int32Parse_int32ToString n⟩

theorem readAs_string (s : String) : readAs runtime .ok (.string s) = .ok s := rfl

theorem readAs_decimal (hround : RoundTrips runtime) (d : Decimal) :
    readAs runtime runtime.decimalParse (.decimal d) = .ok d := hround.decimal d

theorem readAs_dateTime (hround : RoundTrips runtime) (t : DateTime) :
    readAs runtime runtime.dateTimeParse (.dateTime t) = .ok (wholeSeconds t) :=
  hround.dateTime t

/-- Where whole seconds do: the times lie in different seconds or are the same, or
their order is one on which the operator decides as it does on equal times. -/
def KeepsVerdict (operator : ValidationOperator) (a b : DateTime) : Prop :=
  a.ticks / ticksPerSecond ≠ b.ticks / ticksPerSecond ∨ a = b
    ∨ a.ticks < b.ticks ∧ (operator = .greaterThan ∨ operator = .lessThanEqual)
    ∨ b.ticks < a.ticks ∧ (operator = .lessThan ∨ operator = .greaterThanEqual)

/-- Whole seconds are compared as the seconds are. -/
theorem wholeSeconds_le_iff (a b : DateTime) :
    wholeSeconds a ≤ wholeSeconds b ↔ a.ticks / ticksPerSecond ≤ b.ticks / ticksPerSecond :=
  Nat.mul_le_mul_right_iff (Nat.succ_pos _)

theorem wholeSeconds_lt_iff (a b : DateTime) :
    (wholeSeconds a).ticks < (wholeSeconds b).ticks
      ↔ a.ticks / ticksPerSecond < b.ticks / ticksPerSecond :=
  Nat.mul_lt_mul_right (Nat.succ_pos _)

theorem eq_iff_ticks (a b : DateTime) : a = b ↔ a.ticks = b.ticks := by
  cases a
  cases b
  rw [DateTime.mk.injEq]

theorem keepsVerdict_iff (operator : ValidationOperator) (a b : DateTime) :
    (compareValues runtime operator (.dateTime (wholeSeconds a)) (.dateTime (wholeSeconds b)) = true
      ↔ compareValues runtime operator (.dateTime a) (.dateTime b) = true)
      ↔ KeepsVerdict operator a b := by
  have hle : ∀ s t : DateTime, s ≤ t ↔ s.ticks ≤ t.ticks := fun _ _ => Iff.rfl
  have heq : wholeSeconds a = wholeSeconds b
      ↔ a.ticks / ticksPerSecond = b.ticks / ticksPerSecond := by
    rw [eq_iff_ticks, Nat.le_antisymm_iff, Nat.le_antisymm_iff, ← wholeSeconds_le_iff,
      ← wholeSeconds_le_iff]
    exact Iff.rfl
  -- a later second is a later time
  have hab : a.ticks / ticksPerSecond < b.ticks / ticksPerSecond → a.ticks < b.ticks :=
    Nat.lt_of_div_lt_div
  have hba : b.ticks / ticksPerSecond < a.ticks / ticksPerSecond → b.ticks < a.ticks :=
    Nat.lt_of_div_lt_div
  unfold KeepsVerdict compareValues ValidationOperator.holds
  simp only [heq, wholeSeconds_le_iff, wholeSeconds_lt_iff, hle a b, hle b a,
    eq_iff_ticks a b]
  generalize a.ticks / ticksPerSecond = second, b.ticks / ticksPerSecond = second' at *
  cases operator with
  | equal => simp; omega
  | notEqual => simp; omega
  | greaterThan => simp; omega
  | greaterThanEqual => simp; omega
  | lessThan => simp; omega
  | lessThanEqual => simp; omega

/-- **What `ValidateCompare` decides**, against the values of its two properties: they
are there and the operator holds between them, unless both are times of one second that
the operator tells apart. -/
theorem compares_iff (hround : RoundTrips runtime) (o : BusinessObject)
    (propertyName otherPropertyName : String) (message : Option String)
    (operator : ValidationOperator) (dataType : ValidationDataType) (hdouble : dataType ≠ .double)
    (h₁ : ∀ v, o.getPropertyValue propertyName = .ok v → OfType dataType v)
    (h₂ : ∀ v, o.getPropertyValue otherPropertyName = .ok v → OfType dataType v) :
    (Accepts runtime o ⟨propertyName, message, .compare otherPropertyName operator dataType⟩
      ↔ ComparesValues runtime o propertyName otherPropertyName operator)
    ↔ ∀ a b, o.getPropertyValue propertyName = .ok (.dateTime a) →
        o.getPropertyValue otherPropertyName = .ok (.dateTime b) → KeepsVerdict operator a b := by
  rw [accepts_compare, AcceptsCompare]
  -- a property of another type has no time
  have hno : dataType ≠ .date → ∀ a, o.getPropertyValue propertyName ≠ .ok (.dateTime a) := by
    intro hdate a ha
    have htype := h₁ _ ha
    cases dataType <;> simp_all [OfType]
  cases dataType with
  | double => exact absurd rfl hdouble
  | integer =>
    refine iff_of_true ?_ (fun a _ ha => absurd ha (hno (by decide) a))
    rw [validate_integer, compareBody_typed readAs_int32 h₁ h₂, comparesValues_typed h₁ h₂]
    exact Iff.rfl
  | decimal =>
    refine iff_of_true ?_ (fun a _ ha => absurd ha (hno (by decide) a))
    rw [validate_decimal, compareBody_typed (readAs_decimal hround) h₁ h₂,
      comparesValues_typed h₁ h₂]
    exact Iff.rfl
  | string =>
    refine iff_of_true ?_ (fun a _ ha => absurd ha (hno (by decide) a))
    rw [validate_string, compareBody_typed readAs_string h₁ h₂, comparesValues_typed h₁ h₂]
    exact Iff.rfl
  | date =>
    rw [validate_date, compareBody_typed (readAs_dateTime hround) h₁ h₂,
      comparesValues_typed h₁ h₂]
    constructor
    · intro h a b ha hb
      simp only [ha, hb, Except.ok.injEq, Value.dateTime.injEq, exists_and_left,
        exists_eq_left'] at h
      exact (@keepsVerdict_iff runtime operator a b).mp h
    · intro h
      constructor
      · rintro ⟨a, b, ha, hb, hholds⟩
        exact ⟨a, b, ha, hb, ((keepsVerdict_iff operator a b).mpr (h a b ha hb)).mp hholds⟩
      · rintro ⟨a, b, ha, hb, hholds⟩
        exact ⟨a, b, ha, hb, ((keepsVerdict_iff operator a b).mpr (h a b ha hb)).mpr hholds⟩

/-! ## A runtime that keeps what texts keep

Decimals are written with an exponent, and times as the seconds since the year 1. -/

def decimalToText (d : Decimal) : String :=
  String.ofList (intChars d.coefficient ++ 'E' :: intChars (-d.scale))

def decimalOfText (text : String) : Except Exception Decimal :=
  match parseSigned (before text 'E').toList, parseSigned (behind text 'E').toList with
  | some coefficient, some exponent =>
    if h : coefficient.natAbs < 2 ^ 96 ∧ exponent.natAbs ≤ 28 then
      .ok ⟨coefficient, exponent.natAbs, h.1, h.2⟩
    else .error { type := .overflow }
  | _, _ => .error { type := .format }

theorem decimalOfText_decimalToText (d : Decimal) : decimalOfText (decimalToText d) = .ok d := by
  obtain ⟨coefficient, scale, hcoefficient, hscale⟩ := d
  have hdigits : 'E' ∉ intChars coefficient := by
    intro hmem
    rcases mem_intChars hmem with h | h
    · exact absurd h (by decide)
    · exact absurd h (by decide)
  obtain ⟨hbefore, hbehind⟩ := before_behind_of_append (c := 'E')
    (s := decimalToText ⟨coefficient, scale, hcoefficient, hscale⟩)
    (a := String.ofList (intChars coefficient)) (b := String.ofList (intChars (-scale)))
    (by simp only [decimalToText, String.toList_ofList])
    (by rw [String.toList_ofList]; exact hdigits)
  have hsame : (-(scale : ℤ)).natAbs = scale := by omega
  rw [decimalOfText, hbefore, hbehind, String.toList_ofList, String.toList_ofList,
    parseSigned_intChars, parseSigned_intChars]
  simp only [hsame, hcoefficient, hscale, and_self, dite_true]

def secondsToText (t : DateTime) : String :=
  String.ofList (Nat.toDigits 10 (t.ticks / ticksPerSecond))

def timeOfText (text : String) : Except Exception DateTime :=
  match parseDigits text.toList with
  | none => .error { type := .format }
  | some seconds =>
    if h : seconds * ticksPerSecond < ticksEnd then .ok ⟨seconds * ticksPerSecond, h⟩
    else .error { type := .format }

theorem timeOfText_secondsToText (t : DateTime) :
    timeOfText (secondsToText t) = .ok (wholeSeconds t) := by
  have hlt := (wholeSeconds t).ticks_lt
  rw [timeOfText, secondsToText, String.toList_ofList, parseDigits_toDigits]
  exact dif_pos hlt

/-- The strings are compared as in the other examples. -/
def textRuntime : Runtime :=
  { exampleRuntime with
    decimalToString := decimalToText
    decimalParse := decimalOfText
    dateTimeToString := secondsToText
    dateTimeParse := timeOfText }

theorem roundTrips_textRuntime : RoundTrips textRuntime where
  decimal := by
    simp only [textRuntime]
    exact decimalOfText_decimalToText
  dateTime := by
    simp only [textRuntime]
    exact timeOfText_secondsToText

/-- An object with a first and a second property. -/
def pairObject (v₁ v₂ : Value) : BusinessObject where
  toAbstractUpdatableClass := Entities.AbstractUpdatableClass.default
  own
    | "First" => some (.ok v₁)
    | "Second" => some (.ok v₂)
    | _ => none

/-- Integers are compared as they are. -/
theorem compares_integers :
    Accepts textRuntime (pairObject (.int32 3) (.int32 7))
        ⟨"First", none, .compare "Second" .lessThan .integer⟩
      ↔ ComparesValues textRuntime (pairObject (.int32 3) (.int32 7)) "First" "Second" .lessThan :=
  (compares_iff roundTrips_textRuntime (pairObject (.int32 3) (.int32 7)) "First" "Second" none
    .lessThan .integer (by decide)
    (fun v hv => Or.inr ⟨3, (Except.ok.inj hv).symm⟩)
    (fun v hv => Or.inr ⟨7, (Except.ok.inj hv).symm⟩)).mpr (fun a b ha => (nomatch ha))

/-- Half a second after the start of time. -/
def halfSecond : DateTime := ⟨5000000, by decide⟩

/-- Half a second is not later. -/
theorem halfSecond_not_later :
    RoundTrips textRuntime ∧
    ¬ (Accepts textRuntime (pairObject (.dateTime halfSecond) (.dateTime DateTime.minValue))
          ⟨"First", none, .compare "Second" .greaterThan .date⟩
        ↔ ComparesValues textRuntime
          (pairObject (.dateTime halfSecond) (.dateTime DateTime.minValue)) "First" "Second"
          .greaterThan) := by
  refine ⟨roundTrips_textRuntime, fun h => ?_⟩
  have hholds : ComparesValues textRuntime
      (pairObject (.dateTime halfSecond) (.dateTime DateTime.minValue)) "First" "Second"
      .greaterThan := ⟨_, _, rfl, rfl, by decide⟩
  exact absurd (h.mpr hholds) (by decide +kernel)

end CgGuide.CompareRules
