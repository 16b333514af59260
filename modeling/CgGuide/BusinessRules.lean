/-
The business rules (`Model/BusinessRules`).

A rule reads properties of an object by name and compares what their texts parse to.
Its class decides what happens where there is nothing to read: most rules catch every
exception and reject, `ValidateLength` and `ValidateRegex` let it through, and
`ValidateDelete` catches it, rejects, and changes the message it was built with.

What depends on the culture, the texts of numbers and dates and the order of strings,
is a parameter here (`Runtime`), and so is the regular expression engine.
-/
import CgGuide.Entities

set_option autoImplicit false

namespace CgGuide.BusinessRules

open CgGuide.DotNet CgGuide.Entities

/-! ## Values -/

/-- A `decimal`: an integer of 96 bits and a sign, over a power of ten. -/
structure Decimal where
  coefficient : ℤ
  scale : ℕ
  coefficient_lt : coefficient.natAbs < 2 ^ 96
  scale_le : scale ≤ 28

namespace Decimal

def equal (a b : Decimal) : Bool :=
  decide (a.coefficient * 10 ^ b.scale = b.coefficient * 10 ^ a.scale)

def lessThan (a b : Decimal) : Bool :=
  decide (a.coefficient * 10 ^ b.scale < b.coefficient * 10 ^ a.scale)

def lessThanEqual (a b : Decimal) : Bool :=
  decide (a.coefficient * 10 ^ b.scale ≤ b.coefficient * 10 ^ a.scale)

/-- The nearest integer, the even one of two. -/
def round (a : Decimal) : ℤ :=
  let unit : ℤ := 10 ^ a.scale
  let below := a.coefficient / unit
  let rest := a.coefficient % unit
  if 2 * rest < unit ∨ 2 * rest = unit ∧ below % 2 = 0 then below else below + 1

end Decimal

/-- A boxed property value, of a type the properties of the entities have or the rules
can compare. -/
inductive Value
  | null
  | string (s : String)
  | int32 (n : Int32)
  | decimal (d : Decimal)
  | double (x : Float)
  | dateTime (t : DateTime)
  | boolean (b : Bool)
  /-- An object without conversions, with the text of its `ToString`. -/
  | other (text : String)

/-- The current culture and the regular expression engine. -/
structure Runtime where
  decimalToString : Decimal → String
  decimalParse : String → Except Exception Decimal
  doubleToString : Float → String
  doubleParse : String → Except Exception Float
  dateTimeToString : DateTime → String
  dateTimeParse : String → Except Exception DateTime
  /-- `string.Compare`. -/
  compareStrings : String → String → ℤ
  /-- `Regex.Match(input, pattern).Success`; a malformed pattern throws. -/
  regexMatch : String → String → Except Exception Bool

section Conversions

variable (runtime : Runtime)

/-- `ToString`. -/
def toText : Value → Except Exception String
  | .null => .error { type := .nullReference }
  | .string s => .ok s
  | .int32 n => .ok (int32ToString n)
  | .decimal d => .ok (runtime.decimalToString d)
  | .double x => .ok (runtime.doubleToString x)
  | .dateTime t => .ok (runtime.dateTimeToString t)
  | .boolean b => .ok (if b then "True" else "False")
  | .other text => .ok text

/-- An object in a concatenation of strings: null is the empty text. -/
def concatText (v : Value) : String :=
  match toText runtime v with
  | .ok text => text
  | .error _ => ""

/-- An `int` of this value, if there is one. -/
def checkedInt32 (n : ℤ) : Except Exception Int32 :=
  if -2 ^ 31 ≤ n ∧ n < 2 ^ 31 then .ok (Int32.ofInt n) else .error { type := .overflow }

/-- `Convert.ToInt32` of a `double`: towards zero, and on from the half or more. -/
def doubleToInt32 (x : Float) : Except Exception Int32 :=
  if -2147483648.5 ≤ x ∧ x < 2147483647.5 then
    let result := x.toInt32
    let dif := x - result.toFloat
    let odd := result.toInt % 2 ≠ 0
    if dif > 0.5 ∨ dif == 0.5 ∧ odd then .ok (result + 1)
    else if dif < -0.5 ∨ dif == -0.5 ∧ odd then .ok (result - 1)
    else .ok result
  else .error { type := .overflow }

/-- `Convert.ToInt32`. -/
def convertToInt32 : Value → Except Exception Int32
  | .null => .ok 0
  | .string s => int32Parse s
  | .int32 n => .ok n
  | .decimal d => checkedInt32 d.round
  | .double x => doubleToInt32 x
  | .dateTime _ => .error { type := .invalidCast }
  | .boolean b => .ok (if b then 1 else 0)
  | .other _ => .error { type := .invalidCast }

/-- `bool.Parse`. -/
def boolParse (s : String) : Except Exception Bool :=
  match s.trimAscii.toString.toLower with
  | "true" => .ok true
  | "false" => .ok false
  | _ => .error { type := .format }

/-- `Convert.ToBoolean`. -/
def convertToBoolean : Value → Except Exception Bool
  | .null => .ok false
  | .string s => boolParse s
  | .int32 n => .ok (n != 0)
  | .decimal d => .ok (d.coefficient != 0)
  | .double x => .ok (x != 0)
  | .dateTime _ => .error { type := .invalidCast }
  | .boolean b => .ok b
  | .other _ => .error { type := .invalidCast }

/-- `Convert.ToDateTime`. -/
def convertToDateTime : Value → Except Exception DateTime
  | .null => .ok DateTime.minValue
  | .string s => runtime.dateTimeParse s
  | .dateTime t => .ok t
  | _ => .error { type := .invalidCast }

end Conversions

/-! ## Objects -/

/-- An object of a class derived from `AbstractUpdatableClass`: what it inherits, and
the properties its class adds, by name. A getter may throw. -/
structure BusinessObject extends AbstractUpdatableClass where
  own : String → Option (Except Exception Value)

namespace BusinessObject

def stringValue : Option String → Value
  | none => .null
  | some s => .string s

def dateValue : Option DateTime → Value
  | none => .null
  | some t => .dateTime t

/-- `GetType().GetProperty(name)`, with what its getter does on the object. -/
def getProperty (o : BusinessObject) (name : String) : Option (Except Exception Value) :=
  match name with
  | "ID" => some (.ok (.int32 (Int32.ofInt o.id)))
  | "Created" => some (.ok (.dateTime o.created))
  | "CreatedBy" => some (.ok (stringValue o.createdBy))
  | "Deleted" => some (.ok (dateValue o.deleted))
  | "DeletedBy" => some (.ok (stringValue o.deletedBy))
  | "LastUpdated" => some (.ok (dateValue o.lastUpdated))
  | "LastUpdatedBy" => some (.ok (stringValue o.lastUpdatedBy))
  | "IsDeleted" => some (.ok (.boolean o.isDeleted))
  | "ValidationErrors" => some (.ok (.other "System.Collections.Generic.List`1[System.String]"))
  | _ => o.own name

/-- `GetValue` on that property: a missing one is a null reference, and what a getter
throws comes wrapped. -/
def getPropertyValue (o : BusinessObject) (name : String) : Except Exception Value :=
  match o.getProperty name with
  | none => .error { type := .nullReference }
  | some (.error _) => .error { type := .targetInvocation }
  | some (.ok v) => .ok v

end BusinessObject

/-! ## Rules -/

inductive ValidationDataType
  | string
  | integer
  | double
  | decimal
  | date
deriving DecidableEq

inductive ValidationOperator
  | equal
  | notEqual
  | greaterThan
  | greaterThanEqual
  | lessThan
  | lessThanEqual
deriving DecidableEq

namespace ValidationOperator

/-- The name of the constant. -/
def toString : ValidationOperator → String
  | equal => "Equal"
  | notEqual => "NotEqual"
  | greaterThan => "GreaterThan"
  | greaterThanEqual => "GreaterThanEqual"
  | lessThan => "LessThan"
  | lessThanEqual => "LessThanEqual"

/-- The operator on two values of a type with these comparisons. -/
def holds {α : Type} (eq lt le : α → α → Bool) (operator : ValidationOperator) (a b : α) : Bool :=
  match operator with
  | equal => eq a b
  | notEqual => !eq a b
  | greaterThan => lt b a
  | greaterThanEqual => le b a
  | lessThan => lt a b
  | lessThanEqual => le a b

end ValidationOperator

/-- What a rule of each class keeps from its constructor. -/
inductive RuleKind
  | required
  | length (min max : Int32)
  | range (min max : Value) (operator : ValidationOperator) (dataType : ValidationDataType)
  | compare (otherPropertyName : String) (operator : ValidationOperator)
      (dataType : ValidationDataType)
  /-- `ValidateRegex`, and `ValidateEmail` with its own pattern. -/
  | regex (pattern : Option String)
  | delete

/-- `BusinessRule`: a message may be null. -/
structure BusinessRule where
  propertyName : String
  errorMessage : Option String
  kind : RuleKind

/-- The constructors that are given a message. -/
def BusinessRule.withErrorMessage (rule : BusinessRule) (errorMessage : Option String) :
    BusinessRule :=
  { rule with errorMessage := errorMessage }

section Rules

variable (runtime : Runtime)

/-! ### `ValidateRequired` -/

def ValidateRequired.new (propertyName : String) : BusinessRule where
  propertyName := propertyName
  errorMessage := some (propertyName ++ " es un campo requerido.(Técnico)\r\n")
  kind := .required

/-- The body of `Validate` inside its `try`. -/
def ValidateRequired.validate (o : BusinessObject) (propertyName : String) :
    Except Exception Bool := do
  let text ← toText runtime (← o.getPropertyValue propertyName)
  return decide (0 < DotNet.length text)

/-! ### `ValidateLength` -/

def ValidateLength.new (propertyName : String) (min max : Int32) : BusinessRule where
  propertyName := propertyName
  errorMessage := some (propertyName ++ " debe tener entre " ++ int32ToString min ++ " y "
    ++ int32ToString max ++ " caracteres de longitud.(Técnico)\r\n")
  kind := .length min max

/-- `Validate`, which has no `try`. -/
def ValidateLength.validate (o : BusinessObject) (propertyName : String) (min max : Int32) :
    Except Exception Bool := do
  let text ← toText runtime (← o.getPropertyValue propertyName)
  return decide (min.toInt ≤ DotNet.length text) && decide (DotNet.length text ≤ max.toInt)

/-! ### `ValidateRange` -/

def ValidateRange.new (propertyName : String) (min max : Value) (operator : ValidationOperator)
    (dataType : ValidationDataType) : BusinessRule where
  propertyName := propertyName
  errorMessage := some (propertyName ++ " must be between " ++ concatText runtime min ++ " and "
    ++ concatText runtime max)
  kind := .range min max operator dataType

/-- The body of `Validate` inside its `try`. -/
def ValidateRange.validate (o : BusinessObject) (propertyName : String) (min max : Value)
    (dataType : ValidationDataType) : Except Exception Bool := do
  let value ← toText runtime (← o.getPropertyValue propertyName)
  match dataType with
  | .integer =>
    let imin ← int32Parse (← toText runtime min)
    let imax ← int32Parse (← toText runtime max)
    let ival ← int32Parse value
    return decide (imin ≤ ival) && decide (ival ≤ imax)
  | .double =>
    let dmin ← runtime.doubleParse (← toText runtime min)
    let dmax ← runtime.doubleParse (← toText runtime max)
    let dval ← runtime.doubleParse value
    return decide (dmin ≤ dval) && decide (dval ≤ dmax)
  | .decimal =>
    let cmin ← runtime.decimalParse (← toText runtime min)
    let cmax ← runtime.decimalParse (← toText runtime max)
    let cval ← runtime.decimalParse value
    return cmin.lessThanEqual cval && cval.lessThanEqual cmax
  | .date =>
    let tmin ← runtime.dateTimeParse (← toText runtime min)
    let tmax ← runtime.dateTimeParse (← toText runtime max)
    let tval ← runtime.dateTimeParse value
    return decide (tmin ≤ tval) && decide (tval ≤ tmax)
  | .string =>
    let smin ← toText runtime min
    let smax ← toText runtime max
    let result1 := runtime.compareStrings smin value
    let result2 := runtime.compareStrings value smax
    return decide (0 ≤ result1) && decide (result2 ≤ 0)

/-! ### `ValidateCompare` -/

def ValidateCompare.new (propertyName otherPropertyName : String) (operator : ValidationOperator)
    (dataType : ValidationDataType) : BusinessRule where
  propertyName := propertyName
  errorMessage := some (propertyName ++ " must be " ++ operator.toString ++ " than "
    ++ otherPropertyName)
  kind := .compare otherPropertyName operator dataType

/-- The body of `Validate` inside its `try`. -/
def ValidateCompare.validate (o : BusinessObject) (propertyName otherPropertyName : String)
    (operator : ValidationOperator) (dataType : ValidationDataType) : Except Exception Bool := do
  let propValue1 ← toText runtime (← o.getPropertyValue propertyName)
  let propValue2 ← toText runtime (← o.getPropertyValue otherPropertyName)
  match dataType with
  | .integer =>
    let ival1 ← int32Parse propValue1
    let ival2 ← int32Parse propValue2
    return operator.holds (fun a b => decide (a = b)) (fun a b => decide (a < b))
      (fun a b => decide (a ≤ b)) ival1 ival2
  | .double =>
    let dval1 ← runtime.doubleParse propValue1
    let dval2 ← runtime.doubleParse propValue2
    return operator.holds (fun a b => a == b) (fun a b => decide (a < b))
      (fun a b => decide (a ≤ b)) dval1 dval2
  | .decimal =>
    let cval1 ← runtime.decimalParse propValue1
    let cval2 ← runtime.decimalParse propValue2
    return operator.holds Decimal.equal Decimal.lessThan Decimal.lessThanEqual cval1 cval2
  | .date =>
    let tval1 ← runtime.dateTimeParse propValue1
    let tval2 ← runtime.dateTimeParse propValue2
    return operator.holds (fun a b => decide (a = b)) (fun a b => decide (a.ticks < b.ticks))
      (fun a b => decide (a ≤ b)) tval1 tval2
  | .string =>
    -- the result of the comparison against zero
    let result := runtime.compareStrings propValue1 propValue2
    return operator.holds (fun a b : ℤ => decide (a = b)) (fun a b => decide (a < b))
      (fun a b => decide (a ≤ b)) result 0

/-! ### `ValidateRegex` and `ValidateEmail` -/

def ValidateRegex.new (propertyName : String) (pattern : Option String) : BusinessRule where
  propertyName := propertyName
  errorMessage := some (propertyName ++ " is not valid")
  kind := .regex pattern

/-- `Validate`, which has no `try`. -/
def ValidateRegex.validate (o : BusinessObject) (propertyName : String) (pattern : Option String) :
    Except Exception Bool := do
  let text ← toText runtime (← o.getPropertyValue propertyName)
  match pattern with
  | none => .error { type := .argumentNull }
  | some pattern => runtime.regexMatch text pattern

def ValidateEmail.new (propertyName : String) : BusinessRule where
  propertyName := propertyName
  errorMessage := some (propertyName ++ " is not a valid email address")
  kind := .regex (some "\\w+([-+.]\\w+)*@\\w+([-.]\\w+)*\\.\\w+([-.]\\w+)*")

/-! ### `ValidateDelete` -/

/-- The rule also holds an `AppDbContext`, which it never uses. -/
def ValidateDelete.new (propertyName : String) : BusinessRule where
  propertyName := propertyName
  errorMessage := some ("Para eliminar un job debe asignarle valores a los parámetros DeletedBy y "
    ++ "DeletedDate.(Técnico)\r\n")
  kind := .delete

/-- The body of `Validate` inside its `try`. -/
def ValidateDelete.validate (o : BusinessObject) (propertyName : String) :
    Except Exception Bool := do
  let keyId ← convertToInt32 (← o.getPropertyValue propertyName)
  if keyId = 0 then
    return true
  let deleted ← convertToBoolean (← o.getPropertyValue "Deleted")
  if deleted then
    let deletedBy ← toText runtime (← o.getPropertyValue "DeletedBy")
    let deletedDate ← match ← o.getPropertyValue "DeletedDate" with
      | .null => pure none
      | v => some <$> convertToDateTime runtime v
    if !isNullOrEmpty (some deletedBy) && deletedDate.isSome then
      return true
  return false

/-- The message `ValidateDelete` has after its `catch`. -/
def ValidateDelete.notFound : String := "El objeto no pudo ser encontrado.(Técnico)\r\n"

/-! ### `Validate` -/

/-- `catch { return false; }`. -/
def orFalse : Except Exception Bool → Bool
  | .ok b => b
  | .error _ => false

/-- `rule.Validate(o)`: the verdict or the exception, and the rule afterwards. -/
def BusinessRule.validate (o : BusinessObject) (rule : BusinessRule) :
    Except Exception Bool × BusinessRule :=
  match rule.kind with
  | .required => (.ok (orFalse (ValidateRequired.validate runtime o rule.propertyName)), rule)
  | .length min max => (ValidateLength.validate runtime o rule.propertyName min max, rule)
  | .range min max _ dataType =>
    (.ok (orFalse (ValidateRange.validate runtime o rule.propertyName min max dataType)), rule)
  | .compare otherPropertyName operator dataType =>
    (.ok (orFalse (ValidateCompare.validate runtime o rule.propertyName otherPropertyName operator
      dataType)), rule)
  | .regex pattern => (ValidateRegex.validate runtime o rule.propertyName pattern, rule)
  | .delete =>
    match ValidateDelete.validate runtime o rule.propertyName with
    | .ok b => (.ok b, rule)
    | .error _ => (.ok false, rule.withErrorMessage (some ValidateDelete.notFound))

end Rules

end CgGuide.BusinessRules
