/-
`AbstractUpdatableClass.Validate`: an object with its rules.

The rules are objects of their own that live as long as the entity does, and the loop
lets each look at the object in turn and keeps the messages of those that reject. What
can go wrong is that a rule throws, which ends the loop with the messages so far, and
that a rule changes itself. A list of rules holds references, so a rule that was added
twice changes in both places; as the two look at the same object, each place changes
as it would alone.
-/
import CgGuide.BusinessRules
import CgGuide.Program
import CgGuide.Runs

set_option autoImplicit false

namespace CgGuide.Validation

open CgGuide.DotNet CgGuide.Entities CgGuide.BusinessRules CgGuide.Program CgGuide.Runs

/-! ## The entity -/

structure Entity where
  object : BusinessObject
  businessRules : List BusinessRule
  validationErrors : List (Option String)

/-- A new object with these rules added. -/
def Entity.new (object : BusinessObject) (rules : List BusinessRule) : Entity where
  object := object
  businessRules := rules
  validationErrors := []

/-- What the loop over the rules leaves. -/
structure Pass where
  result : Except Exception Bool
  rules : List BusinessRule
  errors : List (Option String)

section Validate

variable (runtime : Runtime)

/-- The loop of `Validate`, with `isValid` and the errors so far. -/
def validateLoop (o : BusinessObject) : List BusinessRule → Bool → List (Option String) → Pass
  | [], isValid, errors => ⟨.ok isValid, [], errors⟩
  | rule :: rules, isValid, errors =>
    let (verdict, rule') := rule.validate runtime o
    match verdict with
    -- the exception leaves the loop: the rules behind have not run
    | .error e => ⟨.error e, rule' :: rules, errors⟩
    | .ok accepted =>
      -- the message is read when the rule has run, so it may be one the rule has just set
      let rest := validateLoop o rules (if accepted then isValid else false)
        (if accepted then errors else errors ++ [rule'.errorMessage])
      { rest with rules := rule' :: rest.rules }

/-- `Validate`. -/
def validate : EStateM Exception Entity Bool := fun s =>
  -- `ValidationErrors.Clear()` first, and the errors stay when a rule throws
  let pass := validateLoop runtime s.object s.businessRules true []
  let s' : Entity := ⟨s.object, pass.rules, pass.errors⟩
  match pass.result with
  | .ok isValid => .ok isValid s'
  | .error e => .error e s'

/-! ## One rule -/

/-- The rule accepts the object. -/
def Accepts (o : BusinessObject) (rule : BusinessRule) : Prop :=
  (rule.validate runtime o).1 = .ok true

instance (o : BusinessObject) (rule : BusinessRule) : Decidable (Accepts runtime o rule) :=
  inferInstanceAs (Decidable ((rule.validate runtime o).1 = .ok true))

/-- What a rule needs in order to say anything: `ValidateLength` and `ValidateRegex`
a text to look at, the second also a pattern. -/
def Speaks (o : BusinessObject) (rule : BusinessRule) : Prop :=
  match rule.kind with
  | .length _ _ => ∃ v text, o.getPropertyValue rule.propertyName = .ok v
      ∧ toText runtime v = .ok text
  | .regex pattern => ∃ v text p b, o.getPropertyValue rule.propertyName = .ok v
      ∧ toText runtime v = .ok text ∧ pattern = some p ∧ runtime.regexMatch text p = .ok b
  | _ => True

/-- **A rule throws** exactly when it has no `try` and does not get what it needs. -/
theorem speaks_iff (o : BusinessObject) (rule : BusinessRule) :
    Speaks runtime o rule ↔ ∃ b, (rule.validate runtime o).1 = .ok b := by
  unfold Speaks BusinessRule.validate
  cases rule.kind with
  | required => exact ⟨fun _ => ⟨_, rfl⟩, fun _ => trivial⟩
  | range => exact ⟨fun _ => ⟨_, rfl⟩, fun _ => trivial⟩
  | compare => exact ⟨fun _ => ⟨_, rfl⟩, fun _ => trivial⟩
  -- the two without a `try`: what they read, step by step
  | length min max =>
    show _ ↔ ∃ b, ValidateLength.validate runtime o rule.propertyName min max = .ok b
    unfold ValidateLength.validate
    cases hvalue : o.getPropertyValue rule.propertyName with
    | error e => simp
    | ok v =>
      cases htext : toText runtime v with
      | error e => simp [htext]
      | ok text => simp [htext]
  | regex pattern =>
    show _ ↔ ∃ b, ValidateRegex.validate runtime o rule.propertyName pattern = .ok b
    unfold ValidateRegex.validate
    cases hvalue : o.getPropertyValue rule.propertyName with
    | error e => simp
    | ok v =>
      cases htext : toText runtime v with
      | error e => simp [htext]
      | ok text =>
        cases pattern with
        | none => simp [htext]
        | some p => simp [htext]
  | delete =>
    refine ⟨fun _ => ?_, fun _ => trivial⟩
    cases ValidateDelete.validate runtime o rule.propertyName with
    | ok b => exact ⟨b, rfl⟩
    | error e => exact ⟨false, rfl⟩

/-! ## The loop -/

/-- The messages of the rules that reject, as each leaves its own, in order. -/
def rejections (o : BusinessObject) (rules : List BusinessRule) : List (Option String) :=
  (rules.filter (fun rule => decide (¬ Accepts runtime o rule))).map
    (fun rule => (rule.validate runtime o).2.errorMessage)

theorem validateLoop_ok {o : BusinessObject} {rule : BusinessRule} {b : Bool}
    (h : (rule.validate runtime o).1 = .ok b) (rules : List BusinessRule) (isValid : Bool)
    (errors : List (Option String)) :
    validateLoop runtime o (rule :: rules) isValid errors
      = { validateLoop runtime o rules (if b then isValid else false)
            (if b then errors else errors ++ [(rule.validate runtime o).2.errorMessage]) with
          rules := (rule.validate runtime o).2 ::
            (validateLoop runtime o rules (if b then isValid else false)
              (if b then errors
                else errors ++ [(rule.validate runtime o).2.errorMessage])).rules } := by
  rw [validateLoop]
  simp only [h]

theorem validateLoop_error {o : BusinessObject} {rule : BusinessRule} {e : Exception}
    (h : (rule.validate runtime o).1 = .error e) (rules : List BusinessRule) (isValid : Bool)
    (errors : List (Option String)) :
    validateLoop runtime o (rule :: rules) isValid errors
      = ⟨.error e, (rule.validate runtime o).2 :: rules, errors⟩ := by
  rw [validateLoop]
  simp only [h]

/-- **The loop over rules that speak** goes to the end: the conjunction of the verdicts,
and the messages of the rejections behind those there were. -/
theorem validateLoop_speaks (o : BusinessObject) (rules : List BusinessRule) :
    ∀ isValid errors, (∀ rule ∈ rules, Speaks runtime o rule) →
      (validateLoop runtime o rules isValid errors).result
          = .ok (isValid && rules.all (fun rule => decide (Accepts runtime o rule)))
        ∧ (validateLoop runtime o rules isValid errors).errors
          = errors ++ rejections runtime o rules := by
  induction rules with
  | nil =>
      intro isValid errors _
      simp [validateLoop, rejections]
  | cons rule rules ih =>
      intro isValid errors h
      obtain ⟨b, hb⟩ := (speaks_iff runtime o rule).mp (h rule List.mem_cons_self)
      have hrest := ih (if b then isValid else false)
        (if b then errors else errors ++ [(rule.validate runtime o).2.errorMessage])
        (fun r hr => h r (List.mem_cons_of_mem _ hr))
      rw [validateLoop_ok runtime hb]
      by_cases haccepts : b = true
      · have hrule : Accepts runtime o rule := by rw [Accepts, hb, haccepts]
        simpa [haccepts, hrule, rejections] using hrest
      · have hrule : ¬ Accepts runtime o rule := by
          rw [Accepts, hb, Except.ok.injEq]
          exact haccepts
        simpa [haccepts, hrule, rejections] using hrest

/-- One rule that throws ends it. -/
theorem validateLoop_throws (o : BusinessObject) (rules : List BusinessRule) :
    ∀ isValid errors, (∃ rule ∈ rules, ¬ Speaks runtime o rule) →
      ∃ e, (validateLoop runtime o rules isValid errors).result = .error e := by
  induction rules with
  | nil =>
      rintro isValid errors ⟨rule, hrule, -⟩
      exact absurd hrule List.not_mem_nil
  | cons rule rules ih =>
      rintro isValid errors ⟨bad, hbad, hthrows⟩
      cases hverdict : (rule.validate runtime o).1 with
      | error e => exact ⟨e, by rw [validateLoop_error runtime hverdict]⟩
      | ok b =>
        -- the rule that throws is behind this one
        have hne : bad ≠ rule := by
          rintro rfl
          exact hthrows ((speaks_iff runtime o bad).mpr ⟨b, hverdict⟩)
        rw [validateLoop_ok runtime hverdict]
        exact ih _ _ ⟨bad, (List.mem_cons.mp hbad).resolve_left hne, hthrows⟩

/-! ## What `Validate` returns -/

/-- `Validate` returns, says whether every rule accepts, and leaves the messages of
those that do not. -/
def ValidatesAll (s : Entity) : Prop :=
  ∃ isValid s', (validate runtime).run s = .ok isValid s'
    ∧ (isValid = true ↔ ∀ rule ∈ s.businessRules, Accepts runtime s.object rule)
    ∧ s'.validationErrors = rejections runtime s.object s.businessRules

theorem run_validate (s : Entity) :
    (validate runtime).run s
      = match (validateLoop runtime s.object s.businessRules true []).result with
        | .ok isValid => .ok isValid ⟨s.object,
            (validateLoop runtime s.object s.businessRules true []).rules,
            (validateLoop runtime s.object s.businessRules true []).errors⟩
        | .error e => .error e ⟨s.object,
            (validateLoop runtime s.object s.businessRules true []).rules,
            (validateLoop runtime s.object s.businessRules true []).errors⟩ := rfl

/-- Where `Validate` returns, no rule threw. -/
theorem speaks_of_run {s s' : Entity} {isValid : Bool}
    (hrun : (validate runtime).run s = .ok isValid s') :
    ∀ rule ∈ s.businessRules, Speaks runtime s.object rule := by
  by_contra hsilent
  push Not at hsilent
  obtain ⟨e, he⟩ := validateLoop_throws runtime s.object s.businessRules true [] hsilent
  rw [run_validate, he] at hrun
  exact absurd hrun (by simp)

/-- Where none can throw, it returns what it is to return. -/
theorem validatesAll_of_speaks {s : Entity}
    (h : ∀ rule ∈ s.businessRules, Speaks runtime s.object rule) : ValidatesAll runtime s := by
  obtain ⟨hresult, herrors⟩ := validateLoop_speaks runtime s.object s.businessRules true [] h
  refine ⟨_, _, by rw [run_validate, hresult], ?_, ?_⟩
  · simp
  · simpa using herrors

/-- **`Validate` does what it is for** exactly when every length and every pattern rule
has a text to look at, and the pattern is one. -/
theorem validatesAll_iff (s : Entity) :
    ValidatesAll runtime s ↔ ∀ rule ∈ s.businessRules, Speaks runtime s.object rule := by
  constructor
  · rintro ⟨isValid, s', hrun, -, -⟩
    exact speaks_of_run runtime hrun
  · exact validatesAll_of_speaks runtime

/-! ## Validating again -/

/-- A rule asked a second time about the object says and leaves the same. -/
theorem validate_validate (o : BusinessObject) (rule : BusinessRule) :
    (rule.validate runtime o).2.validate runtime o = rule.validate runtime o := by
  obtain ⟨propertyName, errorMessage, kind⟩ := rule
  unfold BusinessRule.validate
  cases kind with
  | required => rfl
  | length => rfl
  | range => rfl
  | compare => rfl
  | regex => rfl
  -- only this one changes itself, and what it sets does not depend on what was there
  | delete =>
    cases hcheck : ValidateDelete.validate runtime o propertyName with
    | ok b => simp only [hcheck]
    | error e => simp only [hcheck, BusinessRule.withErrorMessage]

theorem validateLoop_validateLoop (o : BusinessObject) (rules : List BusinessRule) :
    ∀ isValid errors,
      validateLoop runtime o (validateLoop runtime o rules isValid errors).rules isValid errors
        = validateLoop runtime o rules isValid errors := by
  induction rules with
  | nil => exact fun _ _ => rfl
  | cons rule rules ih =>
      intro isValid errors
      have hagain := validate_validate runtime o rule
      cases hverdict : (rule.validate runtime o).1 with
      | error e =>
        have hverdict' : ((rule.validate runtime o).2.validate runtime o).1 = .error e := by
          rw [hagain, hverdict]
        rw [validateLoop_error runtime hverdict, validateLoop_error runtime hverdict', hagain]
      | ok b =>
        have hverdict' : ((rule.validate runtime o).2.validate runtime o).1 = .ok b := by
          rw [hagain, hverdict]
        rw [validateLoop_ok runtime hverdict]
        show validateLoop runtime o ((rule.validate runtime o).2 :: _) isValid errors = _
        rw [validateLoop_ok runtime hverdict', hagain, ih]

theorem getPropertyValue_deleted (o : BusinessObject) :
    o.getPropertyValue "Deleted" = .ok (BusinessObject.dateValue o.deleted) := rfl

theorem outcome_validate (s : Entity) :
    outcome (validate runtime) s
      = ((validateLoop runtime s.object s.businessRules true []).result, ⟨s.object,
          (validateLoop runtime s.object s.businessRules true []).rules,
          (validateLoop runtime s.object s.businessRules true []).errors⟩) := by
  rw [outcome, run_validate]
  cases (validateLoop runtime s.object s.businessRules true []).result with
  | ok isValid => rfl
  | error e => rfl

/-- **`Validate` twice in a row** answers the same and leaves the same, whatever it
answers. -/
theorem outcome_validate_validate (s : Entity) :
    outcome (validate runtime) (outcome (validate runtime) s).2 = outcome (validate runtime) s := by
  rw [outcome_validate runtime s, outcome_validate]
  simp only [validateLoop_validateLoop]

/-! ## Histories -/

/-- What happens to an entity: its properties are assigned, or it is validated. -/
inductive Event
  | assign (object : BusinessObject)
  | validate

def step (s : Entity) : Event → Entity
  | .assign object => { s with object := object }
  | .validate => (outcome (validate runtime) s).2

/-- A `ValidateDelete` rule would not come to its `catch`: the key is a number, and it
is zero or the object is not marked as deleted. -/
def Undisturbed (o : BusinessObject) (rule : BusinessRule) : Prop :=
  match rule.kind with
  | .delete => ∃ v keyId, o.getPropertyValue rule.propertyName = .ok v
      ∧ convertToInt32 v = .ok keyId ∧ (keyId = 0 ∨ o.deleted = none)
  | _ => True

/-- The rules are undisturbed whenever the entity is validated, those too that a rule before
them keeps from running. -/
def RulesUndisturbed (s : Entity) : Event → Prop
  | .assign _ => True
  | .validate => ∀ rule ∈ s.businessRules, Undisturbed s.object rule

/-- A date cannot be converted to a truth value. -/
theorem validateDelete_ok_iff (o : BusinessObject) (propertyName : String) :
    (∃ b, ValidateDelete.validate runtime o propertyName = .ok b)
      ↔ ∃ v keyId, o.getPropertyValue propertyName = .ok v ∧ convertToInt32 v = .ok keyId
          ∧ (keyId = 0 ∨ o.deleted = none) := by
  unfold ValidateDelete.validate
  cases hvalue : o.getPropertyValue propertyName with
  | error e => simp
  | ok v =>
    cases hkey : convertToInt32 v with
    | error e => simp [hkey]
    | ok keyId =>
      by_cases hzero : keyId = 0
      · simp [hkey, hzero, pure, Except.pure]
      · rw [getPropertyValue_deleted]
        cases hdeleted : o.deleted with
        | none => simp [hkey, hzero, BusinessObject.dateValue, convertToBoolean, pure, Except.pure]
        | some t => simp [hkey, hzero, BusinessObject.dateValue, convertToBoolean]

/-- Left alone, a rule stays as it is. -/
theorem validate_undisturbed {o : BusinessObject} {rule : BusinessRule} (h : Undisturbed o rule) :
    (rule.validate runtime o).2 = rule := by
  unfold BusinessRule.validate
  unfold Undisturbed at h
  cases hkind : rule.kind with
  | required => rfl
  | length => rfl
  | range => rfl
  | compare => rfl
  | regex => rfl
  | delete =>
    rw [hkind] at h
    obtain ⟨b, hb⟩ := (validateDelete_ok_iff runtime o rule.propertyName).mpr h
    simp only [hb]

theorem rules_validateLoop {o : BusinessObject} (rules : List BusinessRule) :
    ∀ isValid errors, (∀ rule ∈ rules, Undisturbed o rule) →
      (validateLoop runtime o rules isValid errors).rules = rules := by
  induction rules with
  | nil => exact fun _ _ _ => rfl
  | cons rule rules ih =>
      intro isValid errors h
      have hrule := validate_undisturbed runtime (h rule List.mem_cons_self)
      cases hverdict : (rule.validate runtime o).1 with
      | error e => rw [validateLoop_error runtime hverdict, hrule]
      | ok b =>
        rw [validateLoop_ok runtime hverdict, hrule]
        show rule :: _ = _
        rw [ih _ _ (fun r hr => h r (List.mem_cons_of_mem _ hr))]

/-- **One event** leaves the rules as they were constructed. -/
theorem businessRules_step {rules : List BusinessRule} (s : Entity) (e : Event)
    (hs : s.businessRules = rules) (he : RulesUndisturbed s e) :
    (step runtime s e).businessRules = rules := by
  cases e with
  | assign object => exact hs
  | validate =>
    show (outcome (validate runtime) s).2.businessRules = rules
    rw [outcome_validate, ← hs]
    exact rules_validateLoop runtime s.businessRules true [] he

/-- **What `Validate` answers after any history** in which no `ValidateDelete` rule could
come to its `catch`, at every point of it: what it answers for a new object with the same
values and the rules as they were constructed, and the same when it is asked again. -/
theorem validate_reached {object : BusinessObject} {rules : List BusinessRule}
    {es pre : List Event}
    (hes : Guarded (step runtime) RulesUndisturbed (Entity.new object rules) es)
    (hpre : pre <+: es) :
    outcome (validate runtime) (run (step runtime) (Entity.new object rules) pre)
        = outcome (validate runtime)
            (Entity.new (run (step runtime) (Entity.new object rules) pre).object rules)
      ∧ outcome (validate runtime)
            (outcome (validate runtime) (run (step runtime) (Entity.new object rules) pre)).2
          = outcome (validate runtime) (run (step runtime) (Entity.new object rules) pre) := by
  have hrules : (run (step runtime) (Entity.new object rules) pre).businessRules = rules :=
    invariant_reached (businessRules_step runtime) rfl hes hpre
  refine ⟨?_, outcome_validate_validate runtime _⟩
  rw [outcome_validate, outcome_validate, hrules]
  rfl

end Validate

/-! ## Concrete runs -/

/-- A runtime for rules that read integers and strings: it formats no other value,
parses none, and has no patterns. -/
def exampleRuntime : Runtime where
  decimalToString _ := ""
  decimalParse _ := .error { type := .format }
  doubleToString _ := ""
  doubleParse _ := .error { type := .format }
  dateTimeToString _ := ""
  dateTimeParse _ := .error { type := .format }
  compareStrings s t := if s < t then -1 else if s = t then 0 else 1
  regexMatch _ _ := .error { type := .argument }

/-- An object with the key 1 and no property of its own. -/
def exampleObject (deleted : Option DateTime) : BusinessObject where
  toAbstractUpdatableClass := { AbstractUpdatableClass.default with id := 1, deleted := deleted }
  own _ := none

/-- A length rule on a property that is null makes `Validate` throw. -/
theorem validate_length_null :
    ¬ ∀ s : Entity, (∀ rule ∈ s.businessRules, s.object.getProperty rule.propertyName ≠ none) →
      ValidatesAll exampleRuntime s := by
  intro h
  obtain ⟨isValid, s', hrun, -, -⟩ := h (Entity.new (exampleObject none)
    [ValidateRequired.new "CreatedBy", ValidateLength.new "CreatedBy" 1 50])
    (by simp [Entity.new, ValidateRequired.new, ValidateLength.new, BusinessObject.getProperty])
  have hthrown : (outcome (validate exampleRuntime) (Entity.new (exampleObject none)
      [ValidateRequired.new "CreatedBy", ValidateLength.new "CreatedBy" 1 50])).1
      = .error { type := .nullReference } := rfl
  rw [outcome_eq_of_run_ok hrun] at hthrown
  exact absurd hthrown (by simp)

/-- An entity validated, and then marked as deleted and validated. -/
theorem validate_reached_twice :
    outcome (validate exampleRuntime) (run (step exampleRuntime)
        (Entity.new (exampleObject none) [ValidateDelete.new "ID"])
        [.validate, .assign (exampleObject (some DateTime.minValue))])
      = outcome (validate exampleRuntime)
          (Entity.new (exampleObject (some DateTime.minValue)) [ValidateDelete.new "ID"]) := by
  have hguarded : Guarded (step exampleRuntime) RulesUndisturbed
      (Entity.new (exampleObject none) [ValidateDelete.new "ID"])
      [.validate, .assign (exampleObject (some DateTime.minValue))] := by
    refine ⟨fun rule hrule => ?_, trivial, trivial⟩
    rw [List.mem_singleton.mp hrule]
    exact ⟨.int32 1, 1, rfl, rfl, Or.inr rfl⟩
  exact (validate_reached exampleRuntime hguarded (List.prefix_refl _)).1

/-- Validated while it was marked as deleted, an entity does not give the rule's own
message any more. -/
theorem validate_after_catch :
    ¬ ∀ (object : BusinessObject) (rules : List BusinessRule) (es : List Event),
      (outcome (validate exampleRuntime)
          (run (step exampleRuntime) (Entity.new object rules) es)).2.validationErrors
        = (outcome (validate exampleRuntime) (Entity.new
            (run (step exampleRuntime) (Entity.new object rules) es).object
            rules)).2.validationErrors := by
  intro h
  have hmessages := h (exampleObject (some DateTime.minValue)) [ValidateDelete.new "ID"]
    [.validate, .assign (exampleObject none)]
  have hchanged : (outcome (validate exampleRuntime) (run (step exampleRuntime)
      (Entity.new (exampleObject (some DateTime.minValue)) [ValidateDelete.new "ID"])
      [.validate, .assign (exampleObject none)])).2.validationErrors
      = [some ValidateDelete.notFound] := rfl
  have hfresh : (outcome (validate exampleRuntime) (Entity.new (run (step exampleRuntime)
      (Entity.new (exampleObject (some DateTime.minValue)) [ValidateDelete.new "ID"])
      [.validate, .assign (exampleObject none)]).object
      [ValidateDelete.new "ID"])).2.validationErrors
      = [(ValidateDelete.new "ID").errorMessage] := rfl
  rw [hchanged, hfresh] at hmessages
  exact absurd hmessages (by decide)

end CgGuide.Validation
