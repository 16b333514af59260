/-
What comes of the errors of a validation: `Utils.Validation.Helper.BuildValidationErrors`.

The helper puts the messages together and throws them, unless what it has put together is
empty. Whether there was an error and whether there is a text are two questions: a rule may
be given an empty message or none, and when no rule that rejects has another, the object is
invalid and nothing is thrown (`reports_iff`).
-/
import CgGuide.Validation

set_option autoImplicit false

namespace CgGuide.ValidationErrors

open CgGuide.DotNet CgGuide.BusinessRules CgGuide.Validation CgGuide.Program

/-! ## The helper -/

/-- `BuildValidationErrors`; a null message adds nothing. -/
def Helper.buildValidationErrors (validationErrors : List (Option String)) :
    Except Exception String :=
  let legend := validationErrors.foldl
    (fun legend validationError => legend ++ validationError.getD "") ""
  if !isNullOrEmpty (some legend) then .error { type := .exception, message := some legend }
  else .ok legend

/-- The messages one behind the other. -/
def joined (messages : List (Option String)) : String :=
  String.ofList (messages.flatMap (fun message => (message.getD "").toList))

theorem foldl_legend (messages : List (Option String)) (legend : String) :
    messages.foldl (fun legend message => legend ++ message.getD "") legend
      = legend ++ joined messages := by
  induction messages generalizing legend with
  | nil => simp [joined]
  | cons message messages ih =>
      rw [List.foldl_cons, ih]
      apply String.toList_injective
      simp [joined]

theorem joined_eq_empty_iff (messages : List (Option String)) :
    joined messages = "" ↔ ∀ message ∈ messages, isNullOrEmpty message = true := by
  rw [← String.toList_inj]
  simp only [joined, String.toList_ofList, String.toList_empty, List.flatMap_eq_nil_iff]
  refine forall_congr' (fun message => forall_congr' (fun _ => ?_))
  cases message with
  | none => simp
  | some text => simp [isNullOrEmpty_some]

/-- **The helper** returns for messages that are all empty, and throws them otherwise. -/
theorem buildValidationErrors_eq (messages : List (Option String)) :
    Helper.buildValidationErrors messages
      = if ∀ message ∈ messages, isNullOrEmpty message = true then .ok ""
        else .error { type := .exception, message := some (joined messages) } := by
  unfold Helper.buildValidationErrors
  rw [foldl_legend, String.empty_append]
  by_cases hempty : joined messages = ""
  · rw [if_pos ((joined_eq_empty_iff messages).mp hempty)]
    simp [hempty]
  · rw [if_neg (fun h => hempty ((joined_eq_empty_iff messages).mpr h))]
    simp [hempty]

/-! ## The messages of a validation -/

variable (runtime : Runtime)

/-- A rule that rejects has something to say: it was given a message, or it is one that
sets its own. -/
def HasMessage (o : BusinessObject) (rule : BusinessRule) : Prop :=
  isNullOrEmpty rule.errorMessage = false ∨ ¬ Undisturbed o rule

/-- In its `catch` a rule takes a message that is not empty. -/
theorem errorMessage_disturbed {o : BusinessObject} {rule : BusinessRule}
    (h : ¬ Undisturbed o rule) :
    (rule.validate runtime o).2.errorMessage = some ValidateDelete.notFound := by
  obtain ⟨propertyName, errorMessage, kind⟩ := rule
  cases kind with
  | delete =>
    have hthrows := mt (validateDelete_ok_iff runtime o propertyName).mp h
    unfold BusinessRule.validate
    cases hbody : ValidateDelete.validate runtime o propertyName with
    | ok b => exact absurd ⟨b, hbody⟩ hthrows
    | error e => rfl
  | _ => exact absurd trivial h

theorem isNullOrEmpty_validate (o : BusinessObject) (rule : BusinessRule) :
    isNullOrEmpty (rule.validate runtime o).2.errorMessage = false ↔ HasMessage o rule := by
  unfold HasMessage
  by_cases hundisturbed : Undisturbed o rule
  · simp [validate_undisturbed runtime hundisturbed, hundisturbed]
  · refine iff_of_true ?_ (Or.inr hundisturbed)
    rw [errorMessage_disturbed runtime hundisturbed]
    decide

/-- The texts that are kept are all empty where no rule that rejects has a message. -/
theorem rejections_empty_iff (o : BusinessObject) (rules : List BusinessRule) :
    (∀ message ∈ rejections runtime o rules, isNullOrEmpty message = true)
      ↔ ∀ rule ∈ rules, ¬ Accepts runtime o rule → ¬ HasMessage o rule := by
  unfold rejections
  simp only [List.forall_mem_map, List.mem_filter, decide_eq_true_iff, and_imp]
  refine forall_congr' (fun rule => forall_congr' (fun _ => forall_congr' (fun _ => ?_)))
  rw [← isNullOrEmpty_validate runtime o rule, Bool.not_eq_false]

/-- **What is thrown**, in terms of the rules. -/
theorem throws_iff (o : BusinessObject) (rules : List BusinessRule) :
    (∃ e, Helper.buildValidationErrors (rejections runtime o rules) = .error e)
      ↔ ∃ rule ∈ rules, ¬ Accepts runtime o rule ∧ HasMessage o rule := by
  rw [buildValidationErrors_eq]
  split_ifs with hempty
  · rw [rejections_empty_iff] at hempty
    refine iff_of_false (by simp) ?_
    rintro ⟨rule, hrule, hrejects, hmessage⟩
    exact hempty rule hrule hrejects hmessage
  · rw [rejections_empty_iff] at hempty
    push Not at hempty
    exact iff_of_true ⟨_, rfl⟩ hempty

/-! ## What is asked of the helper -/

/-- The errors of a validation are thrown where the object is invalid, all of them and in
the order of the rules, and only there. -/
structure Reports (s : Entity) (isValid : Bool) (s' : Entity) : Prop where
  throws : (∃ e, Helper.buildValidationErrors s'.validationErrors = .error e) ↔ isValid = false
  message : ∀ e, Helper.buildValidationErrors s'.validationErrors = .error e →
    e.message = some (joined (rejections runtime s.object s.businessRules))
  silent : (∃ rule ∈ s.businessRules, ¬ Accepts runtime s.object rule) →
    ∃ e, Helper.buildValidationErrors s'.validationErrors = .error e

/-- What `Validate` has answered and kept where it returns. -/
theorem validate_returned {s s' : Entity} {isValid : Bool}
    (hrun : (validate runtime).run s = .ok isValid s') :
    (isValid = false ↔ ∃ rule ∈ s.businessRules, ¬ Accepts runtime s.object rule)
      ∧ s'.validationErrors = rejections runtime s.object s.businessRules := by
  obtain ⟨isValid', s'', hrun', hvalid, herrors⟩ :=
    validatesAll_of_speaks runtime (speaks_of_run runtime hrun)
  rw [hrun, EStateM.Result.ok.injEq] at hrun'
  obtain ⟨rfl, rfl⟩ := hrun'
  refine ⟨?_, herrors⟩
  rw [← Bool.not_eq_true, hvalid]
  push Not
  exact Iff.rfl

/-- **The helper reports what `Validate` found** exactly when the object is valid or one of
the rules that reject it has a message. -/
theorem reports_iff {s s' : Entity} {isValid : Bool}
    (hrun : (validate runtime).run s = .ok isValid s') :
    Reports runtime s isValid s'
      ↔ (∀ rule ∈ s.businessRules, Accepts runtime s.object rule)
        ∨ ∃ rule ∈ s.businessRules, ¬ Accepts runtime s.object rule ∧ HasMessage s.object rule := by
  obtain ⟨hinvalid, herrors⟩ := validate_returned runtime hrun
  have hthrows := throws_iff runtime s.object s.businessRules
  rw [← herrors] at hthrows
  constructor
  · intro h
    by_cases hvalid : ∀ rule ∈ s.businessRules, Accepts runtime s.object rule
    · exact Or.inl hvalid
    · push Not at hvalid
      exact Or.inr (hthrows.mp (h.silent hvalid))
  · intro h
    have hspoken : (∃ rule ∈ s.businessRules, ¬ Accepts runtime s.object rule) →
        ∃ e, Helper.buildValidationErrors s'.validationErrors = .error e := by
      rintro ⟨rule, hrule, hrejects⟩
      rcases h with hvalid | hmessage
      · exact absurd (hvalid rule hrule) hrejects
      · exact hthrows.mpr hmessage
    refine ⟨?_, ?_, hspoken⟩
    · rw [hinvalid]
      refine ⟨fun hthrown => ?_, hspoken⟩
      obtain ⟨rule, hrule, hrejects, -⟩ := hthrows.mp hthrown
      exact ⟨rule, hrule, hrejects⟩
    · intro e he
      rw [herrors, buildValidationErrors_eq] at he
      split_ifs at he
      rw [← Except.error.inj he]

/-- An object that one rule rejects, with the message of the rule. -/
theorem reports_required :
    ∃ s', (validate exampleRuntime).run
        (Entity.new (exampleObject none) [ValidateRequired.new "CreatedBy"]) = .ok false s'
      ∧ Reports exampleRuntime
        (Entity.new (exampleObject none) [ValidateRequired.new "CreatedBy"]) false s' :=
  ⟨_, rfl, (reports_iff exampleRuntime rfl).mpr
    (Or.inr ⟨ValidateRequired.new "CreatedBy", List.mem_singleton.mpr rfl, by decide,
      Or.inl (by decide)⟩)⟩

/-- A rule with an empty message rejects, and nothing is thrown. -/
theorem empty_message_silent :
    ¬ ∀ (s s' : Entity) (isValid : Bool), (validate exampleRuntime).run s = .ok isValid s' →
      Reports exampleRuntime s isValid s' := by
  intro h
  have hreports := h (Entity.new (exampleObject none)
    [(ValidateRequired.new "CreatedBy").withErrorMessage (some "")]) _ _ rfl
  obtain ⟨e, he⟩ := hreports.throws.mpr rfl
  have hreturned : Helper.buildValidationErrors [some ""] = .ok "" := rfl
  exact absurd (hreturned.symm.trans he) (by simp)

end CgGuide.ValidationErrors
