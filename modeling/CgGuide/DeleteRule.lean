/-
What `ValidateDelete` decides of an object that has its key.

The rule asks for the properties a deleted object is marked with. It converts `Deleted` to
a truth value, which for a date is an exception, so what it does with an object depends on
that property alone: without the date it rejects with its own message, and with one it
comes to its `catch`, whatever else is set (`validateDelete_of_key`).
-/
import CgGuide.Validation

set_option autoImplicit false

namespace CgGuide.DeleteRule

open CgGuide.DotNet CgGuide.BusinessRules CgGuide.Validation

variable (runtime : Runtime)

/-- The object is marked as deleted: `Deleted` holds a date and `DeletedBy` a name. -/
def MarkedDeleted (o : BusinessObject) : Prop :=
  o.deleted ≠ none ∧ isNullOrEmpty o.deletedBy = false

/-- The rule accepts what is marked as deleted, and rejects everything else with the
message it has. -/
structure DecidesDelete (o : BusinessObject) (rule : BusinessRule) : Prop where
  accepts : Accepts runtime o rule ↔ MarkedDeleted o
  rejects : ¬ MarkedDeleted o → rule.validate runtime o = (.ok false, rule)

/-- The rule on the key of the entities, with either constructor. -/
def deleteRule (message : Option String) : BusinessRule :=
  (ValidateDelete.new "ID").withErrorMessage message

variable {runtime} {o : BusinessObject}

/-- **With a key that is not zero** `Deleted` is all that counts. -/
theorem validateDelete_of_key (hid : o.getPropertyValue "ID" ≠ .ok (.int32 0)) :
    ValidateDelete.validate runtime o "ID"
      = match o.deleted with
        | none => .ok false
        | some _ => .error { type := .invalidCast } := by
  have hkey : o.getPropertyValue "ID" = .ok (.int32 (Int32.ofInt o.id)) := rfl
  have hzero : Int32.ofInt o.id ≠ 0 := by
    intro hzero
    exact hid (by rw [hkey, hzero])
  unfold ValidateDelete.validate
  rw [hkey, getPropertyValue_deleted]
  cases hdeleted : o.deleted with
  | none => simp [convertToInt32, hzero, BusinessObject.dateValue, convertToBoolean, pure,
      Except.pure]
  | some t => simp [convertToInt32, hzero, BusinessObject.dateValue, convertToBoolean]

theorem validate_deleteRule (message : Option String) :
    (deleteRule message).validate runtime o
      = match ValidateDelete.validate runtime o "ID" with
        | .ok b => (.ok b, deleteRule message)
        | .error _ => (.ok false, deleteRule (some ValidateDelete.notFound)) := rfl

theorem validate_not_deleted (message : Option String)
    (hid : o.getPropertyValue "ID" ≠ .ok (.int32 0)) (hdeleted : o.deleted = none) :
    (deleteRule message).validate runtime o = (.ok false, deleteRule message) := by
  rw [validate_deleteRule, validateDelete_of_key hid, hdeleted]

theorem validate_deleted (message : Option String)
    (hid : o.getPropertyValue "ID" ≠ .ok (.int32 0)) (hdeleted : o.deleted ≠ none) :
    (deleteRule message).validate runtime o
      = (.ok false, deleteRule (some ValidateDelete.notFound)) := by
  obtain ⟨t, ht⟩ := Option.ne_none_iff_exists'.mp hdeleted
  rw [validate_deleteRule, validateDelete_of_key hid, ht]

/-- **Nothing with a key is ever accepted.** -/
theorem not_accepts_deleteRule (message : Option String)
    (hid : o.getPropertyValue "ID" ≠ .ok (.int32 0)) :
    ¬ Accepts runtime o (deleteRule message) := by
  unfold Accepts
  by_cases hdeleted : o.deleted = none
  · rw [validate_not_deleted message hid hdeleted]
    simp
  · rw [validate_deleted message hid hdeleted]
    simp

/-- **The rule decides as it says** on objects without the date, where that is to reject.
With the date it never accepts, and the message it rejects with is not its own, but for a
rule that was built with the one that is set in the `catch`. -/
theorem decidesDelete_iff (o : BusinessObject) (message : Option String)
    (hid : o.getPropertyValue "ID" ≠ .ok (.int32 0)) :
    DecidesDelete runtime o (deleteRule message)
      ↔ o.deleted = none
        ∨ isNullOrEmpty o.deletedBy = true ∧ message = some ValidateDelete.notFound := by
  have hnot := @not_accepts_deleteRule runtime o message hid
  constructor
  · rintro ⟨haccepts, hrejects⟩
    by_cases hdeleted : o.deleted = none
    · exact Or.inl hdeleted
    right
    have hmarked : ¬ MarkedDeleted o := fun h => hnot (haccepts.mpr h)
    have hmessage := hrejects hmarked
    rw [validate_deleted message hid hdeleted, Prod.mk.injEq] at hmessage
    refine ⟨?_, (congrArg BusinessRule.errorMessage hmessage.2).symm⟩
    by_contra hname
    exact hmarked ⟨hdeleted, by simpa using hname⟩
  · rintro (hdeleted | ⟨hname, rfl⟩)
    · have hmarked : ¬ MarkedDeleted o := fun h => h.1 hdeleted
      exact ⟨iff_of_false hnot hmarked, fun _ => validate_not_deleted message hid hdeleted⟩
    · have hmarked : ¬ MarkedDeleted o := fun h => by simp [h.2] at hname
      refine ⟨iff_of_false hnot hmarked, fun _ => ?_⟩
      by_cases hdeleted : o.deleted = none
      · exact validate_not_deleted _ hid hdeleted
      · exact validate_deleted _ hid hdeleted

/-- An object that is not marked as deleted is rejected as it should be. -/
theorem decidesDelete_not_deleted :
    DecidesDelete exampleRuntime (exampleObject none) (deleteRule (some "not deleted")) :=
  (decidesDelete_iff (exampleObject none) (some "not deleted")
    (fun h => absurd (Value.int32.inj (Except.ok.inj h)) (by decide))).mpr (Or.inl rfl)

/-- One that is marked as deleted is not accepted. -/
theorem marked_not_accepted :
    ¬ ∀ o : BusinessObject, o.getPropertyValue "ID" ≠ .ok (.int32 0) →
      DecidesDelete exampleRuntime o (ValidateDelete.new "ID") := by
  intro h
  have hdecides := h { exampleObject (some DateTime.minValue) with deletedBy := some "ana" }
    (fun h => absurd (Value.int32.inj (Except.ok.inj h)) (by decide))
  have hmarked : MarkedDeleted
      { exampleObject (some DateTime.minValue) with deletedBy := some "ana" } :=
    ⟨by simp [exampleObject], by decide⟩
  exact absurd (hdecides.accepts.mpr hmarked) (by decide)

end CgGuide.DeleteRule
