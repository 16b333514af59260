/-
What a failing call of `FormsMembershipService` leaves behind.

The service has no transaction around its provider calls and nothing that undoes
them: what was done before the call that failed stays done. `Left` says what that
can be. It is never more than the record or the roles of the one user, each method
has its own few ways to be interrupted, and a call that only answers a failure
(a status, `false`) has changed nothing, except that `DeleteUser` resets the roles
before it asks the provider.
-/
import CgGuide.FormsMembershipService

set_option autoImplicit false

namespace CgGuide.MembershipFailures

open CgGuide.DotNet CgGuide.Program
open CgGuide.MembershipProviders CgGuide.FormsMembershipService

variable {ignoreCase : String → String}

/-- What a call leaves that throws, or that answers something else than success. -/
def Left (c : MembershipCall) (p p' : Providers ignoreCase) : Except Exception Bool → Prop
  | .ok _ => c.Refused p p'
  | .error _ => c.Thrown p p'

/-- **Every failing call**, from any state of the providers and whatever they refuse. -/
theorem left_of_failure (refusals : Refusals) (w : World ignoreCase) (c : MembershipCall)
    (hfail : (outcome (c.program refusals) w).1 ≠ .ok true) :
    Left c w.providers (outcome (c.program refusals) w).2.providers
      (outcome (c.program refusals) w).1 := by
  have hspec := c.program_spec refusals w.providers
  rcases hrun : outcome (c.program refusals) w with ⟨e | answer, w'⟩
  · exact hspec.of_error rfl hrun
  · rw [hrun] at hfail
    rcases hspec.of_ok rfl hrun with ⟨rfl, -⟩ | ⟨-, h⟩
    · exact absurd rfl hfail
    · exact h

/-- Creating a user in a role that there is not. -/
def createInMissingRole : MembershipCall :=
  .createUser (some "ann") (some "secret") (some "ann@example.com") (some "Editor")

theorem left_of_missing_role :
    Left createInMissingRole (noUsers ["Admin"]).providers
      (outcome (createInMissingRole.program Refusals.never) (noUsers ["Admin"])).2.providers
      (outcome (createInMissingRole.program Refusals.never) (noUsers ["Admin"])).1 :=
  left_of_failure Refusals.never (noUsers ["Admin"]) createInMissingRole (by
    intro h
    exact absurd h (by decide))

/-- The user stays, in no role, though `CreateUser` throws. -/
theorem missing_role_keeps_user :
    ¬ ∀ (refusals : Refusals) (w : World (id : String → String)) (c : MembershipCall),
      (∀ userName old new, c ≠ .changePassword userName old new) →
      (outcome (c.program refusals) w).1 ≠ .ok true →
      Unchanged w.providers (outcome (c.program refusals) w).2.providers := by
  intro h
  have hsame := h Refusals.never (noUsers ["Admin"]) createInMissingRole
    (fun _ _ _ hc => (nomatch hc)) (by
      intro h
      exact absurd h (by decide))
  exact absurd (hsame.lookup "ann") (by decide)

end CgGuide.MembershipFailures
