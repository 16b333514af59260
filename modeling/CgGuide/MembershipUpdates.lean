/-
What an `UpdateUser` that returns has done.

The method has two branches. Without both passwords it resets the roles, adds the new
one and writes the e-mail; with both it changes the password and writes the e-mail, and
the role it was given is not looked at. Everything else the two branches owe their
caller they do: the e-mail is the new one, the password is kept or changed as it
should be, and nobody else is touched (`updated_iff`).
-/
import CgGuide.FormsMembershipService

set_option autoImplicit false

namespace CgGuide.MembershipUpdates

open CgGuide.DotNet CgGuide.Dictionaries CgGuide.Dictionaries.Dictionary CgGuide.Program
open CgGuide.MembershipProviders CgGuide.FormsMembershipService

variable {ignoreCase : String → String}

/-- A password is changed only if both are given. -/
def keepsPassword (password oldPassword : Option String) : Bool :=
  isNullOrEmpty oldPassword || isNullOrEmpty password

/-- What is asked of an update of the user `u`, whose record was `r`. -/
structure Updated (p : Providers ignoreCase) (u : String) (r : UserRecord)
    (password oldPassword : Option String) (email role : String) (p' : Providers ignoreCase) :
    Prop where
  record : p'.users.lookup u
    = some ⟨if keepsPassword password oldPassword then r.password else password.getD "",
        some email⟩
  roles : p'.rolesFor u = [role]
  lookup_other : ∀ v, ignoreCase v ≠ ignoreCase u → p'.users.lookup v = p.users.lookup v
  rolesFor_other : ∀ v, ignoreCase v ≠ ignoreCase u → p'.rolesFor v = p.rolesFor v

/-- Whatever the branch, what is changed is the record, which is as asked, and in the
first branch the roles. -/
theorem changed_of_returns (refusals : Refusals) {w w' : World ignoreCase} {u email role : String}
    {r : UserRecord} {password oldPassword : Option String}
    (hu : w.providers.users.lookup u = some r)
    (hrun : outcome (updateUser refusals (some u) password oldPassword (some email) (some role)) w
      = (.ok ⟨⟩, w')) :
    ChangedOnly w.providers u
      (some ⟨if keepsPassword password oldPassword then r.password else password.getD "",
        some email⟩)
      (if keepsPassword password oldPassword then [role] else w.providers.rolesFor u)
      w'.providers := by
  have hdone := (updateUser_spec (p := w.providers) refusals).of_ok rfl hrun
  obtain ⟨u', e, r', hu', he, hr', h⟩ := hdone
  obtain rfl := Option.some.inj hu'
  obtain rfl := Option.some.inj he
  rw [hu, Option.some.injEq] at hr'
  subst hr'
  by_cases hkeep : keepsPassword password oldPassword = true
  · rw [if_pos hkeep, if_pos hkeep]
    rw [keepsPassword] at hkeep
    rw [if_pos hkeep] at h
    obtain ⟨role', hrole, -, h⟩ := h
    obtain rfl := Option.some.inj hrole
    exact h
  · rw [if_neg hkeep, if_neg hkeep]
    rw [keepsPassword] at hkeep
    rw [if_neg hkeep] at h
    obtain ⟨old, pw, -, rfl, -, h⟩ := h
    exact h

/-- **An update that returns has done what it is asked** exactly when it was not to
change the password, or the user's only role already was the one asked for. -/
theorem updated_iff (refusals : Refusals) {w w' : World ignoreCase} {u email role : String}
    {r : UserRecord} {password oldPassword : Option String}
    (hu : w.providers.users.lookup u = some r)
    (hrun : outcome (updateUser refusals (some u) password oldPassword (some email) (some role)) w
      = (.ok ⟨⟩, w')) :
    Updated w.providers u r password oldPassword email role w'.providers
      ↔ isNullOrEmpty oldPassword = true ∨ isNullOrEmpty password = true
        ∨ w.providers.rolesFor u = [role] := by
  have hchanged := changed_of_returns refusals hu hrun
  have hcondition : keepsPassword password oldPassword = true
      ↔ isNullOrEmpty oldPassword = true ∨ isNullOrEmpty password = true := by
    rw [keepsPassword, Bool.or_eq_true]
  rw [← or_assoc, ← hcondition]
  by_cases hkeep : keepsPassword password oldPassword = true
  · refine iff_of_true ?_ (Or.inl hkeep)
    have hroles := hchanged.rolesFor_self
    rw [if_pos hkeep] at hroles
    exact ⟨hchanged.lookup_self, hroles, hchanged.lookup_other, hchanged.rolesFor_other⟩
  · -- the branch that changes the password leaves the roles
    have hroles := hchanged.rolesFor_self
    rw [if_neg hkeep] at hroles
    rw [or_iff_right hkeep]
    constructor
    · intro hupdated
      rw [← hroles]
      exact hupdated.roles
    · intro hsame
      exact ⟨hchanged.lookup_self, hroles.trans hsame, hchanged.lookup_other,
        hchanged.rolesFor_other⟩

/-- One user in the role `Admin`; there is another role. -/
def oneAdmin : World (id : String → String) :=
  (outcome (createUser Refusals.never (some "ann") (some "secret") (some "ann@example.com")
    (some "Admin")) (noUsers ["Admin", "Editor"])).2

/-- Without a new password, the role is the new one. -/
theorem updated_role :
    Updated oneAdmin.providers "ann" ⟨"secret", some "ann@example.com"⟩ none none
      "ann@example.org" "Editor"
      (outcome (updateUser Refusals.never (some "ann") none none (some "ann@example.org")
        (some "Editor")) oneAdmin).2.providers :=
  (updated_iff Refusals.never (by decide) (by rfl)).mpr (Or.inl rfl)

/-- With one, the role stays. -/
theorem password_keeps_role :
    (outcome (updateUser Refusals.never (some "ann") (some "changed") (some "secret")
        (some "ann@example.org") (some "Editor")) oneAdmin).1 = .ok ⟨⟩
      ∧ (outcome (updateUser Refusals.never (some "ann") (some "changed") (some "secret")
        (some "ann@example.org") (some "Editor")) oneAdmin).2.providers.rolesFor "ann" = ["Admin"]
      ∧ ¬ Updated oneAdmin.providers "ann" ⟨"secret", some "ann@example.com"⟩ (some "changed")
        (some "secret") "ann@example.org" "Editor"
        (outcome (updateUser Refusals.never (some "ann") (some "changed") (some "secret")
          (some "ann@example.org") (some "Editor")) oneAdmin).2.providers := by
  have hroles : (outcome (updateUser Refusals.never (some "ann") (some "changed") (some "secret")
      (some "ann@example.org") (some "Editor")) oneAdmin).2.providers.rolesFor "ann"
        = ["Admin"] := by decide +kernel
  refine ⟨by rfl, hroles, fun hupdated => ?_⟩
  rw [hupdated.roles] at hroles
  exact absurd hroles (by decide)

end CgGuide.MembershipUpdates
