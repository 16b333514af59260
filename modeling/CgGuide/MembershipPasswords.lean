/-
Passwords in every run of `FormsMembershipService`.

A password is given to a user by the call that creates the user and by the calls that
change it, which have to present the one in force. This holds of calls that fail, too:
`CreateUser` may throw with the user created and `UpdateUser` with the password changed,
but neither gives a password that was not passed or takes one away that was not presented
(`password_given`). Where a call that fails leaves the passwords alone, what `ValidateUser`
answers is what the history of the reported successes says (`validateUser_history`).
-/
import CgGuide.MembershipRuns

set_option autoImplicit false

namespace CgGuide.MembershipPasswords

open CgGuide.DotNet CgGuide.Dictionaries CgGuide.Dictionaries.Dictionary
open CgGuide.Program CgGuide.Runs CgGuide.MembershipProviders CgGuide.FormsMembershipService
open CgGuide.MembershipRuns

variable {ignoreCase : String → String} (refusals : Refusals)

/-! ## Validating -/

/-- The password of a user, if there is one of this name. -/
def passwordOf (p : Providers ignoreCase) (u : String) : Option String :=
  (p.users.lookup u).map UserRecord.password

/-- `ValidateUser` of the provider, which may refuse a user for reasons of its own. -/
def providerValidateUser (userName password : String) : Calling ignoreCase Bool :=
  providerCall refusals fun n p =>
    .ok (decide (passwordOf p userName = some password) && refusals.accepts n, p)

/-- `ValidateUser`. -/
def validateUser (userName password : Option String) : Calling ignoreCase Bool := do
  let userName ← requireText userName "userName"
  let password ← requireText password "password"
  providerValidateUser refusals userName password

variable {refusals}

/-- **What `ValidateUser` answers.** -/
theorem validateUser_returns {w w' : World ignoreCase} {userName password : Option String}
    {answer : Bool}
    (h : outcome (validateUser refusals userName password) w = (.ok answer, w')) :
    ∃ u pw, userName = some u ∧ password = some pw ∧ w'.providers = w.providers
      ∧ answer = (decide (passwordOf w.providers u = some pw) && refusals.accepts w.calls) := by
  rw [validateUser, outcome_requireText_bind] at h
  split_ifs at h with huser
  · exact absurd h (by simp)
  rw [outcome_requireText_bind] at h
  split_ifs at h with hpassword
  · exact absurd h (by simp)
  obtain ⟨u, rfl⟩ := exists_of_not_isNullOrEmpty (Bool.eq_false_iff.mpr huser)
  obtain ⟨pw, rfl⟩ := exists_of_not_isNullOrEmpty (Bool.eq_false_iff.mpr hpassword)
  simp only [Option.getD_some] at h
  cases hthrows : refusals.throws w.calls with
  | some e =>
    rw [providerValidateUser, outcome_eq_of_run_error (providerCall_refused hthrows)] at h
    exact absurd h (by simp)
  | none =>
    rw [providerValidateUser, outcome_eq_of_run_ok (providerCall_done hthrows rfl)] at h
    obtain ⟨hanswer, hw'⟩ := Prod.mk.inj h
    rw [← hw', ← Except.ok.inj hanswer]
    exact ⟨u, pw, rfl, rfl, rfl, rfl⟩

/-! ## What a call does to a password -/

/-- The call creates the user with a password. -/
def NewUser (ignoreCase : String → String) (u pw : String) (c : MembershipCall) : Prop :=
  ∃ v email role, c = .createUser (some v) (some pw) email role ∧ ignoreCase v = ignoreCase u

/-- The call changes the user's password from one to another. An `UpdateUser` without one
of the two only assigns the role. -/
def Changes (ignoreCase : String → String) (u old pw : String) (c : MembershipCall) : Prop :=
  ∃ v, ignoreCase v = ignoreCase u ∧ (c = .changePassword (some v) (some old) (some pw)
    ∨ (old ≠ "" ∧ pw ≠ "") ∧ ∃ email role, c = .updateUser (some v) (some pw) (some old) email role)

/-- The call is a `DeleteUser` for the user. -/
def DeletesUser (ignoreCase : String → String) (u : String) (c : MembershipCall) : Prop :=
  ∃ v, c = .deleteUser (some v) ∧ ignoreCase v = ignoreCase u

/-- The call may give the user a password: there is no such user yet, or the call presents
the password in force. -/
def Gives (u pw : String) (p : Providers ignoreCase) (c : MembershipCall) : Prop :=
  passwordOf p u = none ∧ NewUser ignoreCase u pw c
  ∨ ∃ old, passwordOf p u = some old ∧ Changes ignoreCase u old pw c

/-- What can happen to the password of a user: nothing, it is given, or the user goes. -/
def PasswordStep (u : String) (p p' : Providers ignoreCase) (c : MembershipCall) : Prop :=
  passwordOf p' u = passwordOf p u
  ∨ (∃ pw, passwordOf p' u = some pw ∧ Gives u pw p c)
  ∨ passwordOf p' u = none ∧ DeletesUser ignoreCase u c

theorem passwordOf_unchanged {p p' : Providers ignoreCase} (h : Unchanged p p') (u : String) :
    passwordOf p' u = passwordOf p u := by
  rw [passwordOf, passwordOf, h.lookup]

theorem passwordOf_congr (p : Providers ignoreCase) {u v : String}
    (h : ignoreCase u = ignoreCase v) : passwordOf p u = passwordOf p v := by
  rw [passwordOf, passwordOf, lookup_congr p.users h]

theorem passwordOf_changedOnly {p p' : Providers ignoreCase} {v : String}
    {record : Option UserRecord} {roles : List String} (h : ChangedOnly p v record roles p')
    (u : String) :
    passwordOf p' u
      = if ignoreCase u = ignoreCase v then record.map UserRecord.password
        else passwordOf p u := by
  rw [passwordOf, h.lookup]
  split_ifs
  · rfl
  · rfl

/-- A user whose record is as it was, but for the e-mail, keeps the password. -/
theorem passwordOf_kept {p p' : Providers ignoreCase} {v : String} {record : Option UserRecord}
    {roles : List String} (h : ChangedOnly p v record roles p')
    (hrecord : record.map UserRecord.password = passwordOf p v) (u : String) :
    passwordOf p' u = passwordOf p u := by
  rw [passwordOf_changedOnly h]
  by_cases hu : ignoreCase u = ignoreCase v
  · rw [if_pos hu, hrecord, passwordOf_congr p hu]
  · rw [if_neg hu]

/-- The record of a name with a new password: one that was given to it. -/
theorem passwordStep_given {p p' : Providers ignoreCase} {v pw : String} {record : UserRecord}
    {roles : List String} {c : MembershipCall} (h : ChangedOnly p v (some record) roles p')
    (hpw : record.password = pw) (hgives : ∀ u, ignoreCase u = ignoreCase v → Gives u pw p c)
    (u : String) : PasswordStep u p p' c := by
  by_cases hu : ignoreCase u = ignoreCase v
  · right; left
    refine ⟨pw, ?_, hgives u hu⟩
    rw [passwordOf_changedOnly h, if_pos hu, Option.map_some, hpw]
  · left
    rw [passwordOf_changedOnly h, if_neg hu]

theorem passwordStep_of_done {c : MembershipCall} {p p' : Providers ignoreCase} (h : c.Done p p')
    (u : String) : PasswordStep u p p' c := by
  cases c with
  | createUser userName password email role =>
    obtain ⟨v, pw, e, r, rfl, rfl, -, -, hnone, -, h⟩ := h
    refine passwordStep_given h rfl (fun u hu => Or.inl ⟨?_, v, email, role, rfl, hu.symm⟩) u
    rw [passwordOf_congr p hu, passwordOf, hnone, Option.map_none]
  | updateUser userName password oldPassword email role =>
    obtain ⟨v, e, r, rfl, -, hr, h⟩ := h
    -- without both passwords `UpdateUser` leaves the password alone
    split_ifs at h with hkeeps
    · obtain ⟨role', -, -, h⟩ := h
      exact Or.inl (passwordOf_kept h (by rw [passwordOf, hr]; rfl) u)
    · obtain ⟨old, pw, rfl, rfl, hold, h⟩ := h
      refine passwordStep_given h rfl (fun u hu => Or.inr ⟨old, ?_, v, hu.symm,
        Or.inr ⟨by simpa using hkeeps, email, role, rfl⟩⟩) u
      rw [passwordOf_congr p hu, passwordOf, hr, Option.map_some, hold]
  | changePassword userName oldPassword newPassword =>
    obtain ⟨v, r, old, pw, rfl, rfl, rfl, hr, hold, h⟩ := h
    refine passwordStep_given h rfl (fun u hu => Or.inr ⟨old, ?_, v, hu.symm, Or.inl rfl⟩) u
    rw [passwordOf_congr p hu, passwordOf, hr, Option.map_some, hold]
  | deleteUser userName =>
    obtain ⟨v, rfl, h⟩ := h
    by_cases hu : ignoreCase u = ignoreCase v
    · right; right
      refine ⟨?_, v, rfl, hu.symm⟩
      rw [passwordOf_changedOnly h, if_pos hu, Option.map_none]
    · left
      rw [passwordOf_changedOnly h, if_neg hu]

/-- A call that answers no success changes no password. -/
theorem passwordOf_refused {c : MembershipCall} {p p' : Providers ignoreCase}
    (h : c.Refused p p') (u : String) : passwordOf p' u = passwordOf p u := by
  cases c with
  | createUser userName password email role => exact passwordOf_unchanged h u
  | updateUser userName password oldPassword email role => exact passwordOf_unchanged h u
  | changePassword userName oldPassword newPassword => exact passwordOf_unchanged h u
  | deleteUser userName =>
    obtain ⟨v, -, h⟩ := h
    exact passwordOf_kept h rfl u

/-- One that throws may have given one. -/
theorem passwordStep_of_thrown {c : MembershipCall} {p p' : Providers ignoreCase}
    (h : c.Thrown p p') (u : String) : PasswordStep u p p' c := by
  cases c with
  | createUser userName password email role =>
    -- the user may have been created before the call threw
    rcases h with h | ⟨v, pw, e, rfl, rfl, -, hnone, rest, -, h⟩
    · exact Or.inl (passwordOf_unchanged h u)
    · refine passwordStep_given h rfl (fun u hu => Or.inl ⟨?_, v, email, role, rfl, hu.symm⟩) u
      rw [passwordOf_congr p hu, passwordOf, hnone, Option.map_none]
  | updateUser userName password oldPassword email role =>
    rcases h with h | ⟨v, r, rfl, hr, h⟩
    · exact Or.inl (passwordOf_unchanged h u)
    · have hsame : (some r).map UserRecord.password = passwordOf p v := by
        rw [passwordOf, hr]
      split_ifs at h with hkeeps
      · rcases h with ⟨rest, -, h⟩ | ⟨role', -, -, h⟩
        · exact Or.inl (passwordOf_kept h hsame u)
        · exact Or.inl (passwordOf_kept h hsame u)
      · obtain ⟨old, pw, rfl, rfl, hold, h⟩ := h
        refine passwordStep_given h rfl (fun u hu => Or.inr ⟨old, ?_, v, hu.symm,
          Or.inr ⟨by simpa using hkeeps, email, role, rfl⟩⟩) u
        rw [passwordOf_congr p hu, ← hsame, Option.map_some, hold]
  | changePassword userName oldPassword newPassword => exact Or.inl (passwordOf_unchanged h u)
  | deleteUser userName =>
    -- the roles may be gone by then, the user is not
    rcases h with h | ⟨v, -, rest, -, h⟩
    · exact Or.inl (passwordOf_unchanged h u)
    · exact Or.inl (passwordOf_kept h rfl u)

/-- **However a call ends**, a password is kept, given, or gone with its user. -/
theorem passwordStep_after (w : World ignoreCase) (c : MembershipCall) (u : String) :
    PasswordStep u w.providers (after refusals w c).providers c := by
  have hspec := c.program_spec refusals w.providers
  unfold after
  rcases hrun : outcome (c.program refusals) w with ⟨e | answer, w'⟩
  · exact passwordStep_of_thrown (hspec.of_error rfl hrun) u
  · rcases hspec.of_ok rfl hrun with ⟨-, h⟩ | ⟨-, h⟩
    · exact passwordStep_of_done h u
    · exact Or.inl (passwordOf_refused h u)

/-! ## Where a password comes from -/

/-- **Every password was given.** After any run from a start without users, whichever of
its calls fail, a password that `ValidateUser` accepts goes back to a call that created the
user with it or changed the user's password to it, presenting the one in force; and it has
been the user's password ever since. -/
theorem password_given (refusals : Refusals) {start : World ignoreCase}
    (hstart : ∀ u, ¬ UserExists start.providers u) (cs : List MembershipCall) {u pw : String}
    {w' : World ignoreCase}
    (haccepts : outcome (validateUser refusals (some u) (some pw)) (run (after refusals) start cs)
      = (.ok true, w')) :
    Since (after refusals)
      (fun w c => Gives u pw w.providers c ∧ passwordOf (after refusals w c).providers u = some pw)
      (fun w c => ¬ passwordOf (after refusals w c).providers u = some pw) start cs := by
  obtain ⟨v, pw', hv, hpw', -, hanswer⟩ := validateUser_returns haccepts
  obtain rfl := Option.some.inj hv
  obtain rfl := Option.some.inj hpw'
  -- what is accepted is the password the store has
  have hcurrent : passwordOf (run (after refusals) start cs).providers u = some pw := by
    have h := (Bool.and_eq_true _ _).mp hanswer.symm
    exact of_decide_eq_true h.1
  refine since_of_step (P := fun w : World ignoreCase => passwordOf w.providers u = some pw)
    ?_ (fun w c _ h => ?_) (guarded_true start cs) hcurrent
  · intro h
    obtain ⟨record, hrecord, -⟩ := Option.map_eq_some_iff.mp h
    exact hstart u (by rw [UserExists, hrecord, Option.isSome_some])
  · have hstep : PasswordStep u w.providers (after refusals w c).providers c :=
      passwordStep_after w c u
    rcases hstep with hkept | ⟨pw', hpw', hgives⟩ | ⟨hgone, -⟩
    · exact Or.inr (hkept.symm.trans h)
    · obtain rfl := Option.some.inj (hpw'.symm.trans h)
      exact Or.inl hgives
    · rw [hgone] at h
      exact absurd h (by simp)

/-- The password of `ann` after `CreateUser` threw on a role that does not exist: the user
was created all the same, with the password that was passed. -/
theorem password_given_ann :
    Since (after Refusals.never)
      (fun w c => Gives "ann" "secret" w.providers c
        ∧ passwordOf (after Refusals.never w c).providers "ann" = some "secret")
      (fun w c => ¬ passwordOf (after Refusals.never w c).providers "ann" = some "secret")
      (noUsers [])
      [.createUser (some "ann") (some "secret") (some "mail@example.com") (some "Admin")] := by
  have haccepts : ∃ w', outcome (validateUser Refusals.never (some "ann") (some "secret"))
      (run (after Refusals.never) (noUsers [])
        [.createUser (some "ann") (some "secret") (some "mail@example.com") (some "Admin")])
      = (.ok true, w') := ⟨_, rfl⟩
  obtain ⟨w', haccepts⟩ := haccepts
  exact password_given Refusals.never (noUsers_empty []) _ haccepts

/-! ## The password of the history -/

/-- The user name and the password a call passes, if it creates or changes one. -/
def passed : MembershipCall → Option (String × String)
  | .createUser (some v) (some pw) _ _ => some (v, pw)
  | .changePassword (some v) (some _) (some pw) => some (v, pw)
  | .updateUser (some v) (some pw) (some old) _ _ =>
    if old = "" ∨ pw = "" then none else some (v, pw)
  | _ => none

/-- A call that reports success passes the user this password. -/
def Sets (refusals : Refusals) (u pw : String) (w : World ignoreCase) (c : MembershipCall) : Prop :=
  (outcome (c.program refusals) w).1 = .ok true
    ∧ ∃ v, passed c = some (v, pw) ∧ ignoreCase v = ignoreCase u

/-- A call that reports success deletes the user or passes another password. -/
def Unsets (refusals : Refusals) (u pw : String) (w : World ignoreCase) (c : MembershipCall) :
    Prop :=
  (outcome (c.program refusals) w).1 = .ok true
    ∧ (DeletesUser ignoreCase u c
      ∨ ∃ v pw', passed c = some (v, pw') ∧ ignoreCase v = ignoreCase u ∧ pw' ≠ pw)

/-- The call reports success or changes no password. -/
def KeepsOrReports (refusals : Refusals) (w : World ignoreCase) (c : MembershipCall) : Prop :=
  (outcome (c.program refusals) w).1 = .ok true
    ∨ ∀ u, passwordOf (after refusals w c).providers u = passwordOf w.providers u

/-- What is passed with success is the password afterwards. -/
theorem changedOnly_of_passed {c : MembershipCall} {p p' : Providers ignoreCase}
    (h : c.Done p p') {v pw : String} (hpassed : passed c = some (v, pw)) :
    (∃ record roles, ChangedOnly p v (some record) roles p' ∧ record.password = pw)
      ∧ ∀ u, ¬ DeletesUser ignoreCase u c := by
  cases c with
  | createUser userName password email role =>
    obtain ⟨v', pw', e, r, rfl, rfl, -, -, -, -, h⟩ := h
    obtain ⟨rfl, rfl⟩ := Prod.mk.inj (Option.some.inj hpassed)
    exact ⟨⟨_, _, h, rfl⟩, by rintro u ⟨_, hdelete, -⟩; simp at hdelete⟩
  | updateUser userName password oldPassword email role =>
    obtain ⟨v', e, r, rfl, -, -, h⟩ := h
    refine ⟨?_, by rintro u ⟨_, hdelete, -⟩; simp at hdelete⟩
    split_ifs at h with hkeeps
    · -- without one of the two passwords none is passed
      cases password with
      | none => exact absurd hpassed (by simp [passed])
      | some pw' =>
        cases oldPassword with
        | none => exact absurd hpassed (by simp [passed])
        | some old =>
          have hempty : old = "" ∨ pw' = "" := by simpa using hkeeps
          rw [passed, if_pos hempty] at hpassed
          exact absurd hpassed (by simp)
    · obtain ⟨old, pw', rfl, rfl, -, h⟩ := h
      have hboth : ¬ (old = "" ∨ pw' = "") := by simpa using hkeeps
      rw [passed, if_neg hboth] at hpassed
      obtain ⟨rfl, rfl⟩ := Prod.mk.inj (Option.some.inj hpassed)
      exact ⟨_, _, h, rfl⟩
  | changePassword userName oldPassword newPassword =>
    obtain ⟨v', r, old, pw', rfl, rfl, rfl, -, -, h⟩ := h
    obtain ⟨rfl, rfl⟩ := Prod.mk.inj (Option.some.inj hpassed)
    exact ⟨⟨_, _, h, rfl⟩, by rintro u ⟨_, hdelete, -⟩; simp at hdelete⟩
  | deleteUser userName => exact absurd hpassed (by simp [passed])

/-- Where nothing is passed, the user is deleted, or every password is as it was. -/
theorem passwordOf_of_not_passed {c : MembershipCall} {p p' : Providers ignoreCase}
    (h : c.Done p p') (hpassed : passed c = none) (u : String) :
    DeletesUser ignoreCase u c ∧ passwordOf p' u = none
      ∨ ¬ DeletesUser ignoreCase u c ∧ passwordOf p' u = passwordOf p u := by
  cases c with
  | createUser userName password email role =>
    obtain ⟨v, pw, e, r, rfl, rfl, -⟩ := h
    exact absurd hpassed (by simp [passed])
  | updateUser userName password oldPassword email role =>
    obtain ⟨v, e, r, rfl, -, hr, h⟩ := h
    refine Or.inr ⟨by rintro ⟨_, hdelete, -⟩; simp at hdelete, ?_⟩
    split_ifs at h with hkeeps
    · obtain ⟨role', -, -, h⟩ := h
      exact passwordOf_kept h (by rw [passwordOf, hr]; rfl) u
    · obtain ⟨old, pw, rfl, rfl, -, -⟩ := h
      have hboth : ¬ (old = "" ∨ pw = "") := by simpa using hkeeps
      rw [passed, if_neg hboth] at hpassed
      exact absurd hpassed (by simp)
  | changePassword userName oldPassword newPassword =>
    obtain ⟨v, r, old, pw, rfl, rfl, rfl, -⟩ := h
    exact absurd hpassed (by simp [passed])
  | deleteUser userName =>
    obtain ⟨v, rfl, h⟩ := h
    by_cases hu : ignoreCase u = ignoreCase v
    · left
      refine ⟨⟨v, rfl, hu.symm⟩, ?_⟩
      rw [passwordOf_changedOnly h, if_pos hu, Option.map_none]
    · right
      refine ⟨?_, ?_⟩
      · rintro ⟨v', hdelete, hv'⟩
        obtain rfl := Option.some.inj (MembershipCall.deleteUser.inj hdelete)
        exact hu hv'.symm
      · rw [passwordOf_changedOnly h, if_neg hu]

/-- **One call**, by what it passes and whether it reports success. -/
theorem passwordOf_after (u pw : String) (w : World ignoreCase) (c : MembershipCall)
    (hc : KeepsOrReports refusals w c) :
    passwordOf (after refusals w c).providers u = some pw
      ↔ Sets refusals u pw w c
        ∨ passwordOf w.providers u = some pw ∧ ¬ Unsets refusals u pw w c := by
  by_cases hok : (outcome (c.program refusals) w).1 = .ok true
  · have hdone : c.Done w.providers (after refusals w c).providers := by
      have hspec := c.program_spec refusals w.providers
      unfold after
      rcases hrun : outcome (c.program refusals) w with ⟨e | answer, w'⟩
      · rw [hrun] at hok
        exact absurd hok (by simp)
      · rw [hrun] at hok
        rcases hspec.of_ok rfl hrun with ⟨-, h⟩ | ⟨hanswer, -⟩
        · exact h
        · rw [hanswer] at hok
          exact absurd hok (by simp)
    simp only [Sets, Unsets, hok, true_and]
    -- a call that passes a password sets it for its user, any other sets none
    cases hpassed : passed c with
    | none =>
      rcases passwordOf_of_not_passed hdone hpassed u with ⟨hdelete, hgone⟩ | ⟨hother, hkept⟩
      · simp [hgone, hdelete]
      · simp [hkept, hother]
    | some x =>
      obtain ⟨v, pw₀⟩ := x
      obtain ⟨⟨record, roles, hchanged, rfl⟩, hother⟩ := changedOnly_of_passed hdone hpassed
      rw [passwordOf_changedOnly hchanged]
      by_cases hu : ignoreCase u = ignoreCase v
      · rw [if_pos hu, Option.map_some]
        by_cases hpw : record.password = pw
        · simp [hpw, hu]
        · simp [hpw, hu]
      · rw [if_neg hu]
        simp [hother u, Ne.symm hu]
  -- the call reports no success, so it has changed no password
  · have hkept : passwordOf (after refusals w c).providers u = passwordOf w.providers u :=
      (hc.resolve_left hok) u
    simp only [Sets, Unsets, hok, false_and, false_or, not_false_eq_true, and_true, hkept]

/-- **`ValidateUser` against the history.** After any run from a start without users in
which each call reports success or changes no password, `ValidateUser` accepts a password
exactly when a call that reported success passed it and none since deleted the user or
passed another one, unless the provider refuses the user for a reason of its own. -/
theorem validateUser_history (refusals : Refusals) {start : World ignoreCase}
    (hstart : ∀ u, ¬ UserExists start.providers u) {cs : List MembershipCall}
    (hcs : Guarded (after refusals) (KeepsOrReports refusals) start cs) {u pw : String}
    {answer : Bool} {w' : World ignoreCase}
    (hanswer : outcome (validateUser refusals (some u) (some pw)) (run (after refusals) start cs)
      = (.ok answer, w')) :
    answer = true ↔ Since (after refusals) (Sets refusals u pw) (Unsets refusals u pw) start cs
      ∧ refusals.accepts (run (after refusals) start cs).calls = true := by
  have hnone : ¬ passwordOf start.providers u = some pw := by
    intro h
    obtain ⟨record, hrecord, -⟩ := Option.map_eq_some_iff.mp h
    exact hstart u (by rw [UserExists, hrecord, Option.isSome_some])
  have hhistory := iff_since
    (P := fun w : World ignoreCase => passwordOf w.providers u = some pw) hnone
    (passwordOf_after u pw) hcs
  obtain ⟨v, pw', hv, hpw', -, rfl⟩ := validateUser_returns hanswer
  obtain rfl := Option.some.inj hv
  obtain rfl := Option.some.inj hpw'
  rw [Bool.and_eq_true, decide_eq_true_iff, hhistory]

/-- A user is created and changes the password. -/
def annChanges : List MembershipCall :=
  [.createUser (some "ann") (some "secret") (some "mail@example.com") (some "Admin"),
    .changePassword (some "ann") (some "secret") (some "other")]

/-- The password of `ann` is the second one. -/
theorem validateUser_of_ann :
    Since (after Refusals.never) (Sets Refusals.never "ann" "other")
      (Unsets Refusals.never "ann" "other") (noUsers ["Admin"]) annChanges := by
  have hanswer : ∃ w', outcome (validateUser Refusals.never (some "ann") (some "other"))
      (run (after Refusals.never) (noUsers ["Admin"]) annChanges) = (.ok true, w') :=
    ⟨_, rfl⟩
  obtain ⟨w', hanswer⟩ := hanswer
  have hreports : Guarded (after Refusals.never) (KeepsOrReports Refusals.never)
      (noUsers ["Admin"]) annChanges := ⟨Or.inl (by decide), Or.inl (by decide), trivial⟩
  exact ((validateUser_history Refusals.never (noUsers_empty ["Admin"]) hreports hanswer).mp
    rfl).1

end CgGuide.MembershipPasswords
