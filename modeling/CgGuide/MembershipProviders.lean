/-
The two providers behind `FormsMembershipService`.

The membership provider is a map from user names to a password and an e-mail, the
role provider a set of roles for each user name; neither knows of the other, so a
user may be gone and keep roles. User names are compared by the providers' own
comparer, `ignoreCase` here. Data of a user that the service does not read or write
(dates, questions, comments) is left out.

What a provider may refuse for reasons of its own (a rule for passwords, an e-mail
that is taken, a database that does not answer) is not in this repository. A
`Refusals` decides it call by call, and every result holds for every `Refusals`. A
call that fails has no effect.
-/
import CgGuide.Dictionaries
import CgGuide.DotNet
import CgGuide.Program

set_option autoImplicit false

namespace CgGuide.MembershipProviders

open CgGuide.DotNet CgGuide.KeyedTable CgGuide.Dictionaries CgGuide.Dictionaries.Dictionary
open CgGuide.Program

/-! ## The data of the providers -/

/-- What the membership provider keeps under a user name. -/
structure UserRecord where
  password : String
  email : Option String
deriving DecidableEq

/-- `MembershipUser`, as the provider hands it out: a copy. -/
structure MembershipUser where
  userName : String
  email : Option String
deriving DecidableEq

inductive MembershipCreateStatus
  | success
  | invalidUserName
  | invalidPassword
  | invalidQuestion
  | invalidAnswer
  | invalidEmail
  | duplicateUserName
  | duplicateEmail
  | userRejected
  | invalidProviderUserKey
  | duplicateProviderUserKey
  | providerError
deriving DecidableEq

/-- The users, the roles there are, and who is in which role. -/
structure Providers (ignoreCase : String → String) where
  users : Dictionary ignoreCase UserRecord
  roles : List String
  usersInRoles : Table (fun a : String × String => (ignoreCase a.1, a.2))
  roles_exist : ∀ a ∈ usersInRoles.rows, a.2 ∈ roles

variable {ignoreCase : String → String}

namespace Providers

/-- The roles of a user name. -/
def rolesFor (p : Providers ignoreCase) (userName : String) : List String :=
  (p.usersInRoles.rows.filter
    (fun a => decide (ignoreCase a.1 = ignoreCase userName))).map Prod.snd

theorem mem_rolesFor (p : Providers ignoreCase) (userName role : String) :
    role ∈ p.rolesFor userName
      ↔ ∃ a ∈ p.usersInRoles.rows, ignoreCase a.1 = ignoreCase userName ∧ a.2 = role := by
  rw [rolesFor, List.mem_map]
  refine exists_congr (fun a => ?_)
  rw [List.mem_filter, decide_eq_true_iff, and_assoc]

/-- No role is listed twice. -/
theorem rolesFor_nodup (p : Providers ignoreCase) (userName : String) :
    (p.rolesFor userName).Nodup := by
  rw [rolesFor]
  refine (List.nodup_map_iff_inj_on (p.usersInRoles.keys_nodup.of_map.filter _)).mpr ?_
  intro a ha b hb hab
  obtain ⟨ha, hau⟩ := List.mem_filter.mp ha
  obtain ⟨hb, hbu⟩ := List.mem_filter.mp hb
  apply p.usersInRoles.eq_of_key_eq ha hb
  rw [of_decide_eq_true hau, of_decide_eq_true hbu, hab]

theorem rolesFor_congr (p : Providers ignoreCase) {u v : String} (h : ignoreCase u = ignoreCase v) :
    p.rolesFor u = p.rolesFor v := by
  rw [rolesFor, rolesFor, h]

/-- The user leaves a role. -/
def removeFromRole (p : Providers ignoreCase) (userName role : String) : Providers ignoreCase where
  users := p.users
  roles := p.roles
  usersInRoles := p.usersInRoles.erase (ignoreCase userName, role)
  roles_exist := fun a ha => p.roles_exist a (List.mem_filter.mp ha).1

/-- The user, who is not in the role, joins it. -/
def addToRole (p : Providers ignoreCase) (userName role : String) (hrole : role ∈ p.roles)
    (hnew : p.usersInRoles.find? (ignoreCase userName, role) = none) : Providers ignoreCase where
  users := p.users
  roles := p.roles
  usersInRoles := p.usersInRoles.append (userName, role) hnew
  roles_exist := by
    intro a ha
    rcases List.mem_append.mp ha with hold | hsame
    · exact p.roles_exist a hold
    · rw [List.mem_singleton.mp hsame]
      exact hrole

theorem rows_removeFromRole (p : Providers ignoreCase) (userName role : String) :
    (p.removeFromRole userName role).usersInRoles.rows
      = p.usersInRoles.rows.filter
          (fun a => decide ((ignoreCase a.1, a.2) ≠ (ignoreCase userName, role))) := rfl

theorem rows_addToRole (p : Providers ignoreCase) (userName role : String) (hrole : role ∈ p.roles)
    (hnew : p.usersInRoles.find? (ignoreCase userName, role) = none) :
    (p.addToRole userName role hrole hnew).usersInRoles.rows
      = p.usersInRoles.rows ++ [(userName, role)] := rfl

theorem rolesFor_removeFromRole (p : Providers ignoreCase) (userName role : String) :
    (p.removeFromRole userName role).rolesFor userName
      = (p.rolesFor userName).filter (fun r => decide (r ≠ role)) := by
  rw [rolesFor, rolesFor, rows_removeFromRole, List.filter_filter, List.filter_map,
    List.filter_filter]
  congr 1
  apply List.filter_congr
  intro a _
  -- an assignment of this user goes exactly when it is of this role
  by_cases hu : ignoreCase a.1 = ignoreCase userName
  · by_cases hr : a.2 = role
    · simp [hu, hr]
    · simp [hu, hr]
  · simp [hu]

theorem rolesFor_removeFromRole_of_ne (p : Providers ignoreCase) {userName v : String}
    (role : String) (hv : ignoreCase v ≠ ignoreCase userName) :
    (p.removeFromRole userName role).rolesFor v = p.rolesFor v := by
  rw [rolesFor, rolesFor, rows_removeFromRole, List.filter_filter]
  congr 1
  apply List.filter_congr
  intro a _
  by_cases hu : ignoreCase a.1 = ignoreCase v
  · simp [hu, hv]
  · simp [hu]

theorem rolesFor_addToRole (p : Providers ignoreCase) (userName role : String)
    (hrole : role ∈ p.roles) (hnew : p.usersInRoles.find? (ignoreCase userName, role) = none) :
    (p.addToRole userName role hrole hnew).rolesFor userName = p.rolesFor userName ++ [role] := by
  rw [rolesFor, rolesFor, rows_addToRole, List.filter_append, List.map_append,
    List.filter_cons, if_pos (decide_eq_true rfl), List.filter_nil, List.map_singleton]

theorem rolesFor_addToRole_of_ne (p : Providers ignoreCase) {userName v : String} (role : String)
    (hrole : role ∈ p.roles) (hnew : p.usersInRoles.find? (ignoreCase userName, role) = none)
    (hv : ignoreCase v ≠ ignoreCase userName) :
    (p.addToRole userName role hrole hnew).rolesFor v = p.rolesFor v := by
  have hout : decide (ignoreCase userName = ignoreCase v) = false := decide_eq_false hv.symm
  rw [rolesFor, rolesFor, rows_addToRole, List.filter_append, List.map_append,
    List.filter_cons, if_neg (by rw [hout]; exact Bool.false_ne_true), List.filter_nil,
    List.map_nil, List.append_nil]

end Providers

/-! ## Calls -/

/-- What the providers refuse, for the call with each number. -/
structure Refusals where
  /-- The call throws. -/
  throws : ℕ → Option Exception
  /-- The status of `CreateUser` for a name that is not taken. -/
  createStatus : ℕ → MembershipCreateStatus
  /-- `ChangePassword` and `DeleteUser` accept what they could do. -/
  accepts : ℕ → Bool

/-- Providers that do what they are asked to. -/
def Refusals.never : Refusals := ⟨fun _ => none, fun _ => .success, fun _ => true⟩

/-- None of the `count` calls from the one numbered `first` throws. -/
def Refusals.Answers (refusals : Refusals) (first count : ℕ) : Prop :=
  ∀ i < count, refusals.throws (first + i) = none

namespace Refusals.Answers

variable {refusals : Refusals} {first m n : ℕ}

theorem left (h : refusals.Answers first (m + n)) : refusals.Answers first m :=
  fun i hi => h i (by omega)

theorem right (h : refusals.Answers first (m + n)) : refusals.Answers (first + m) n := by
  intro i hi
  rw [Nat.add_assoc]
  exact h (m + i) (by omega)

theorem one (h : refusals.Answers first 1) : refusals.throws first = none := h 0 (by omega)

end Refusals.Answers

/-- The providers and the number of calls made to them. -/
structure World (ignoreCase : String → String) where
  providers : Providers ignoreCase
  calls : ℕ

/-- A program that calls the providers. -/
abbrev Calling (ignoreCase : String → String) (α : Type) : Type :=
  EStateM Exception (World ignoreCase) α

/-- A property of the providers, of a world. -/
def Holds (P : Providers ignoreCase → Prop) (w : World ignoreCase) : Prop := P w.providers

variable (refusals : Refusals) {α : Type}

/-- One call of a provider: refused, failed on what it found, or done. -/
def providerCall (f : ℕ → Providers ignoreCase → Except Exception (α × Providers ignoreCase)) :
    Calling ignoreCase α := fun w =>
  -- a call that throws is counted too, so that the next one is asked about anew
  match refusals.throws w.calls with
  | some e => .error e { w with calls := w.calls + 1 }
  | none =>
    match f w.calls w.providers with
    | .error e => .error e { w with calls := w.calls + 1 }
    | .ok (a, p) => .ok a ⟨p, w.calls + 1⟩

section Running

variable {refusals}
  {f : ℕ → Providers ignoreCase → Except Exception (α × Providers ignoreCase)}
  {w : World ignoreCase}

theorem providerCall_refused {e : Exception} (h : refusals.throws w.calls = some e) :
    (providerCall refusals f).run w = .error e { w with calls := w.calls + 1 } := by
  show providerCall refusals f w = _
  simp only [providerCall, h]

theorem providerCall_failed {e : Exception} (h : refusals.throws w.calls = none)
    (hf : f w.calls w.providers = .error e) :
    (providerCall refusals f).run w = .error e { w with calls := w.calls + 1 } := by
  show providerCall refusals f w = _
  simp only [providerCall, h, hf]

theorem providerCall_done {a : α} {p : Providers ignoreCase} (h : refusals.throws w.calls = none)
    (hf : f w.calls w.providers = .ok (a, p)) :
    (providerCall refusals f).run w = .ok a ⟨p, w.calls + 1⟩ := by
  show providerCall refusals f w = _
  simp only [providerCall, h, hf]

end Running

/-- **One call**: what it does when it answers is what `f` does, and when it fails it
does nothing. -/
theorem providerCall_spec
    {f : ℕ → Providers ignoreCase → Except Exception (α × Providers ignoreCase)}
    {P : Providers ignoreCase → Prop} {Q : α → Providers ignoreCase → Prop}
    (hf : ∀ n p a p', P p → f n p = .ok (a, p') → Q a p') :
    Triple (Holds P) (providerCall refusals f) (fun a => Holds (Q a)) (fun _ => Holds P) := by
  intro w hw
  cases hthrows : refusals.throws w.calls with
  | some e =>
    rw [outcome_eq_of_run_error (providerCall_refused hthrows)]
    exact hw
  | none =>
    rcases hcall : f w.calls w.providers with e | ⟨a, p⟩
    · rw [outcome_eq_of_run_error (providerCall_failed hthrows hcall)]
      exact hw
    · rw [outcome_eq_of_run_ok (providerCall_done hthrows hcall)]
      exact hf w.calls w.providers a p hw hcall

namespace MembershipProvider

/-- `CreateUser`. -/
def createUser (userName password email : String) : Calling ignoreCase MembershipCreateStatus :=
  providerCall refusals fun n p =>
    match p.users.lookup userName with
    | some _ => .ok (.duplicateUserName, p)
    | none =>
      if refusals.createStatus n = .success then
        .ok (.success, { p with users := p.users.set userName ⟨password, some email⟩ })
      else .ok (refusals.createStatus n, p)

/-- `DeleteUser` without the related data: roles stay. -/
def deleteUser (userName : String) : Calling ignoreCase Bool :=
  providerCall refusals fun n p =>
    match p.users.lookup userName with
    | none => .ok (false, p)
    | some _ =>
      if refusals.accepts n then .ok (true, { p with users := p.users.remove userName })
      else .ok (false, p)

/-- `GetUser`; the user carries the name that was asked for. -/
def getUser (userName : Option String) : Calling ignoreCase (Option MembershipUser) :=
  providerCall refusals fun _ p =>
    match userName with
    | none => .error { type := .argumentNull }
    | some userName => .ok ((p.users.lookup userName).map (fun r => ⟨userName, r.email⟩), p)

/-- `ChangePassword`. -/
def changePassword (userName oldPassword newPassword : String) : Calling ignoreCase Bool :=
  providerCall refusals fun n p =>
    match p.users.lookup userName with
    | none => .ok (false, p)
    | some r =>
      if r.password = oldPassword ∧ refusals.accepts n then
        .ok (true, { p with users := p.users.set userName { r with password := newPassword } })
      else .ok (false, p)

/-- `UpdateUser`. -/
def updateUser (user : MembershipUser) : Calling ignoreCase PUnit :=
  providerCall refusals fun _ p =>
    match p.users.lookup user.userName with
    | none => .error { type := .provider }
    | some r =>
      .ok (⟨⟩, { p with users := p.users.set user.userName { r with email := user.email } })

end MembershipProvider

namespace RoleProvider

/-- `GetRolesForUser`. -/
def getRolesForUser (userName : String) : Calling ignoreCase (List String) :=
  providerCall refusals fun _ p => .ok (p.rolesFor userName, p)

/-- `IsUserInRole`. -/
def isUserInRole (userName role : String) : Calling ignoreCase Bool :=
  providerCall refusals fun _ p => .ok (decide (role ∈ p.rolesFor userName), p)

/-- `RemoveUsersFromRoles`, for one user and one role. -/
def removeUsersFromRoles (userName role : String) : Calling ignoreCase PUnit :=
  providerCall refusals fun _ p =>
    if role ∈ p.rolesFor userName then .ok (⟨⟩, p.removeFromRole userName role)
    else .error { type := .provider }

/-- `AddUsersToRoles`, for one user and one role. -/
def addUsersToRoles (userName : String) (role : Option String) : Calling ignoreCase PUnit :=
  providerCall refusals fun _ p =>
    match role with
    | none => .error { type := .argumentNull }
    | some role =>
      if hrole : role ∈ p.roles then
        if hnew : p.usersInRoles.find? (ignoreCase userName, role) = none then
          .ok (⟨⟩, p.addToRole userName role hrole hnew)
        else .error { type := .provider }
      else .error { type := .provider }

end RoleProvider

/-! ## For concrete runs -/

/-- No users yet, under names compared as they are written. -/
def noUsers (roles : List String) : World (id : String → String) where
  providers :=
    { users := Dictionary.empty
      roles := roles
      usersInRoles := ⟨[], List.nodup_nil⟩
      roles_exist := fun _ h => absurd h List.not_mem_nil }
  calls := 0

end CgGuide.MembershipProviders
