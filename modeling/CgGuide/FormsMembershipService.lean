/-
`FormsMembershipService`: users with one role each, over two providers.

Every method works on one user name, and so do all the provider calls it makes. What
a method has done so far is therefore said by one relation: `ChangedOnly p u record
roles p'` has the providers `p'` equal to `p` for every other user, and `record` and
`roles` for `u`. Each provider call moves `record` or `roles` and keeps the relation;
the methods compose the calls.
-/
import CgGuide.MembershipProviders

set_option autoImplicit false

namespace CgGuide.FormsMembershipService

open CgGuide.DotNet CgGuide.Dictionaries CgGuide.Dictionaries.Dictionary
open CgGuide.Program CgGuide.MembershipProviders

variable {ignoreCase : String → String}

/-! ## The service -/

section Service

variable (refusals : Refusals)

/-- The guard at the head of a method: the text, which must be there. -/
def requireText (value : Option String) (paramName : String) : Calling ignoreCase String :=
  if isNullOrEmpty value then
    throw { type := .argument, message := some "Value cannot be null or empty.",
            paramName := some paramName }
  else pure (value.getD "")

/-- One pass of the loop of `ResetRoles`. -/
def resetRole (userName role : String) : Calling ignoreCase PUnit := do
  let isInRole ← RoleProvider.isUserInRole refusals userName role
  if isInRole then RoleProvider.removeUsersFromRoles refusals userName role else pure ⟨⟩

/-- `ResetRoles`. -/
def resetRoles (userName : String) : Calling ignoreCase PUnit := do
  let roles ← RoleProvider.getRolesForUser refusals userName
  roles.forM (resetRole refusals userName)

/-- `CreateUser`. -/
def createUser (userName password email role : Option String) :
    Calling ignoreCase MembershipCreateStatus := do
  let userName ← requireText userName "userName"
  let password ← requireText password "password"
  let email ← requireText email "email"
  let status ← MembershipProvider.createUser refusals userName password email
  if status = .success then do
    resetRoles refusals userName
    RoleProvider.addUsersToRoles refusals userName role
    pure status
  else pure status

/-- `DeleteUser`. -/
def deleteUser (userName : Option String) : Calling ignoreCase Bool := do
  let userName ← requireText userName "userName"
  resetRoles refusals userName
  MembershipProvider.deleteUser refusals userName

/-- `UpdateUser`. -/
def updateUser (userName password oldPassword email role : Option String) :
    Calling ignoreCase PUnit := do
  let email ← requireText email "email"
  let user ← MembershipProvider.getUser refusals userName
  match user with
  | none => throw { type := .exception, message := some "Usuario no encontrado" }
  | some user =>
    -- `user.userName` is the name that was passed, which is not null here
    if isNullOrEmpty oldPassword || isNullOrEmpty password then do
      resetRoles refusals user.userName
      RoleProvider.addUsersToRoles refusals user.userName role
      MembershipProvider.updateUser refusals { user with email := some email }
    else do
      let changed ← MembershipProvider.changePassword refusals user.userName
        (oldPassword.getD "") (password.getD "")
      if changed then MembershipProvider.updateUser refusals { user with email := some email }
      else
        throw { type := .exception,
                message := some "Ha ocurrido un error al cambiar la clave." }

/-- The handlers of `ChangePassword`, for `ArgumentException` and
`MembershipPasswordException`. -/
def catchPasswordErrors (e : Exception) : Calling ignoreCase Bool :=
  match e.type with
  | .argument => pure false
  -- `ArgumentNullException` is an `ArgumentException`
  | .argumentNull => pure false
  | .membershipPassword => pure false
  | _ => throw e

/-- `ChangePassword`. -/
def changePassword (userName oldPassword newPassword : Option String) :
    Calling ignoreCase Bool := do
  let userName ← requireText userName "userName"
  let oldPassword ← requireText oldPassword "oldPassword"
  let newPassword ← requireText newPassword "newPassword"
  tryCatch
    (do
      let currentUser ← MembershipProvider.getUser refusals (some userName)
      match currentUser with
      | none => throw { type := .nullReference }
      | some currentUser =>
        MembershipProvider.changePassword refusals currentUser.userName oldPassword newPassword)
    catchPasswordErrors

/-- `GetUserRole`: the first role. -/
def getUserRole (userName : String) : Calling ignoreCase String := do
  let roles ← RoleProvider.getRolesForUser refusals userName
  match roles with
  | [] => throw { type := .indexOutOfRange }
  | role :: _ => pure role

end Service

/-! ## What is changed -/

/-- Nothing but the record and the roles of one user is changed; these are now as
given. -/
structure ChangedOnly (p : Providers ignoreCase) (u : String) (record : Option UserRecord)
    (roles : List String) (p' : Providers ignoreCase) : Prop where
  existing : p'.roles = p.roles
  lookup_self : p'.users.lookup u = record
  rolesFor_self : p'.rolesFor u = roles
  lookup_other : ∀ v, ignoreCase v ≠ ignoreCase u → p'.users.lookup v = p.users.lookup v
  rolesFor_other : ∀ v, ignoreCase v ≠ ignoreCase u → p'.rolesFor v = p.rolesFor v

/-- Nothing is changed. -/
theorem ChangedOnly.refl (p : Providers ignoreCase) (u : String) :
    ChangedOnly p u (p.users.lookup u) (p.rolesFor u) p :=
  ⟨rfl, rfl, rfl, fun _ _ => rfl, fun _ _ => rfl⟩

theorem ChangedOnly.of_eq {p : Providers ignoreCase} {w : World ignoreCase} (h : Holds (Eq p) w)
    (u : String) : Holds (ChangedOnly p u (p.users.lookup u) (p.rolesFor u)) w := by
  rw [Holds, ← show p = w.providers from h]
  exact ChangedOnly.refl p u

/-- Every user has the record, and the set of roles, that it had. -/
structure Unchanged (p p' : Providers ignoreCase) : Prop where
  lookup : ∀ v, p'.users.lookup v = p.users.lookup v
  mem_rolesFor : ∀ v role, role ∈ p'.rolesFor v ↔ role ∈ p.rolesFor v

theorem Unchanged.refl (p : Providers ignoreCase) : Unchanged p p :=
  ⟨fun _ => rfl, fun _ _ => Iff.rfl⟩

theorem Unchanged.of_eq {p : Providers ignoreCase} {w : World ignoreCase} (h : Holds (Eq p) w) :
    Holds (Unchanged p) w := by
  rw [Holds, ← show p = w.providers from h]
  exact Unchanged.refl p

namespace ChangedOnly

variable {p p' : Providers ignoreCase} {u : String} {record : Option UserRecord}
  {roles : List String}

/-- The records of every name, also of other spellings of the user's. -/
theorem lookup (h : ChangedOnly p u record roles p') (v : String) :
    p'.users.lookup v = if ignoreCase v = ignoreCase u then record else p.users.lookup v := by
  split_ifs with hv
  · rw [lookup_congr p'.users hv, h.lookup_self]
  · exact h.lookup_other v hv

theorem rolesFor (h : ChangedOnly p u record roles p') (v : String) :
    p'.rolesFor v = if ignoreCase v = ignoreCase u then roles else p.rolesFor v := by
  split_ifs with hv
  · rw [Providers.rolesFor_congr p' hv, h.rolesFor_self]
  · exact h.rolesFor_other v hv

/-- Naming a record by where it came from. -/
theorem of_lookup {r : UserRecord} (h : ChangedOnly p u (some r) roles p')
    (hr : p.users.lookup u = some r) : ChangedOnly p u (p.users.lookup u) roles p' := by
  rw [hr]
  exact h

/-- The user has what it had. -/
theorem unchanged (h : ChangedOnly p u (p.users.lookup u) (p.rolesFor u) p') : Unchanged p p' where
  lookup := by
    intro v
    rw [h.lookup]
    split_ifs with hv
    · exact (lookup_congr p.users hv).symm
    · rfl
  mem_rolesFor := by
    intro v role
    rw [h.rolesFor]
    split_ifs with hv
    · rw [Providers.rolesFor_congr p hv]
    · exact Iff.rfl

theorem roles_nodup (h : ChangedOnly p u record roles p') : roles.Nodup := by
  rw [← h.rolesFor_self]
  exact p'.rolesFor_nodup u

/-- A write of the user's record. -/
theorem set (h : ChangedOnly p u record roles p') (r : UserRecord) :
    ChangedOnly p u (some r) roles { p' with users := p'.users.set u r } where
  existing := h.existing
  lookup_self := by rw [lookup_set, if_pos rfl]
  rolesFor_self := h.rolesFor_self
  lookup_other := by
    intro v hv
    rw [lookup_set, if_neg hv]
    exact h.lookup_other v hv
  rolesFor_other := h.rolesFor_other

theorem remove (h : ChangedOnly p u record roles p') :
    ChangedOnly p u none roles { p' with users := p'.users.remove u } where
  existing := h.existing
  lookup_self := by rw [lookup_remove, if_pos rfl]
  rolesFor_self := h.rolesFor_self
  lookup_other := by
    intro v hv
    rw [lookup_remove, if_neg hv]
    exact h.lookup_other v hv
  rolesFor_other := h.rolesFor_other

theorem removeFromRole (h : ChangedOnly p u record roles p') (role : String) :
    ChangedOnly p u record (roles.filter (fun r => decide (r ≠ role)))
      (p'.removeFromRole u role) where
  existing := h.existing
  lookup_self := h.lookup_self
  rolesFor_self := by rw [Providers.rolesFor_removeFromRole, h.rolesFor_self]
  lookup_other := h.lookup_other
  rolesFor_other := by
    intro v hv
    rw [Providers.rolesFor_removeFromRole_of_ne p' role hv]
    exact h.rolesFor_other v hv

theorem addToRole (h : ChangedOnly p u record roles p') (role : String) (hrole : role ∈ p'.roles)
    (hnew : p'.usersInRoles.find? (ignoreCase u, role) = none) :
    ChangedOnly p u record (roles ++ [role]) (p'.addToRole u role hrole hnew) where
  existing := h.existing
  lookup_self := h.lookup_self
  rolesFor_self := by rw [Providers.rolesFor_addToRole, h.rolesFor_self]
  lookup_other := h.lookup_other
  rolesFor_other := by
    intro v hv
    rw [Providers.rolesFor_addToRole_of_ne p' role hrole hnew hv]
    exact h.rolesFor_other v hv

end ChangedOnly

/-! ## What the provider calls change -/

section Calls

variable (refusals : Refusals) {p : Providers ignoreCase} {u : String}
  {record : Option UserRecord} {roles : List String}

theorem getRolesForUser_spec :
    Triple (Holds (ChangedOnly p u record roles)) (RoleProvider.getRolesForUser refusals u)
      (fun answer => Holds fun p' => answer = roles ∧ ChangedOnly p u record roles p')
      (fun _ => Holds (ChangedOnly p u record roles)) := by
  apply providerCall_spec refusals
  intro n p' answer p'' h hok
  obtain ⟨rfl, rfl⟩ := Prod.mk.inj (Except.ok.inj hok)
  exact ⟨h.rolesFor_self, h⟩

theorem isUserInRole_spec (role : String) :
    Triple (Holds (ChangedOnly p u record roles)) (RoleProvider.isUserInRole refusals u role)
      (fun answer => Holds fun p' =>
        answer = decide (role ∈ roles) ∧ ChangedOnly p u record roles p')
      (fun _ => Holds (ChangedOnly p u record roles)) := by
  apply providerCall_spec refusals
  intro n p' answer p'' h hok
  obtain ⟨rfl, rfl⟩ := Prod.mk.inj (Except.ok.inj hok)
  refine ⟨?_, h⟩
  rw [h.rolesFor_self]

theorem removeUsersFromRoles_spec (role : String) :
    Triple (Holds (ChangedOnly p u record roles))
      (RoleProvider.removeUsersFromRoles refusals u role)
      (fun _ => Holds <| ChangedOnly p u record (roles.filter (fun r => decide (r ≠ role))))
      (fun _ => Holds (ChangedOnly p u record roles)) := by
  apply providerCall_spec refusals
  intro n p' answer p'' h hok
  split_ifs at hok
  rw [← (Prod.mk.inj (Except.ok.inj hok)).2]
  exact h.removeFromRole role

theorem addUsersToRoles_spec (role : Option String) :
    Triple (Holds (ChangedOnly p u record roles)) (RoleProvider.addUsersToRoles refusals u role)
      (fun _ => Holds fun p' =>
        ∃ r, role = some r ∧ r ∈ p.roles ∧ ChangedOnly p u record (roles ++ [r]) p')
      (fun _ => Holds (ChangedOnly p u record roles)) := by
  apply providerCall_spec refusals
  intro n p' answer p'' h hok
  cases role with
  | none => exact absurd hok.symm (nomatch hok)
  | some r =>
    simp only at hok
    split_ifs at hok with hrole hnew
    rw [← (Prod.mk.inj (Except.ok.inj hok)).2]
    exact ⟨r, rfl, h.existing ▸ hrole, h.addToRole r hrole hnew⟩

/-- A name that is taken is refused; a new user has the roles that its name had. -/
theorem provider_createUser_spec (password email : String) :
    Triple (Holds (ChangedOnly p u record roles))
      (MembershipProvider.createUser refusals u password email)
      (fun status => Holds fun p' =>
        status = .success ∧ record = none ∧ ChangedOnly p u (some ⟨password, some email⟩) roles p'
        ∨ status ≠ .success ∧ ChangedOnly p u record roles p')
      (fun _ => Holds (ChangedOnly p u record roles)) := by
  apply providerCall_spec refusals
  intro n p' status p'' h hok
  cases hlookup : p'.users.lookup u with
  | some r =>
    simp only [hlookup] at hok
    obtain ⟨rfl, rfl⟩ := Prod.mk.inj (Except.ok.inj hok)
    exact Or.inr ⟨by decide, h⟩
  | none =>
    simp only [hlookup] at hok
    split_ifs at hok with hstatus
    · obtain ⟨rfl, rfl⟩ := Prod.mk.inj (Except.ok.inj hok)
      exact Or.inl ⟨rfl, h.lookup_self.symm.trans hlookup, h.set _⟩
    · obtain ⟨rfl, rfl⟩ := Prod.mk.inj (Except.ok.inj hok)
      exact Or.inr ⟨hstatus, h⟩

theorem provider_deleteUser_spec :
    Triple (Holds (ChangedOnly p u record roles)) (MembershipProvider.deleteUser refusals u)
      (fun answer => Holds fun p' =>
        answer = true ∧ ChangedOnly p u none roles p'
        ∨ answer = false ∧ ChangedOnly p u record roles p')
      (fun _ => Holds (ChangedOnly p u record roles)) := by
  apply providerCall_spec refusals
  intro n p' answer p'' h hok
  cases hlookup : p'.users.lookup u with
  | none =>
    simp only [hlookup] at hok
    obtain ⟨rfl, rfl⟩ := Prod.mk.inj (Except.ok.inj hok)
    exact Or.inr ⟨rfl, h⟩
  | some r =>
    simp only [hlookup] at hok
    split_ifs at hok
    · obtain ⟨rfl, rfl⟩ := Prod.mk.inj (Except.ok.inj hok)
      exact Or.inl ⟨rfl, h.remove⟩
    · obtain ⟨rfl, rfl⟩ := Prod.mk.inj (Except.ok.inj hok)
      exact Or.inr ⟨rfl, h⟩

theorem getUser_spec :
    Triple (Holds (ChangedOnly p u record roles)) (MembershipProvider.getUser refusals (some u))
      (fun answer => Holds fun p' =>
        answer = record.map (fun r => ⟨u, r.email⟩) ∧ ChangedOnly p u record roles p')
      (fun _ => Holds (ChangedOnly p u record roles)) := by
  apply providerCall_spec refusals
  intro n p' answer p'' h hok
  obtain ⟨rfl, rfl⟩ := Prod.mk.inj (Except.ok.inj hok)
  refine ⟨?_, h⟩
  rw [h.lookup_self]

/-- The provider has no user without a name. -/
theorem getUser_none_spec (P : Providers ignoreCase → Prop) :
    Triple (Holds P) (MembershipProvider.getUser refusals none) (fun _ _ => False)
      (fun _ => Holds P) := by
  refine (providerCall_spec refusals (Q := fun _ _ => False) ?_)
  intro n p' answer p'' h hok
  exact (nomatch hok)

theorem provider_changePassword_spec (oldPassword newPassword : String) :
    Triple (Holds (ChangedOnly p u record roles))
      (MembershipProvider.changePassword refusals u oldPassword newPassword)
      (fun answer => Holds fun p' =>
        (answer = true ∧ ∃ r, record = some r ∧ r.password = oldPassword
          ∧ ChangedOnly p u (some { r with password := newPassword }) roles p')
        ∨ answer = false ∧ ChangedOnly p u record roles p')
      (fun _ => Holds (ChangedOnly p u record roles)) := by
  apply providerCall_spec refusals
  intro n p' answer p'' h hok
  cases hlookup : p'.users.lookup u with
  | none =>
    simp only [hlookup] at hok
    obtain ⟨rfl, rfl⟩ := Prod.mk.inj (Except.ok.inj hok)
    exact Or.inr ⟨rfl, h⟩
  | some r =>
    simp only [hlookup] at hok
    split_ifs at hok with hold
    · obtain ⟨rfl, rfl⟩ := Prod.mk.inj (Except.ok.inj hok)
      exact Or.inl ⟨rfl, r, h.lookup_self.symm.trans hlookup, hold.1, h.set _⟩
    · obtain ⟨rfl, rfl⟩ := Prod.mk.inj (Except.ok.inj hok)
      exact Or.inr ⟨rfl, h⟩

theorem provider_updateUser_spec (email : Option String) :
    Triple (Holds (ChangedOnly p u record roles))
      (MembershipProvider.updateUser refusals ⟨u, email⟩)
      (fun _ => Holds fun p' =>
        ∃ r, record = some r ∧ ChangedOnly p u (some { r with email := email }) roles p')
      (fun _ => Holds (ChangedOnly p u record roles)) := by
  apply providerCall_spec refusals
  intro n p' answer p'' h hok
  cases hlookup : p'.users.lookup u with
  | none =>
    simp [hlookup] at hok
  | some r =>
    simp only [hlookup] at hok
    rw [← (Prod.mk.inj (Except.ok.inj hok)).2]
    exact ⟨r, h.lookup_self.symm.trans hlookup, h.set _⟩

/-! ## What the methods change -/

theorem requireText_spec (P : Providers ignoreCase → Prop) (value : Option String)
    (paramName : String) :
    Triple (Holds P) (requireText value paramName)
      (fun text => Holds fun p' => (value = some text ∧ text ≠ "") ∧ P p') (fun _ => Holds P) := by
  refine Triple.ite (fun _ => Triple.throw (fun _ h => h)) ?_
  intro hvalue
  apply Triple.pure
  intro w hw
  cases value with
  | none => exact absurd rfl hvalue
  | some text =>
    rw [isNullOrEmpty_some, beq_iff_eq] at hvalue
    exact ⟨⟨rfl, hvalue⟩, hw⟩

/-- A method behind such a guard: it is refused before it calls a provider, or goes on
with the text that was passed. -/
theorem requireText_bind {α : Type} {P : Providers ignoreCase → Prop} {value : Option String}
    {paramName : String} {f : String → Calling ignoreCase α} {Q : α → World ignoreCase → Prop}
    {E : Exception → World ignoreCase → Prop} (hrefused : ∀ e w, Holds P w → E e w)
    (hf : ∀ text, value = some text → Triple (Holds P) (f text) Q E) :
    Triple (Holds P) (requireText value paramName >>= f) Q E := by
  refine Triple.bind (requireText_spec P value paramName) hrefused (fun text => ?_)
  rintro w ⟨⟨hvalue, -⟩, hw⟩
  exact hf text hvalue w hw

/-- The roles are reset as far as the loop came: what is left is a tail of them. -/
def PartlyReset (p : Providers ignoreCase) (u : String) (record : Option UserRecord)
    (roles : List String) (p' : Providers ignoreCase) : Prop :=
  ∃ rest, rest <:+ roles ∧ ChangedOnly p u record rest p'

/-- One pass removes the first role that is left. -/
theorem resetRole_spec (role : String) (rest : List String) :
    Triple (Holds (ChangedOnly p u record (role :: rest))) (resetRole refusals u role)
      (fun _ => Holds (ChangedOnly p u record rest))
      (fun _ => Holds (ChangedOnly p u record (role :: rest))) := by
  refine Triple.bind (isUserInRole_spec refusals role) (fun _ _ h => h) (fun isInRole => ?_)
  rintro w ⟨rfl, hw⟩
  have hin : decide (role ∈ role :: rest) = true := decide_eq_true List.mem_cons_self
  have hrest : (role :: rest).filter (fun r => decide (r ≠ role)) = rest := by
    have hnew : role ∉ rest := (List.nodup_cons.mp hw.roles_nodup).1
    rw [List.filter_cons, if_neg (by simp), List.filter_eq_self]
    intro r hr
    rw [decide_eq_true_iff]
    rintro rfl
    exact hnew hr
  rw [hin, if_pos rfl]
  have hremove := @removeUsersFromRoles_spec _ refusals p u record (role :: rest) role
  rw [hrest] at hremove
  exact hremove w hw

/-- The loop is about to look at `rest`, a tail of the roles it runs over. -/
def LoopAt (p : Providers ignoreCase) (u : String) (record : Option UserRecord)
    (roles rest : List String) (w : World ignoreCase) : Prop :=
  rest <:+ roles ∧ ChangedOnly p u record rest w.providers

theorem resetRole_loop (role : String) (rest : List String) :
    Triple (LoopAt p u record roles (role :: rest)) (resetRole refusals u role)
      (fun _ => LoopAt p u record roles rest) (fun _ => Holds (PartlyReset p u record roles)) := by
  rintro w ⟨hsuffix, hw⟩
  refine (resetRole_spec refusals role rest).mono (fun _ h => h) ?_ ?_ w hw
  · intro _ w' hw'
    exact ⟨(List.suffix_cons role rest).trans hsuffix, hw'⟩
  · intro _ w' hw'
    exact ⟨role :: rest, hsuffix, hw'⟩

/-- **`ResetRoles`** leaves the user without roles; where a call fails, the loop has
come to some role and the rest are left. -/
theorem resetRoles_spec :
    Triple (Holds (ChangedOnly p u record roles)) (resetRoles refusals u)
      (fun _ => Holds (ChangedOnly p u record []))
      (fun _ => Holds (PartlyReset p u record roles)) := by
  refine Triple.bind (getRolesForUser_spec refusals)
    (fun _ _ h => ⟨roles, List.suffix_refl roles, h⟩) (fun answer => ?_)
  rintro w ⟨rfl, hw⟩
  exact (Triple.forM (resetRole_loop refusals) answer).mono (fun _ h => h) (fun _ _ h => h.2)
    (fun _ _ h => h) w ⟨List.suffix_refl answer, hw⟩

/-- **`ResetRoles` and `AddUsersToRoles`** leave the user in the one role; where a call
fails, some of the old roles are left. -/
theorem setRole_spec (role : Option String) :
    Triple (Holds (ChangedOnly p u record roles))
      (do
        resetRoles refusals u
        RoleProvider.addUsersToRoles refusals u role)
      (fun _ => Holds fun p' =>
        ∃ r, role = some r ∧ r ∈ p.roles ∧ ChangedOnly p u record [r] p')
      (fun _ => Holds (PartlyReset p u record roles)) := by
  refine Triple.bind (resetRoles_spec refusals) (fun _ _ h => h) (fun _ => ?_)
  refine (addUsersToRoles_spec refusals role).mono (fun _ h => h) (fun _ _ h => h) ?_
  intro _ w h
  exact ⟨[], List.nil_suffix, h⟩

end Calls

/-! ### How far the calls get

As long as no call throws for a reason of the provider's, the loop runs to its end, two
calls for each role, and what it does is what it may do.
-/

section Returns

variable {refusals : Refusals} {u : String}

theorem outcome_requireText_bind {α : Type} (value : Option String) (paramName : String)
    (f : String → Calling ignoreCase α) (w : World ignoreCase) :
    outcome (requireText value paramName >>= f) w
      = if isNullOrEmpty value then
          (.error { type := .argument, message := some "Value cannot be null or empty.",
                    paramName := some paramName }, w)
        else outcome (f (value.getD "")) w := by
  rw [outcome_bind, requireText]
  split_ifs
  · rfl
  · rfl

theorem resetRole_returns {w : World ignoreCase} {role : String} {rest : List String}
    (hroles : w.providers.rolesFor u = role :: rest) (hanswers : refusals.Answers w.calls 2) :
    ∃ w', outcome (resetRole refusals u role) w = (.ok ⟨⟩, w') ∧ w'.calls = w.calls + 2
      ∧ w'.providers.rolesFor u = rest := by
  have hin : role ∈ w.providers.rolesFor u := by
    rw [hroles]
    exact List.mem_cons_self
  have hask : (RoleProvider.isUserInRole refusals u role).run w
      = .ok true ⟨w.providers, w.calls + 1⟩ := by
    apply providerCall_done (Refusals.Answers.one (Refusals.Answers.left (n := 1) hanswers))
    rw [decide_eq_true hin]
  have hremove : (RoleProvider.removeUsersFromRoles refusals u role).run
      ⟨w.providers, w.calls + 1⟩
      = .ok ⟨⟩ ⟨w.providers.removeFromRole u role, w.calls + 1 + 1⟩ := by
    apply providerCall_done (Refusals.Answers.one (Refusals.Answers.right (m := 1) hanswers))
    exact if_pos hin
  have hrun : outcome (resetRole refusals u role) w
      = (.ok ⟨⟩, ⟨w.providers.removeFromRole u role, w.calls + 1 + 1⟩) := by
    unfold resetRole
    rw [outcome_bind_ok hask, if_pos rfl]
    exact outcome_eq_of_run_ok hremove
  have hrest := (resetRole_spec (p := w.providers) refusals role rest).of_ok
    (by rw [Holds, ← hroles]; exact ChangedOnly.refl w.providers u) hrun
  exact ⟨_, hrun, rfl, hrest.rolesFor_self⟩

theorem forM_returns (roles : List String) : ∀ {w : World ignoreCase},
    w.providers.rolesFor u = roles → refusals.Answers w.calls (2 * roles.length) →
      ∃ w', outcome (roles.forM (resetRole refusals u)) w = (.ok ⟨⟩, w')
        ∧ w'.calls = w.calls + 2 * roles.length := by
  induction roles with
  | nil => exact fun _ _ => ⟨_, rfl, rfl⟩
  | cons role rest ih =>
      intro w hroles hanswers
      rw [List.length_cons, Nat.mul_succ, Nat.add_comm] at hanswers
      obtain ⟨w₁, hrun, hcalls, hrest⟩ := resetRole_returns hroles hanswers.left
      obtain ⟨w₂, hloop, hend⟩ := ih hrest (by rw [hcalls]; exact hanswers.right)
      refine ⟨w₂, ?_, ?_⟩
      · show outcome (resetRole refusals u role >>= fun _ => rest.forM (resetRole refusals u)) w
          = _
        rw [outcome_bind, hrun]
        exact hloop
      · rw [hend, hcalls, List.length_cons]
        omega

/-- `CreateUser` of the provider changes no roles; it creates a user whose name is not
taken, unless it has a reason of its own not to. -/
theorem provider_createUser_answers {w : World ignoreCase}
    (hthrows : refusals.throws w.calls = none) (u password email : String) :
    ∃ status p₁, (MembershipProvider.createUser refusals u password email).run w
        = .ok status ⟨p₁, w.calls + 1⟩
      ∧ p₁.roles = w.providers.roles ∧ p₁.rolesFor = w.providers.rolesFor
      ∧ (status = .success
        ↔ w.providers.users.lookup u = none ∧ refusals.createStatus w.calls = .success) := by
  cases hlookup : w.providers.users.lookup u with
  | some r =>
    refine ⟨.duplicateUserName, w.providers, providerCall_done hthrows ?_, rfl, rfl, ?_⟩
    · simp only [hlookup]
    · simp
  | none =>
    by_cases hstatus : refusals.createStatus w.calls = .success
    · refine ⟨.success,
        { w.providers with users := w.providers.users.set u ⟨password, some email⟩ },
        providerCall_done hthrows ?_, rfl, rfl, ?_⟩
      · simp only [hlookup, hstatus, if_true]
      · simp [hstatus]
    · refine ⟨refusals.createStatus w.calls, w.providers, providerCall_done hthrows ?_, rfl, rfl,
        ?_⟩
      · simp only [hlookup, if_neg hstatus]
      · simp

/-- **Assigning a role returns** when the role exists and no call throws. -/
theorem setRole_returns {w : World ignoreCase} {role : String} (hrole : role ∈ w.providers.roles)
    (hanswers : refusals.Answers w.calls (1 + 2 * (w.providers.rolesFor u).length + 1)) :
    ∃ w', outcome (do
      resetRoles refusals u
      RoleProvider.addUsersToRoles refusals u (some role)) w = (.ok ⟨⟩, w') := by
  have hask : (RoleProvider.getRolesForUser refusals u).run w
      = .ok (w.providers.rolesFor u) ⟨w.providers, w.calls + 1⟩ :=
    providerCall_done hanswers.left.left.one rfl
  obtain ⟨w₁, hloop, hcalls⟩ := forM_returns (u := u) (w.providers.rolesFor u)
    (w := ⟨w.providers, w.calls + 1⟩) rfl hanswers.left.right
  have hreset : outcome (resetRoles refusals u) w = (.ok ⟨⟩, w₁) := by
    unfold resetRoles
    rw [outcome_bind_ok hask]
    exact hloop
  have hleft := (resetRoles_spec refusals).of_ok (ChangedOnly.refl w.providers u) hreset
  have hrole' : role ∈ w₁.providers.roles := by
    rw [hleft.existing]
    exact hrole
  have hnew : w₁.providers.usersInRoles.find? (ignoreCase u, role) = none := by
    -- an assignment that is left would be a role of the user
    rw [KeyedTable.Table.find?_eq_none]
    intro a ha hkey
    obtain ⟨hu, hr⟩ := Prod.mk.inj hkey
    have hmem := (Providers.mem_rolesFor w₁.providers u role).mpr ⟨a, ha, hu, hr⟩
    rw [hleft.rolesFor_self] at hmem
    exact absurd hmem List.not_mem_nil
  have hadd : (RoleProvider.addUsersToRoles refusals u (some role)).run w₁
      = .ok ⟨⟩ ⟨w₁.providers.addToRole u role hrole' hnew, w₁.calls + 1⟩ := by
    refine providerCall_done ?_ ?_
    · rw [hcalls, Nat.add_assoc]
      exact hanswers.right.one
    · simp only [dif_pos hrole', dif_pos hnew]
  refine ⟨⟨w₁.providers.addToRole u role hrole' hnew, w₁.calls + 1⟩, ?_⟩
  rw [outcome_bind, hreset]
  exact outcome_eq_of_run_ok hadd

end Returns

/-! ### What each method leaves

Where a method fails, `p'` is what it had done by then. -/

section Methods

variable (userName password oldPassword email role : Option String)

def CreateUserDone (p p' : Providers ignoreCase) : Prop :=
  ∃ u pw e r, userName = some u ∧ password = some pw ∧ email = some e ∧ role = some r
    ∧ p.users.lookup u = none ∧ r ∈ p.roles ∧ ChangedOnly p u (some ⟨pw, some e⟩) [r] p'

/-- The user is there, with some of the roles its name had. -/
def CreateUserLeft (p p' : Providers ignoreCase) : Prop :=
  ∃ u pw e, userName = some u ∧ password = some pw ∧ email = some e
    ∧ p.users.lookup u = none ∧ PartlyReset p u (some ⟨pw, some e⟩) (p.rolesFor u) p'

/-- The roles of a user are gone, or some of them. -/
def DeleteUserLeft (p p' : Providers ignoreCase) : Prop :=
  ∃ u, userName = some u ∧ PartlyReset p u (p.users.lookup u) (p.rolesFor u) p'

/-- The two branches of `UpdateUser`. -/
def UpdateUserDone (p p' : Providers ignoreCase) : Prop :=
  ∃ u e r, userName = some u ∧ email = some e ∧ p.users.lookup u = some r
    ∧ if isNullOrEmpty oldPassword || isNullOrEmpty password then
        ∃ role', role = some role' ∧ role' ∈ p.roles
          ∧ ChangedOnly p u (some { r with email := some e }) [role'] p'
      else
        ∃ old pw, oldPassword = some old ∧ password = some pw ∧ r.password = old
          ∧ ChangedOnly p u (some ⟨pw, some e⟩) (p.rolesFor u) p'

def ChangePasswordDone (p p' : Providers ignoreCase) : Prop :=
  ∃ u r old pw, userName = some u ∧ oldPassword = some old ∧ password = some pw
    ∧ p.users.lookup u = some r ∧ r.password = old
    ∧ ChangedOnly p u (some { r with password := pw }) (p.rolesFor u) p'

/-- Without a new password the record is as it was, and the roles are some of the old
ones or the new one; with one the roles are as they were, and the password is the new
one. -/
def UpdateUserLeft (p p' : Providers ignoreCase) : Prop :=
  ∃ u r, userName = some u ∧ p.users.lookup u = some r
    ∧ if isNullOrEmpty oldPassword || isNullOrEmpty password then
        PartlyReset p u (some r) (p.rolesFor u) p'
        ∨ ∃ role', role = some role' ∧ role' ∈ p.roles ∧ ChangedOnly p u (some r) [role'] p'
      else
        ∃ old pw, oldPassword = some old ∧ password = some pw ∧ r.password = old
          ∧ ChangedOnly p u (some { r with password := pw }) (p.rolesFor u) p'

variable (refusals : Refusals) {userName password oldPassword email role}
  {p : Providers ignoreCase}

/-- **`CreateUser`.** -/
theorem createUser_spec :
    Triple (Holds (Eq p)) (createUser refusals userName password email role)
      (fun status => Holds fun p' =>
        status = .success ∧ CreateUserDone userName password email role p p'
        ∨ status ≠ .success ∧ Unchanged p p')
      (fun _ => Holds fun p' =>
        Unchanged p p' ∨ CreateUserLeft userName password email p p') := by
  have hrefused : ∀ (_ : Exception) (w : World ignoreCase), Holds (Eq p) w →
      Holds (fun p' => Unchanged p p' ∨ CreateUserLeft userName password email p p') w :=
    fun _ _ h => Or.inl (Unchanged.of_eq h)
  unfold createUser
  apply requireText_bind hrefused
  rintro u rfl
  apply requireText_bind hrefused
  rintro pw rfl
  apply requireText_bind hrefused
  rintro e rfl w hw
  refine Triple.bind (provider_createUser_spec refusals pw e) ?_ (fun status => ?_) w
    (ChangedOnly.of_eq hw u)
  · intro _ w₁ h
    exact Or.inl h.unchanged
  rintro w₁ (⟨rfl, hnew, h₁⟩ | ⟨hstatus, h₁⟩)
  · -- the user is created; what follows can only fail behind that
    rw [if_pos rfl, ← bind_assoc]
    refine Triple.bind (setRole_spec refusals role) ?_ (fun _ => ?_) w₁ h₁
    · intro _ w₂ h
      exact Or.inr ⟨u, pw, e, rfl, rfl, rfl, hnew, h⟩
    apply Triple.pure
    rintro w₂ ⟨r, hrole, hmem, h₂⟩
    exact Or.inl ⟨rfl, u, pw, e, r, rfl, rfl, rfl, hrole, hnew, hmem, h₂⟩
  · rw [if_neg hstatus]
    exact Or.inr ⟨hstatus, h₁.unchanged⟩

/-- **`DeleteUser`**: the roles go first. -/
theorem deleteUser_spec :
    Triple (Holds (Eq p)) (deleteUser refusals userName)
      (fun answer => Holds fun p' => ∃ u, userName = some u
        ∧ (answer = true ∧ ChangedOnly p u none [] p'
          ∨ answer = false ∧ ChangedOnly p u (p.users.lookup u) [] p'))
      (fun _ => Holds fun p' => Unchanged p p' ∨ DeleteUserLeft userName p p') := by
  unfold deleteUser
  apply requireText_bind (fun _ _ h => Or.inl (Unchanged.of_eq h))
  rintro u rfl w hw
  refine Triple.bind (resetRoles_spec refusals) ?_ (fun _ => ?_) w (ChangedOnly.of_eq hw u)
  · intro _ w₁ h
    exact Or.inr ⟨u, rfl, h⟩
  refine (provider_deleteUser_spec refusals).mono (fun _ h => h) ?_ ?_
  · intro answer w₁ h
    exact ⟨u, rfl, h⟩
  · intro _ w₁ h
    exact Or.inr ⟨u, rfl, [], List.nil_suffix, h⟩

/-- `UpdateUser` without a new password: the record is written last, and until then only
the roles can have changed. -/
theorem updateRole_spec {u e : String} {r : UserRecord} {roles : List String} :
    Triple (Holds (ChangedOnly p u (some r) roles))
      (do
        resetRoles refusals u
        RoleProvider.addUsersToRoles refusals u role
        MembershipProvider.updateUser refusals ⟨u, some e⟩)
      (fun _ => Holds fun p' => ∃ role', role = some role' ∧ role' ∈ p.roles
        ∧ ChangedOnly p u (some { r with email := some e }) [role'] p')
      (fun _ => Holds fun p' => PartlyReset p u (some r) roles p'
        ∨ ∃ role', role = some role' ∧ role' ∈ p.roles ∧ ChangedOnly p u (some r) [role'] p') := by
  rw [← bind_assoc]
  refine Triple.bind (setRole_spec refusals role) (fun _ _ h => Or.inl h) (fun _ => ?_)
  rintro w ⟨role', hrole, hmem, h⟩
  refine (provider_updateUser_spec refusals (some e)).mono (fun _ h => h) ?_ ?_ w h
  · rintro _ w' ⟨r', hr', h'⟩
    rw [← Option.some.inj hr'] at h'
    exact ⟨role', hrole, hmem, h'⟩
  · exact fun _ _ h' => Or.inr ⟨role', hrole, hmem, h'⟩

/-- `UpdateUser` with a new password, which is written before the e-mail. -/
theorem updatePassword_spec {u e old pw : String} {r : UserRecord} {roles : List String} :
    Triple (Holds (ChangedOnly p u (some r) roles))
      (do
        let changed ← MembershipProvider.changePassword refusals u old pw
        if changed then MembershipProvider.updateUser refusals ⟨u, some e⟩
        else
          throw { type := .exception,
                  message := some "Ha ocurrido un error al cambiar la clave." })
      (fun _ => Holds fun p' => r.password = old ∧ ChangedOnly p u (some ⟨pw, some e⟩) roles p')
      (fun _ => Holds fun p' => ChangedOnly p u (some r) roles p'
        ∨ r.password = old ∧ ChangedOnly p u (some { r with password := pw }) roles p') := by
  refine Triple.bind (provider_changePassword_spec refusals old pw) (fun _ _ h => Or.inl h)
    (fun changed => ?_)
  rintro w (⟨rfl, r', hr', hpass, h⟩ | ⟨rfl, h⟩)
  · rw [← Option.some.inj hr'] at hpass h
    rw [if_pos rfl]
    refine (provider_updateUser_spec refusals (some e)).mono (fun _ h => h) ?_ ?_ w h
    · rintro _ w' ⟨r'', hr'', h'⟩
      rw [← Option.some.inj hr''] at h'
      exact ⟨hpass, h'⟩
    · exact fun _ _ h' => Or.inr ⟨hpass, h'⟩
  · rw [if_neg Bool.false_ne_true]
    exact Or.inl h

/-- **`UpdateUser`.** -/
theorem updateUser_spec :
    Triple (Holds (Eq p)) (updateUser refusals userName password oldPassword email role)
      (fun _ => Holds (UpdateUserDone userName password oldPassword email role p))
      (fun _ => Holds fun p' =>
        Unchanged p p' ∨ UpdateUserLeft userName password oldPassword role p p') := by
  unfold updateUser
  apply requireText_bind (fun _ _ h => Or.inl (Unchanged.of_eq h))
  rintro e rfl
  cases userName with
  | none =>
    refine Triple.bind (getUser_none_spec refusals (Eq p)) ?_ (fun user => ?_)
    · exact fun _ _ h => Or.inl (Unchanged.of_eq h)
    · exact fun _ h => h.elim
  | some u =>
    intro w₁ h₁
    refine Triple.bind (getUser_spec refusals) ?_ (fun user => ?_) w₁ (ChangedOnly.of_eq h₁ u)
    · intro _ w h
      exact Or.inl h.unchanged
    rintro w₂ ⟨rfl, h₂⟩
    cases hr : p.users.lookup u with
    | none =>
      exact Or.inl h₂.unchanged
    | some r =>
      rw [hr] at h₂
      simp only [Option.map_some]
      by_cases hkeep : (isNullOrEmpty oldPassword || isNullOrEmpty password) = true
      · rw [if_pos hkeep]
        refine (updateRole_spec refusals).mono (fun _ h => h) ?_ ?_ w₂ h₂
        · intro _ w h
          refine ⟨u, e, r, rfl, rfl, hr, ?_⟩
          rw [if_pos hkeep]
          exact h
        · intro _ w h
          refine Or.inr ⟨u, r, rfl, hr, ?_⟩
          rw [if_pos hkeep]
          exact h
      · rw [if_neg hkeep]
        obtain ⟨old, rfl⟩ := exists_of_not_isNullOrEmpty
          (Bool.or_eq_false_iff.mp (Bool.eq_false_of_not_eq_true hkeep)).1
        obtain ⟨pw, rfl⟩ := exists_of_not_isNullOrEmpty
          (Bool.or_eq_false_iff.mp (Bool.eq_false_of_not_eq_true hkeep)).2
        refine (updatePassword_spec refusals).mono (fun _ h => h) ?_ ?_ w₂ h₂
        · rintro _ w ⟨hpass, h⟩
          refine ⟨u, e, r, rfl, rfl, hr, ?_⟩
          rw [if_neg hkeep]
          exact ⟨old, pw, rfl, rfl, hpass, h⟩
        · rintro _ w (h | ⟨hpass, h⟩)
          · exact Or.inl (h.of_lookup hr).unchanged
          · refine Or.inr ⟨u, r, rfl, hr, ?_⟩
            rw [if_neg hkeep]
            exact ⟨old, pw, rfl, rfl, hpass, h⟩

theorem catchPasswordErrors_spec (e : Exception) (P : Providers ignoreCase → Prop) :
    Triple (Holds P) (catchPasswordErrors e)
      (fun answer => Holds fun p' => answer = false ∧ P p') (fun _ => Holds P) := by
  unfold catchPasswordErrors
  split
  · exact Triple.pure (fun _ h => ⟨rfl, h⟩)
  · exact Triple.pure (fun _ h => ⟨rfl, h⟩)
  · exact Triple.pure (fun _ h => ⟨rfl, h⟩)
  · exact Triple.throw (fun _ h => h)

/-- **`ChangePassword`**: only the provider's `ChangePassword` writes. -/
theorem changePassword_spec :
    Triple (Holds (Eq p)) (changePassword refusals userName oldPassword password)
      (fun answer => Holds fun p' =>
        answer = true ∧ ChangePasswordDone userName password oldPassword p p'
        ∨ answer = false ∧ Unchanged p p')
      (fun _ => Holds (Unchanged p)) := by
  have hrefused : ∀ (_ : Exception) (w : World ignoreCase), Holds (Eq p) w →
      Holds (Unchanged p) w := fun _ _ h => Unchanged.of_eq h
  unfold changePassword
  apply requireText_bind hrefused
  rintro u rfl
  apply requireText_bind hrefused
  rintro old rfl
  apply requireText_bind hrefused
  rintro pw rfl
  refine Triple.tryCatch (F := fun _ => Holds (Unchanged p)) ?_ ?_
  rotate_left
  · exact fun e => (catchPasswordErrors_spec e _).mono (fun _ h => h)
      (fun _ _ h => Or.inr h) (fun _ _ h => h)
  intro w hw
  refine Triple.bind (getUser_spec refusals) (fun _ _ h => h.unchanged) (fun user => ?_) w
    (ChangedOnly.of_eq hw u)
  rintro w₁ ⟨rfl, h₁⟩
  cases hr : p.users.lookup u with
  | none => exact h₁.unchanged
  | some r =>
    rw [hr] at h₁
    -- the only call that writes, and the last one: when it throws, it has not written
    refine (provider_changePassword_spec refusals old pw).mono (fun _ h => h) ?_ ?_ w₁ h₁
    · rintro answer w' (⟨rfl, r', hr', hpass, h⟩ | ⟨rfl, h⟩)
      · rw [← Option.some.inj hr'] at hpass h
        exact Or.inl ⟨rfl, u, r, old, pw, rfl, rfl, rfl, hr, hpass, h⟩
      · exact Or.inr ⟨rfl, (h.of_lookup hr).unchanged⟩
    · intro _ w h
      exact (h.of_lookup hr).unchanged

end Methods

/-- **`GetUserRole`** of a user with a role answers it, unless the provider does not. -/
theorem getUserRole_eq (refusals : Refusals) {u role : String} {roles : List String}
    {w : World ignoreCase} (h : w.providers.rolesFor u = role :: roles) :
    (outcome (getUserRole refusals u) w).1
      = match refusals.throws w.calls with
        | some e => .error e
        | none => .ok role := by
  cases hthrows : refusals.throws w.calls with
  | some e =>
    rw [getUserRole, RoleProvider.getRolesForUser,
      outcome_bind_error (providerCall_refused hthrows)]
  | none =>
    have hroles : (RoleProvider.getRolesForUser refusals u).run w
        = .ok (role :: roles) ⟨w.providers, w.calls + 1⟩ := by
      rw [← h]
      exact providerCall_done hthrows rfl
    rw [getUserRole, outcome_bind_ok hroles]
    rfl

/-! ## Calls of the service -/

/-- A call that can write. -/
inductive MembershipCall
  | createUser (userName password email role : Option String)
  | updateUser (userName password oldPassword email role : Option String)
  | changePassword (userName oldPassword newPassword : Option String)
  | deleteUser (userName : Option String)

namespace MembershipCall

/-- The user the call is on. -/
def userName : MembershipCall → Option String
  | .createUser userName _ _ _ => userName
  | .updateUser userName _ _ _ _ => userName
  | .changePassword userName _ _ => userName
  | .deleteUser userName => userName

/-- The call, answering whether it reports success. -/
def program (refusals : Refusals) : MembershipCall → Calling ignoreCase Bool
  | .createUser userName password email role => do
    let status ← FormsMembershipService.createUser refusals userName password email role
    pure (decide (status = .success))
  | .updateUser userName password oldPassword email role => do
    FormsMembershipService.updateUser refusals userName password oldPassword email role
    pure true
  | .changePassword userName oldPassword newPassword =>
    FormsMembershipService.changePassword refusals userName oldPassword newPassword
  | .deleteUser userName => FormsMembershipService.deleteUser refusals userName

/-- What a call that reports success has done. -/
def Done (p p' : Providers ignoreCase) : MembershipCall → Prop
  | .createUser userName password email role => CreateUserDone userName password email role p p'
  | .updateUser userName password oldPassword email role =>
    UpdateUserDone userName password oldPassword email role p p'
  | .changePassword userName oldPassword newPassword =>
    ChangePasswordDone userName newPassword oldPassword p p'
  | .deleteUser userName => ∃ u, userName = some u ∧ ChangedOnly p u none [] p'

/-- What a call that answers something else leaves. -/
def Refused (p p' : Providers ignoreCase) : MembershipCall → Prop
  | .deleteUser userName => ∃ u, userName = some u ∧ ChangedOnly p u (p.users.lookup u) [] p'
  | _ => Unchanged p p'

/-- What a call that throws leaves. -/
def Thrown (p p' : Providers ignoreCase) : MembershipCall → Prop
  | .createUser userName password email _ =>
    Unchanged p p' ∨ CreateUserLeft userName password email p p'
  | .updateUser userName password oldPassword _ role =>
    Unchanged p p' ∨ UpdateUserLeft userName password oldPassword role p p'
  | .changePassword _ _ _ => Unchanged p p'
  | .deleteUser userName => Unchanged p p' ∨ DeleteUserLeft userName p p'

/-- **Every call** ends in one of these three ways. -/
theorem program_spec (refusals : Refusals) (p : Providers ignoreCase) (c : MembershipCall) :
    Triple (Holds (Eq p)) (c.program refusals)
      (fun answer => Holds fun p' => answer = true ∧ c.Done p p' ∨ answer = false ∧ c.Refused p p')
      (fun _ => Holds fun p' => c.Thrown p p') := by
  cases c with
  | createUser userName password email role =>
    refine Triple.bind (createUser_spec refusals) (fun _ _ h => h) (fun status => ?_)
    apply Triple.pure
    rintro w (⟨rfl, h⟩ | ⟨hstatus, h⟩)
    · exact Or.inl ⟨rfl, h⟩
    · exact Or.inr ⟨decide_eq_false hstatus, h⟩
  | updateUser userName password oldPassword email role =>
    refine Triple.bind (updateUser_spec refusals) (fun _ _ h => h) (fun _ => ?_)
    exact Triple.pure (fun _ h => Or.inl ⟨rfl, h⟩)
  | changePassword userName oldPassword newPassword => exact changePassword_spec refusals
  | deleteUser userName =>
    refine (deleteUser_spec refusals).mono (fun _ h => h) ?_ (fun _ _ h => h)
    rintro answer w ⟨u, hu, ⟨hanswer, h⟩ | ⟨hanswer, h⟩⟩
    · exact Or.inl ⟨hanswer, u, hu, h⟩
    · exact Or.inr ⟨hanswer, u, hu, h⟩

end MembershipCall

end CgGuide.FormsMembershipService
