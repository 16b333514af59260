/-
`AccountController`: the requests that create, link and remove credentials, as
processes over the membership tables.

The tables are those of the simple membership provider: the profiles, the local
accounts (a password for a user id), and the external logins, each owned by a user
id. A request takes one turn for each call it makes to the provider or the
database, and between two turns other requests take theirs. Only the body of
`Disassociate`, which runs in a serializable transaction, is one turn.

A call that throws ends the request and changes nothing. What a request does with
its answer (redirects, messages, cookies) is left out; so are requests whose model
is not valid, which make no call that writes.
-/
import CgGuide.Dictionaries
import CgGuide.Interleaving

set_option autoImplicit false

namespace CgGuide.Account

open CgGuide.KeyedTable CgGuide.Dictionaries CgGuide.Dictionaries.Dictionary

/-! ## The tables -/

/-- `UserProfile`: the id is an identity column, the name a plain one. -/
structure UserProfile where
  userId : ℤ
  userName : String
deriving DecidableEq

/-- The tables of the provider, over the external logins `Login`, a login being a
provider together with its id for the user. -/
structure AccountStore (Login : Type) [DecidableEq Login] where
  userProfiles : IdentityTable UserProfile.userId
  localAccounts : List ℤ
  externalLogins : Dictionary (id : Login → Login) ℤ

variable {Login : Type} [DecidableEq Login]

/-! ## The provider -/

section Provider

variable (ignoreCase : String → String)

/-- The first profile with a name, ignoring case. -/
def findProfile (s : AccountStore Login) (userName : String) : Option UserProfile :=
  s.userProfiles.rows.find? (fun u => decide (ignoreCase u.userName = ignoreCase userName))

/-- `GetUserId`; nothing stands for -1. -/
def getUserId (s : AccountStore Login) (userName : String) : Option ℤ :=
  (findProfile ignoreCase s userName).map UserProfile.userId

/-- `OAuthWebSecurity.GetUserName`. -/
def getUserName (s : AccountStore Login) (login : Login) : Option String :=
  (s.externalLogins.lookup login).bind (fun userId =>
    (s.userProfiles.find? userId).map UserProfile.userName)

/-- `OAuthWebSecurity.HasLocalAccount`. -/
def hasLocalAccount (s : AccountStore Login) : Option ℤ → Bool
  | none => false
  | some userId => decide (userId ∈ s.localAccounts)

/-- `OAuthWebSecurity.GetAccountsFromUserName`. -/
def getAccountsFromUserName (s : AccountStore Login) (userName : String) : List Login :=
  match getUserId ignoreCase s userName with
  | none => []
  | some userId => (s.externalLogins.rows.filter (fun e => decide (e.2 = userId))).map Prod.fst

/-- A new profile. -/
def insertProfile (s : AccountStore Login) (userName : String) : AccountStore Login :=
  { s with userProfiles := s.userProfiles.insertNew (fun i => ⟨i, userName⟩) (fun _ => rfl) }

/-- `WebSecurity.CreateUserAndAccount`; it throws when there is such a user. -/
def createUserAndAccount (s : AccountStore Login) (userName : String) :
    Option (AccountStore Login) :=
  match getUserId ignoreCase s userName with
  | some _ => none
  | none => some { insertProfile s userName with
      localAccounts := s.userProfiles.next :: s.localAccounts }

/-- `WebSecurity.CreateAccount`; it throws without such a user, and when there is
a local account. -/
def createAccount (s : AccountStore Login) (userName : String) : Option (AccountStore Login) :=
  match getUserId ignoreCase s userName with
  | none => none
  | some userId =>
    if userId ∈ s.localAccounts then none
    else some { s with localAccounts := userId :: s.localAccounts }

/-- `OAuthWebSecurity.CreateOrUpdateAccount`; it throws without such a user. An
earlier owner of the login loses it. -/
def createOrUpdateAccount (s : AccountStore Login) (login : Login) (userName : String) :
    Option (AccountStore Login) :=
  match getUserId ignoreCase s userName with
  | none => none
  | some userId => some { s with externalLogins := s.externalLogins.set login userId }

/-- `OAuthWebSecurity.DeleteAccount`, whoever owns the login. -/
def deleteAccount (s : AccountStore Login) (login : Login) : AccountStore Login :=
  { s with externalLogins := s.externalLogins.remove login }

end Provider

/-! ## The requests -/

/-- A request at the call it makes next. `user` is `User.Identity.Name`. -/
inductive Request (Login : Type)
  | register (userName : String)
  | registerLogin (userName : String)
  | manage (user : String)
  | manageHasLocalAccount (user : String) (userId : Option ℤ)
  | manageChangePassword (user : String)
  | manageCreateAccount (user : String)
  | externalLoginCallback (user : Option String) (login : Login)
  | externalLoginCallbackLink (user : String) (login : Login)
  | externalLoginConfirmation (login : Login) (userName : String)
  | externalLoginConfirmationInsert (login : Login) (userName : String)
  | externalLoginConfirmationLink (login : Login) (userName : String)
  | externalLoginConfirmationLogin (login : Login)
  | disassociate (user : String) (login : Login)
  | disassociateBody (user : String) (login : Login)

/-- A request that has made no call yet. -/
def Request.Initial : Request Login → Prop
  | .register _ => True
  | .manage _ => True
  | .externalLoginCallback _ _ => True
  | .externalLoginConfirmation _ _ => True
  | .disassociate _ _ => True
  | _ => False

section Requests

variable (ignoreCase : String → String)

/-- The test in the body of `Disassociate`. -/
def mayDisassociate (s : AccountStore Login) (user : String) : Bool :=
  hasLocalAccount s (getUserId ignoreCase s user)
    || decide (1 < (getAccountsFromUserName ignoreCase s user).length)

/-- One call of a request: the rest of the request, and the tables. -/
def turn : Request Login → AccountStore Login → Option (Request Login) × AccountStore Login
  | .register userName, s =>
    match createUserAndAccount ignoreCase s userName with
    | none => (none, s)
    | some s' => (some (.registerLogin userName), s')
  | .registerLogin _, s => (none, s)
  | .manage user, s => (some (.manageHasLocalAccount user (getUserId ignoreCase s user)), s)
  | .manageHasLocalAccount user userId, s =>
    (some (if hasLocalAccount s userId then .manageChangePassword user
      else .manageCreateAccount user), s)
  | .manageChangePassword _, s => (none, s)
  | .manageCreateAccount user, s => (none, (createAccount ignoreCase s user).getD s)
  | .externalLoginCallback user login, s =>
    -- `Login` succeeds on a login that has an owner
    match s.externalLogins.lookup login, user with
    | some _, _ => (none, s)
    | none, none => (none, s)
    | none, some user => (some (.externalLoginCallbackLink user login), s)
  | .externalLoginCallbackLink user login, s =>
    (none, (createOrUpdateAccount ignoreCase s login user).getD s)
  | .externalLoginConfirmation login userName, s =>
    match findProfile ignoreCase s userName with
    | some _ => (none, s)
    | none => (some (.externalLoginConfirmationInsert login userName), s)
  | .externalLoginConfirmationInsert login userName, s =>
    -- the answer of the query is not asked for again
    (some (.externalLoginConfirmationLink login userName), insertProfile s userName)
  | .externalLoginConfirmationLink login userName, s =>
    match createOrUpdateAccount ignoreCase s login userName with
    | none => (none, s)
    | some s' => (some (.externalLoginConfirmationLogin login), s')
  | .externalLoginConfirmationLogin _, s => (none, s)
  | .disassociate user login, s =>
    -- `ownerAccount == User.Identity.Name`, with the case of the letters
    (if getUserName s login = some user then some (.disassociateBody user login) else none, s)
  | .disassociateBody user login, s =>
    (none, if mayDisassociate ignoreCase s user then deleteAccount s login else s)

end Requests

/-! ## What one call changes -/

section Effects

variable (ignoreCase : String → String)

/-- The login and the user of a request whose next call is
`CreateOrUpdateAccount`. -/
def Request.links : Request Login → Option (Login × String)
  | .externalLoginCallbackLink user login => some (login, user)
  | .externalLoginConfirmationLink login userName => some (login, userName)
  | _ => none

/-- Everything one call can do to the tables. -/
inductive Effect : Request Login → AccountStore Login → AccountStore Login → Prop
  | unchanged (p : Request Login) (s : AccountStore Login) : Effect p s s
  | register (userName : String) (s : AccountStore Login)
      (hnew : getUserId ignoreCase s userName = none) :
      Effect (.register userName) s { insertProfile s userName with
        localAccounts := s.userProfiles.next :: s.localAccounts }
  | createAccount (user : String) (s : AccountStore Login) (userId : ℤ) :
      Effect (.manageCreateAccount user) s { s with localAccounts := userId :: s.localAccounts }
  | insert (login : Login) (userName : String) (s : AccountStore Login) :
      Effect (.externalLoginConfirmationInsert login userName) s (insertProfile s userName)
  | link (p : Request Login) (login : Login) (userName : String) (s : AccountStore Login)
      (userId : ℤ) (hlinks : p.links = some (login, userName))
      (huser : getUserId ignoreCase s userName = some userId) :
      Effect p s { s with externalLogins := s.externalLogins.set login userId }
  | delete (user : String) (login : Login) (s : AccountStore Login)
      (hmay : mayDisassociate ignoreCase s user = true) :
      Effect (.disassociateBody user login) s (deleteAccount s login)

theorem createOrUpdateAccount_effect (p : Request Login) (login : Login) (userName : String)
    (s : AccountStore Login) (hlinks : p.links = some (login, userName)) :
    Effect ignoreCase p s ((createOrUpdateAccount ignoreCase s login userName).getD s) := by
  unfold createOrUpdateAccount
  cases huser : getUserId ignoreCase s userName with
  | none => exact .unchanged p s
  | some userId => exact .link p login userName s userId hlinks huser

/-- **One call has one of these effects.** -/
theorem turn_effect (p : Request Login) (s : AccountStore Login) :
    Effect ignoreCase p s (turn ignoreCase p s).2 := by
  cases p with
  | register userName =>
    cases hnew : getUserId ignoreCase s userName with
    | none =>
      simp only [turn, createUserAndAccount, hnew]
      exact .register userName s hnew
    | some userId =>
      simp only [turn, createUserAndAccount, hnew]
      exact .unchanged _ s
  | manageCreateAccount user =>
    cases hid : getUserId ignoreCase s user with
    | none =>
      simp only [turn, createAccount, hid]
      exact .unchanged _ s
    | some userId =>
      simp only [turn, createAccount, hid]
      split_ifs
      · exact .unchanged _ s
      · exact .createAccount user s userId
  | externalLoginCallbackLink user login =>
    exact createOrUpdateAccount_effect ignoreCase _ login user s rfl
  | externalLoginConfirmationInsert login userName => exact .insert login userName s
  | externalLoginConfirmationLink login userName =>
    have h := createOrUpdateAccount_effect ignoreCase
      (.externalLoginConfirmationLink login userName) login userName s rfl
    cases hlink : createOrUpdateAccount ignoreCase s login userName with
    | none =>
      simp only [turn, hlink]
      exact .unchanged _ s
    | some s' =>
      simp only [turn, hlink]
      rw [hlink] at h
      exact h
  | disassociateBody user login =>
    cases hmay : mayDisassociate ignoreCase s user with
    | true =>
      simp only [turn, hmay, if_true]
      exact .delete user login s hmay
    | false =>
      simp only [turn, hmay, Bool.false_eq_true, if_false]
      exact .unchanged _ s
  | externalLoginCallback user login =>
    cases hlookup : s.externalLogins.lookup login with
    | some userId =>
      simp only [turn, hlookup]
      exact .unchanged _ s
    | none =>
      cases user with
      | none =>
        simp only [turn, hlookup]
        exact .unchanged _ s
      | some user =>
        simp only [turn, hlookup]
        exact .unchanged _ s
  | externalLoginConfirmation login userName =>
    cases hfind : findProfile ignoreCase s userName with
    | none =>
      simp only [turn, hfind]
      exact .unchanged _ s
    | some u =>
      simp only [turn, hfind]
      exact .unchanged _ s
  | registerLogin userName => exact .unchanged _ s
  | manage user => exact .unchanged _ s
  | manageHasLocalAccount user userId => exact .unchanged _ s
  | manageChangePassword user => exact .unchanged _ s
  | externalLoginConfirmationLogin login => exact .unchanged _ s
  | disassociate user login => exact .unchanged _ s

/-- The owner of each login after it was linked. -/
theorem lookup_link (s : AccountStore Login) (login : Login) (userId : ℤ) (login' : Login) :
    (s.externalLogins.set login userId).lookup login'
      = if login' = login then some userId else s.externalLogins.lookup login' :=
  lookup_set s.externalLogins login userId login'

theorem lookup_deleteAccount (s : AccountStore Login) (login login' : Login) :
    (deleteAccount s login).externalLogins.lookup login'
      = if login' = login then none else s.externalLogins.lookup login' :=
  lookup_remove s.externalLogins login login'

/-! ### Profiles only grow -/

variable {ignoreCase}

/-- A stored profile stays found by its name behind others. -/
theorem getUserId_insertProfile (s : AccountStore Login) (userName : String) {name : String}
    {userId : ℤ} (h : getUserId ignoreCase s name = some userId) :
    getUserId ignoreCase (insertProfile s userName) name = some userId := by
  obtain ⟨u, hu, hid⟩ := Option.map_eq_some_iff.mp h
  have hfind : findProfile ignoreCase (insertProfile s userName) name = some u := by
    rw [findProfile, insertProfile, IdentityTable.insertNew, List.find?_append]
    rw [findProfile] at hu
    rw [hu, Option.some_or]
  rw [getUserId, hfind, Option.map_some, hid]

/-- The new profile is found by its name when no other has it. -/
theorem getUserId_insertProfile_self (s : AccountStore Login) {userName : String}
    (h : getUserId ignoreCase s userName = none) :
    getUserId ignoreCase (insertProfile s userName) userName = some s.userProfiles.next := by
  rw [getUserId, Option.map_eq_none_iff] at h
  have hfind : findProfile ignoreCase (insertProfile s userName) userName
      = some ⟨s.userProfiles.next, userName⟩ := by
    rw [findProfile, insertProfile, IdentityTable.insertNew, List.find?_append]
    rw [findProfile] at h
    rw [h, Option.none_or, List.find?_cons, decide_eq_true rfl]
  rw [getUserId, hfind, Option.map_some]

theorem mem_insertProfile (s : AccountStore Login) (userName : String) (u : UserProfile) :
    u ∈ (insertProfile s userName).userProfiles.rows
      ↔ u ∈ s.userProfiles.rows ∨ u = ⟨s.userProfiles.next, userName⟩ := by
  rw [insertProfile, IdentityTable.insertNew, List.mem_append, List.mem_singleton]

/-- A stored profile stays found by its id. -/
theorem find?_insertProfile (s : AccountStore Login) (userName : String) {userId : ℤ}
    {u : UserProfile} (h : s.userProfiles.find? userId = some u) :
    (insertProfile s userName).userProfiles.find? userId = some u := by
  -- an id that is in use is below the next one
  have hlt := s.userProfiles.lt_next_of_find? h
  rw [insertProfile, IdentityTable.find?_insertNew_of_ne _ _ _ (by omega)]
  exact h

/-- **No call loses a profile** or finds another one under its name or its id. -/
theorem Effect.profiles {p : Request Login} {s s' : AccountStore Login}
    (h : Effect ignoreCase p s s') :
    (∀ name userId, getUserId ignoreCase s name = some userId →
      getUserId ignoreCase s' name = some userId)
    ∧ ∀ userId u, s.userProfiles.find? userId = some u →
        s'.userProfiles.find? userId = some u := by
  cases h with
  | unchanged => exact ⟨fun _ _ h => h, fun _ _ h => h⟩
  | register userName =>
    exact ⟨fun _ _ h => getUserId_insertProfile s userName h,
      fun _ _ h => find?_insertProfile s userName h⟩
  | createAccount => exact ⟨fun _ _ h => h, fun _ _ h => h⟩
  | insert login userName =>
    exact ⟨fun _ _ h => getUserId_insertProfile s userName h,
      fun _ _ h => find?_insertProfile s userName h⟩
  | link => exact ⟨fun _ _ h => h, fun _ _ h => h⟩
  | delete => exact ⟨fun _ _ h => h, fun _ _ h => h⟩

end Effects

/-- What every run has to respect: a request starts at its first call. -/
def StartsInitial (_ : Interleaving.Pool (AccountStore Login) (Request Login)) :
    Interleaving.Event (Request Login) → Prop
  | .start _ p => p.Initial
  | _ => True

/-! ## For concrete runs -/

/-- Letters from `A` to `Z` in lower case. -/
def lowerCase (s : String) : String := String.ofList (s.toList.map Char.toLower)

/-- One user, with these external logins and possibly a local account. -/
def oneUser (userName : String) (localAccounts : List ℤ)
    (externalLogins : Dictionary (id : ℕ → ℕ) ℤ) : AccountStore ℕ where
  userProfiles := IdentityTable.empty.insertNew (fun i => ⟨i, userName⟩) (fun _ => rfl)
  localAccounts := localAccounts
  externalLogins := externalLogins

end CgGuide.Account
