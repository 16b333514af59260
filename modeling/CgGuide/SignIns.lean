/-
`AccountController` with its passwords and its cookies: who is signed in where, and on
what grounds.

The tables are those of `Account`, a local account now with the password it verifies
(the provider stores a hash of it). A browser keeps the name that its last sign-in set,
and sends it with every request; nobody else can make such a cookie, nor the data of a
verified login that the site puts into the form of `ExternalLoginConfirmation`. A request
takes one turn for each call, as there, and answers with its last one. Forgetting the
passwords, the cookies and the answers gives a run of the requests of `Account`.

Of `ExternalLoginCallback` the provider's part comes first: a request brings the result
of `VerifyAuthentication`.
-/
import CgGuide.Account
import CgGuide.AccountModels
import CgGuide.MembershipProviders

set_option autoImplicit false

namespace CgGuide.SignIns

open CgGuide.KeyedTable CgGuide.Dictionaries CgGuide.Dictionaries.Dictionary
open CgGuide.Runs CgGuide.Interleaving CgGuide.Interleaving.Pool CgGuide.Account
open CgGuide.AccountModels CgGuide.MembershipProviders

/-! ## The site -/

/-- The tables, what each browser is signed in as, and the logins for which the site has
sent out the form of `ExternalLoginConfirmation`. -/
structure Site (Login : Type) [DecidableEq Login] where
  userProfiles : IdentityTable UserProfile.userId
  /-- User ids and passwords, the latest account first. -/
  localAccounts : List (ℤ × String)
  externalLogins : Dictionary (id : Login → Login) ℤ
  cookies : ℕ → Option String
  confirmable : List Login

variable {Login : Type} [DecidableEq Login]

/-- The tables without the passwords. -/
def Site.tables (s : Site Login) : AccountStore Login :=
  ⟨s.userProfiles, s.localAccounts.map Prod.fst, s.externalLogins⟩

/-- The password of a local account. -/
def Site.passwordOf (s : Site Login) (userId : ℤ) : Option String :=
  (s.localAccounts.find? (fun e => decide (e.1 = userId))).map Prod.snd

/-- Another password for a local account. -/
def Site.setPassword (s : Site Login) (userId : ℤ) (password : String) : Site Login :=
  { s with
    localAccounts := s.localAccounts.map
      (fun e => if e.1 = userId then (userId, password) else e) }

theorem Site.passwordOf_cons {s s' : Site Login} {userId : ℤ} {password : String}
    (h : s'.localAccounts = (userId, password) :: s.localAccounts) (userId' : ℤ) :
    s'.passwordOf userId' = if userId = userId' then some password else s.passwordOf userId' := by
  rw [passwordOf, h, List.find?_cons]
  by_cases hid : userId = userId'
  · rw [decide_eq_true hid, if_pos hid, Option.map_some]
  · rw [decide_eq_false hid, if_neg hid]
    rfl

theorem Site.passwordOf_setPassword (s : Site Login) (userId : ℤ) (password : String)
    (userId' : ℤ) : (s.setPassword userId password).passwordOf userId'
      = if userId' = userId then (s.passwordOf userId).map (fun _ => password)
        else s.passwordOf userId' := by
  unfold passwordOf setPassword
  induction s.localAccounts with
  | nil => simp
  | cons e rest ih =>
    rw [List.map_cons, List.find?_cons, List.find?_cons, List.find?_cons]
    by_cases he : e.1 = userId
    · by_cases hid : userId' = userId
      · simp [he, hid]
      · simp [he, hid, Ne.symm hid] at ih ⊢
        exact ih
    · by_cases hid : e.1 = userId'
      · have hne : userId' ≠ userId := hid ▸ he
        simp [hid, hne]
      · simp [he, hid] at ih ⊢
        exact ih

/-- `FormsAuthentication.SetAuthCookie`, and its opposite. -/
def Site.setAuthCookie (s : Site Login) (browser : ℕ) (userName : Option String) : Site Login :=
  { s with cookies := Function.update s.cookies browser userName }

theorem Site.cookies_setAuthCookie (s : Site Login) (browser other : ℕ)
    (userName : Option String) : (s.setAuthCookie browser userName).cookies other
      = if other = browser then userName else s.cookies other :=
  Function.update_apply s.cookies browser userName other

/-! ## The provider -/

section Provider

variable (ignoreCase : String → String)

/-- `Membership.ValidateUser`. -/
def validateUser (s : Site Login) (userName password : String) : Bool :=
  match getUserId ignoreCase s.tables userName with
  | none => false
  | some userId => decide (s.passwordOf userId = some password)

/-- `WebSecurity.Login`: the cookie has the name as it was typed. -/
def login (s : Site Login) (browser : ℕ) (userName password : String) : Site Login :=
  if validateUser ignoreCase s userName password then s.setAuthCookie browser (some userName)
  else s

/-- `WebSecurity.CreateUserAndAccount`; the status is that of the exception. -/
def createUserAndAccount (s : Site Login) (userName password : String) :
    Except MembershipCreateStatus (Site Login) :=
  match getUserId ignoreCase s.tables userName with
  | some _ => .error .duplicateUserName
  | none =>
    .ok { s with
      userProfiles := (insertProfile s.tables userName).userProfiles
      localAccounts := (s.userProfiles.next, password) :: s.localAccounts }

/-- `WebSecurity.CreateAccount`; it throws without such a user, and when there is a local
account. -/
def createAccount (s : Site Login) (userName password : String) : Option (Site Login) :=
  match getUserId ignoreCase s.tables userName with
  | none => none
  | some userId =>
    if (s.passwordOf userId).isSome then none
    else some { s with localAccounts := (userId, password) :: s.localAccounts }

/-- `WebSecurity.ChangePassword`. -/
def changePassword (s : Site Login) (userName oldPassword newPassword : String) :
    Bool × Site Login :=
  match getUserId ignoreCase s.tables userName with
  | none => (false, s)
  | some userId =>
    if s.passwordOf userId = some oldPassword then
      (true, s.setPassword userId newPassword)
    else (false, s)

/-- `OAuthWebSecurity.CreateOrUpdateAccount`. -/
def createOrUpdateAccount (s : Site Login) (login : Login) (userName : String) :
    Option (Site Login) :=
  match getUserId ignoreCase s.tables userName with
  | none => none
  | some userId => some { s with externalLogins := s.externalLogins.set login userId }

end Provider

/-! ## The requests -/

/-- `ManageMessageId`. -/
inductive ManageMessageId
  | changePasswordSuccess
  | setPasswordSuccess
  | removeLoginSuccess
deriving DecidableEq

/-- `ViewBag.StatusMessage`. -/
def statusMessage : Option ManageMessageId → String
  | some .changePasswordSuccess => "La clave ha cambiado."
  | some .setPasswordSuccess => "Su clave ha sido enviada."
  | some .removeLoginSuccess => "La clave externa ha sido removida."
  | none => ""

/-- What `VerifyAuthentication` reports. -/
structure AuthenticationResult (Login : Type) where
  isSuccessful : Bool
  login : Login
  userName : String

/-- An action at the call it makes next. -/
inductive Action (Login : Type)
  | login (model : LoginModel) (returnUrl : String)
  | logOff
  | register (model : RegisterModel)
  | registerLogin (model : RegisterModel)
  | manage (message : Option ManageMessageId)
  | manageView (message : Option ManageMessageId) (userId : Option ℤ)
  | managePassword (model : LocalPasswordModel)
  | manageHasLocalAccount (model : LocalPasswordModel) (userId : Option ℤ)
  | manageChangePassword (model : LocalPasswordModel)
  | manageCreateAccount (model : LocalPasswordModel)
  | externalLoginCallback (result : AuthenticationResult Login) (returnUrl : String)
  | externalLoginCallbackLink (login : Login) (returnUrl : String)
  | externalLoginConfirmation (model : RegisterExternalLoginModel Login) (returnUrl : String)
  | externalLoginConfirmationInsert (login : Login) (userName returnUrl : String)
  | externalLoginConfirmationLink (login : Login) (userName returnUrl : String)
  | externalLoginConfirmationLogin (login : Login) (returnUrl : String)
  | disassociate (login : Login)
  | disassociateBody (login : Login)

/-- An action that has made no call yet. -/
def Action.initial : Action Login → Bool
  | .login _ _ | .logOff | .register _ | .manage _ | .managePassword _ => true
  | .externalLoginCallback _ _ | .externalLoginConfirmation _ _ | .disassociate _ => true
  | _ => false

/-- The login in the form of a confirmation. -/
def Action.form : Action Login → Option Login
  | .externalLoginConfirmation model _ => model.externalLoginData
  | _ => none

/-- `[AllowAnonymous]`; the other actions are behind the `[Authorize]` of the class. -/
def Action.allowAnonymous : Action Login → Bool
  | .logOff | .manage _ | .manageView _ _ | .managePassword _ => false
  | .manageHasLocalAccount _ _ | .manageChangePassword _ | .manageCreateAccount _ => false
  | .disassociate _ | .disassociateBody _ => false
  | _ => true

/-- A request: the browser it comes from, whom its cookie names, and its action. -/
structure Visit (Login : Type) where
  browser : ℕ
  user : Option String
  action : Action Login

/-- `User.Identity.Name`, which is empty for nobody. -/
def Visit.userName (v : Visit Login) : String := v.user.getD ""

inductive ActionResult (Login : Type)
  | view (errors : ModelState)
  | manageView (statusMessage : String) (hasLocalPassword : Bool) (errors : ModelState)
  | confirmationView (userName : String) (login : Login) (errors : ModelState)
  | redirect (url : String)
  | redirectToAction (action : String) (controller area : Option String)
      (message : Option ManageMessageId)
  | unauthorized
  | exception

/-- What a call leaves: the rest of the visit, or its answer. -/
abbrev Outcome (Login : Type) [DecidableEq Login] : Type :=
  (Action Login ⊕ ActionResult Login) × Site Login

section Requests

variable (ignoreCase : String → String) (isLocalUrl : String → Bool)

/-- `RedirectToLocal`. -/
def redirectToLocal (returnUrl : String) : ActionResult Login :=
  if isLocalUrl returnUrl then .redirect returnUrl
  else .redirectToAction "Index" (some "Home") none none

/-- `ErrorCodeToString`. -/
def errorCodeToString : MembershipCreateStatus → String
  | .duplicateUserName => "Usuario existente. Por favor ingrese un usuario diferente."
  | .duplicateEmail => "A user name for that e-mail address already exists. "
      ++ "Please enter a different e-mail address."
  | .invalidPassword => "The password provided is invalid. "
      ++ "Please enter a valid password value."
  | .invalidEmail => "The e-mail address provided is invalid. "
      ++ "Please check the value and try again."
  | .invalidAnswer => "The password retrieval answer provided is invalid. "
      ++ "Please check the value and try again."
  | .invalidQuestion => "The password retrieval question provided is invalid. "
      ++ "Please check the value and try again."
  | .invalidUserName => "The user name provided is invalid. "
      ++ "Please check the value and try again."
  | .providerError => "The authentication provider returned an error. "
      ++ "Please verify your entry and try again. "
      ++ "If the problem persists, please contact your system administrator."
  | .userRejected => "The user creation request has been canceled. "
      ++ "Please verify your entry and try again. "
      ++ "If the problem persists, please contact your system administrator."
  | _ => "An unknown error occurred. Please verify your entry and try again. "
      ++ "If the problem persists, please contact your system administrator."

/-- `ExternalLoginCallback` up to its `Login`. -/
def externalLoginCallback (browser : ℕ) (user : Option String)
    (result : AuthenticationResult Login) (returnUrl : String) (s : Site Login) : Outcome Login :=
  if result.isSuccessful then
    match getUserName s.tables result.login, user with
    | some owner, _ =>
      (.inr (redirectToLocal isLocalUrl returnUrl), s.setAuthCookie browser (some owner))
    | none, some _ => (.inl (.externalLoginCallbackLink result.login returnUrl), s)
    | none, none =>
      (.inr (.confirmationView result.userName result.login []),
        { s with confirmable := result.login :: s.confirmable })
  else (.inr (.redirectToAction "ExternalLoginFailure" none none none), s)

/-- `ExternalLoginConfirmation` up to its query. -/
def externalLoginConfirmation (user : Option String) (model : RegisterExternalLoginModel Login)
    (returnUrl : String) (s : Site Login) : Outcome Login :=
  match user, model.externalLoginData with
  | none, some login =>
    if ModelState.isValid model.validate then
      match findProfile ignoreCase s.tables model.userName with
      | none => (.inl (.externalLoginConfirmationInsert login model.userName returnUrl), s)
      | some _ =>
        (.inr (.confirmationView model.userName login [("UserName",
          .message "Usuario existente. Por favor ingrese un usuario diferente.")]), s)
    else (.inr (.confirmationView model.userName login model.validate), s)
  | _, _ => (.inr (.redirectToAction "Manage" none none none), s)

/-- One call of an action. -/
def act (browser : ℕ) (user : Option String) : Action Login → Site Login → Outcome Login
  | .login model returnUrl, s =>
    if ModelState.isValid model.validate
        && validateUser ignoreCase s model.userName model.password then
      (.inr (redirectToLocal isLocalUrl returnUrl), s.setAuthCookie browser (some model.userName))
    else (.inr (.view (model.validate
      ++ [("", .message "The user name or password provided is incorrect.")])), s)
  | .logOff, s =>
    (.inr (.redirectToAction "Index" (some "Routes") (some "BackOffice") none),
      s.setAuthCookie browser none)
  -- the account is created here, the browser signed in by the next call
  | .register model, s =>
    if ModelState.isValid model.validate then
      match createUserAndAccount ignoreCase s model.userName model.password with
      | .ok s' => (.inl (.registerLogin model), s')
      | .error status =>
        (.inr (.view (model.validate ++ [("", .message (errorCodeToString status))])), s)
    else (.inr (.view model.validate), s)
  | .registerLogin model, s =>
    -- what `Login` returns is not looked at
    (.inr (.redirectToAction "Index" (some "Home") none none),
      login ignoreCase s browser model.userName model.password)
  | .manage message, s =>
    (.inl (.manageView message (getUserId ignoreCase s.tables (user.getD ""))), s)
  | .manageView message userId, s =>
    (.inr (.manageView (statusMessage message) (hasLocalAccount s.tables userId) []), s)
  | .managePassword model, s =>
    (.inl (.manageHasLocalAccount model (getUserId ignoreCase s.tables (user.getD ""))), s)
  -- which form was posted is decided by the account, not by the form
  | .manageHasLocalAccount model userId, s =>
    if hasLocalAccount s.tables userId then
      if ModelState.isValid model.validate then (.inl (.manageChangePassword model), s)
      else (.inr (.manageView "" true model.validate), s)
    else
      if ModelState.isValid model.validateNew then (.inl (.manageCreateAccount model), s)
      else (.inr (.manageView "" false model.validateNew), s)
  | .manageChangePassword model, s =>
    let (changed, s') := changePassword ignoreCase s (user.getD "") model.oldPassword
      model.newPassword
    if changed then
      (.inr (.redirectToAction "Manage" none none (some .changePasswordSuccess)), s')
    else (.inr (.manageView "" true
      [("", .message "La clave actual es incorrecta o la clave es invalida.")]), s')
  | .manageCreateAccount model, s =>
    match createAccount ignoreCase s (user.getD "") model.newPassword with
    | some s' => (.inr (.redirectToAction "Manage" none none (some .setPasswordSuccess)), s')
    | none => (.inr (.manageView "" false [("", .exception)]), s)
  | .externalLoginCallback result returnUrl, s =>
    externalLoginCallback isLocalUrl browser user result returnUrl s
  | .externalLoginCallbackLink login returnUrl, s =>
    match createOrUpdateAccount ignoreCase s login (user.getD "") with
    | some s' => (.inr (redirectToLocal isLocalUrl returnUrl), s')
    | none => (.inr .exception, s)
  | .externalLoginConfirmation model returnUrl, s =>
    externalLoginConfirmation ignoreCase user model returnUrl s
  -- the insert does not look whether the name is still free
  | .externalLoginConfirmationInsert login userName returnUrl, s =>
    (.inl (.externalLoginConfirmationLink login userName returnUrl),
      { s with userProfiles := (insertProfile s.tables userName).userProfiles })
  | .externalLoginConfirmationLink login userName returnUrl, s =>
    match createOrUpdateAccount ignoreCase s login userName with
    | some s' => (.inl (.externalLoginConfirmationLogin login returnUrl), s')
    | none => (.inr .exception, s)
  | .externalLoginConfirmationLogin login returnUrl, s =>
    (.inr (redirectToLocal isLocalUrl returnUrl),
      match getUserName s.tables login with
      | some owner => s.setAuthCookie browser (some owner)
      | none => s)
  | .disassociate login, s =>
    if getUserName s.tables login = user then (.inl (.disassociateBody login), s)
    else (.inr (.redirectToAction "Manage" none none none), s)
  -- a transaction in the source, so its count and its deletion are one call
  | .disassociateBody login, s =>
    if mayDisassociate ignoreCase s.tables (user.getD "") then
      (.inr (.redirectToAction "Manage" none none (some .removeLoginSuccess)),
        { s with externalLogins := s.externalLogins.remove login })
    else (.inr (.redirectToAction "Manage" none none none), s)

/-- One call of a visit. -/
def call (v : Visit Login) (s : Site Login) : Outcome Login :=
  if v.user.isNone && !v.action.allowAnonymous then (.inr .unauthorized, s)
  else act ignoreCase isLocalUrl v.browser v.user v.action s

/-- One turn: the rest of the visit, and the site. -/
def turn (v : Visit Login) (s : Site Login) : Option (Visit Login) × Site Login :=
  ((call ignoreCase isLocalUrl v s).1.getLeft?.map (fun action => { v with action := action }),
    (call ignoreCase isLocalUrl v s).2)

end Requests

/-! ## What one call changes -/

section Effects

variable (ignoreCase : String → String) (isLocalUrl : String → Bool)

/-- The next call signs the browser in under this name, on the grounds of a password or
of a login verified by its provider. -/
def Visit.Presents (v : Visit Login) (s : Site Login) (name : String) : Prop :=
  match v.action with
  | .login model _ => name = model.userName
      ∧ (ModelState.isValid model.validate
        && validateUser ignoreCase s model.userName model.password) = true
  | .registerLogin model => name = model.userName
      ∧ validateUser ignoreCase s model.userName model.password = true
  | .externalLoginCallback result _ => result.isSuccessful = true
      ∧ getUserName s.tables result.login = some name
  | .externalLoginConfirmationLogin login _ => getUserName s.tables login = some name
  | _ => False

/-- The login and the user of a visit whose next call is `CreateOrUpdateAccount`. -/
def Visit.links (v : Visit Login) : Option (Login × String) :=
  match v.action with
  | .externalLoginCallbackLink login _ => some (login, v.userName)
  | .externalLoginConfirmationLink login userName _ => some (login, userName)
  | _ => none

/-- Everything one call can do to the site. -/
inductive Effect (v : Visit Login) (s : Site Login) : Site Login → Prop
  | unchanged : Effect v s s
  | signedIn (name : String) (hpresents : v.Presents ignoreCase s name) :
      Effect v s (s.setAuthCookie v.browser (some name))
  | signedOut (haction : v.action = .logOff) (hsigned : v.user.isSome = true) :
      Effect v s (s.setAuthCookie v.browser none)
  | registered (model : RegisterModel) (haction : v.action = .register model)
      (hvalid : ModelState.isValid model.validate = true)
      (hnew : getUserId ignoreCase s.tables model.userName = none) :
      Effect v s { s with
        userProfiles := (insertProfile s.tables model.userName).userProfiles
        localAccounts := (s.userProfiles.next, model.password) :: s.localAccounts }
  | created (model : LocalPasswordModel) (userId : ℤ)
      (haction : v.action = .manageCreateAccount model) (hsigned : v.user.isSome = true)
      (huser : getUserId ignoreCase s.tables v.userName = some userId)
      (hnone : s.passwordOf userId = none) :
      Effect v s { s with localAccounts := (userId, model.newPassword) :: s.localAccounts }
  | changed (model : LocalPasswordModel) (userId : ℤ)
      (haction : v.action = .manageChangePassword model) (hsigned : v.user.isSome = true)
      (huser : getUserId ignoreCase s.tables v.userName = some userId)
      (hold : s.passwordOf userId = some model.oldPassword) :
      Effect v s (s.setPassword userId model.newPassword)
  | verified (result : AuthenticationResult Login) (returnUrl : String)
      (haction : v.action = .externalLoginCallback result returnUrl)
      (hresult : result.isSuccessful = true) :
      Effect v s { s with confirmable := result.login :: s.confirmable }
  | inserted (login : Login) (userName returnUrl : String)
      (haction : v.action = .externalLoginConfirmationInsert login userName returnUrl) :
      Effect v s { s with userProfiles := (insertProfile s.tables userName).userProfiles }
  | linked (login : Login) (userName : String) (userId : ℤ)
      (hlinks : v.links = some (login, userName))
      (huser : getUserId ignoreCase s.tables userName = some userId) :
      Effect v s { s with externalLogins := s.externalLogins.set login userId }
  | removed (login : Login) (haction : v.action = .disassociateBody login)
      (hsigned : v.user.isSome = true)
      (hmay : mayDisassociate ignoreCase s.tables v.userName = true) :
      Effect v s { s with externalLogins := s.externalLogins.remove login }

theorem createOrUpdateAccount_effect {v : Visit Login} {s : Site Login} {login : Login}
    {userName : String} (hlinks : v.links = some (login, userName)) :
    Effect ignoreCase v s ((createOrUpdateAccount ignoreCase s login userName).getD s) := by
  unfold createOrUpdateAccount
  cases huser : getUserId ignoreCase s.tables userName with
  | none => exact .unchanged
  | some userId => exact .linked login userName userId hlinks huser

omit [DecidableEq Login] in
/-- A call that is behind `[Authorize]` has a user. -/
theorem signed_of_not_anonymous {v : Visit Login}
    (h : ¬ (v.user.isNone && !v.action.allowAnonymous) = true)
    (haction : v.action.allowAnonymous = false) : v.user.isSome = true := by
  rw [haction, Bool.not_false, Bool.and_true, Option.isNone_iff_eq_none] at h
  exact Option.isSome_iff_ne_none.mpr h

/-- **One call has one of these effects.** -/
theorem call_effect (v : Visit Login) (s : Site Login) :
    Effect ignoreCase v s (call ignoreCase isLocalUrl v s).2 := by
  unfold call
  by_cases hanonymous : (v.user.isNone && !v.action.allowAnonymous) = true
  · rw [if_pos hanonymous]
    exact .unchanged
  rw [if_neg hanonymous]
  have hsigned := signed_of_not_anonymous hanonymous
  obtain ⟨browser, user, action⟩ := v
  cases action with
  | login model returnUrl =>
    rw [act]
    split_ifs with h
    · exact .signedIn model.userName ⟨rfl, h⟩
    · exact .unchanged
  | logOff => exact .signedOut rfl (hsigned rfl)
  | register model =>
    rw [act]
    unfold createUserAndAccount
    split_ifs with hvalid
    · cases hnew : getUserId ignoreCase s.tables model.userName with
      | some userId => exact .unchanged
      | none => exact .registered model rfl hvalid hnew
    · exact .unchanged
  | registerLogin model =>
    rw [act]
    unfold login
    dsimp only
    split_ifs with h
    · exact .signedIn model.userName ⟨rfl, h⟩
    · exact .unchanged
  | manageHasLocalAccount model userId =>
    rw [act]
    split_ifs <;> exact .unchanged
  | manageChangePassword model =>
    rw [act]
    unfold changePassword
    cases huser : getUserId ignoreCase s.tables (user.getD "") with
    | none => exact .unchanged
    | some userId =>
      by_cases hold : s.passwordOf userId = some model.oldPassword
      · simp only [if_pos hold, if_true]
        exact .changed model userId rfl (hsigned rfl) huser hold
      · simp only [if_neg hold, Bool.false_eq_true, if_false]
        exact .unchanged
  | manageCreateAccount model =>
    rw [act]
    unfold createAccount
    cases huser : getUserId ignoreCase s.tables (user.getD "") with
    | none => exact .unchanged
    | some userId =>
      dsimp only
      split_ifs with hsome
      · exact .unchanged
      · exact .created model userId rfl (hsigned rfl) huser (Option.not_isSome_iff_eq_none.mp hsome)
  | externalLoginCallback result returnUrl =>
    rw [act]
    unfold externalLoginCallback
    split_ifs with hresult
    · cases howner : getUserName s.tables result.login with
      | some owner => exact .signedIn owner ⟨hresult, howner⟩
      | none =>
        cases user with
        | some user => exact .unchanged
        | none => exact .verified result returnUrl rfl hresult
    · exact .unchanged
  | externalLoginCallbackLink login returnUrl =>
    have h := createOrUpdateAccount_effect ignoreCase (s := s)
      (v := ⟨browser, user, .externalLoginCallbackLink login returnUrl⟩) rfl
    rw [act]
    cases hlink : createOrUpdateAccount ignoreCase s login (user.getD "") with
    | none => exact .unchanged
    | some s' =>
      rw [Visit.userName, hlink] at h
      exact h
  | externalLoginConfirmation model returnUrl =>
    rw [act]
    unfold externalLoginConfirmation
    split
    · split_ifs
      · split <;> exact .unchanged
      · exact .unchanged
    · exact .unchanged
  | externalLoginConfirmationInsert login userName returnUrl =>
    exact .inserted login userName returnUrl rfl
  | externalLoginConfirmationLink login userName returnUrl =>
    have h := createOrUpdateAccount_effect ignoreCase (s := s)
      (v := ⟨browser, user, .externalLoginConfirmationLink login userName returnUrl⟩) rfl
    rw [act]
    cases hlink : createOrUpdateAccount ignoreCase s login userName with
    | none => exact .unchanged
    | some s' =>
      rw [hlink] at h
      exact h
  | externalLoginConfirmationLogin login returnUrl =>
    rw [act]
    cases howner : getUserName s.tables login with
    | none => exact .unchanged
    | some owner => exact .signedIn owner howner
  | disassociate login =>
    rw [act]
    split_ifs <;> exact .unchanged
  | disassociateBody login =>
    rw [act]
    split_ifs with hmay
    · exact .removed login rfl (hsigned rfl) hmay
    · exact .unchanged
  | manage message => exact .unchanged
  | manageView message userId => exact .unchanged
  | managePassword model => exact .unchanged

/-- What a visit can go on with after one call. -/
inductive Rest (v : Visit Login) (s : Site Login) : Action Login → Prop
  | registerLogin (model : RegisterModel) (haction : v.action = .register model)
      (hvalid : ModelState.isValid model.validate = true) : Rest v s (.registerLogin model)
  | manageView (message : Option ManageMessageId) (haction : v.action = .manage message)
      (userId : Option ℤ) : Rest v s (.manageView message userId)
  | manageHasLocalAccount (model : LocalPasswordModel) (haction : v.action = .managePassword model)
      (userId : Option ℤ) : Rest v s (.manageHasLocalAccount model userId)
  | manageChangePassword (model : LocalPasswordModel) (userId : Option ℤ)
      (haction : v.action = .manageHasLocalAccount model userId)
      (hvalid : ModelState.isValid model.validate = true) : Rest v s (.manageChangePassword model)
  | manageCreateAccount (model : LocalPasswordModel) (userId : Option ℤ)
      (haction : v.action = .manageHasLocalAccount model userId)
      (hvalid : ModelState.isValid model.validateNew = true) : Rest v s (.manageCreateAccount model)
  | callbackLink (result : AuthenticationResult Login) (returnUrl : String)
      (haction : v.action = .externalLoginCallback result returnUrl)
      (hresult : result.isSuccessful = true) (hsigned : v.user.isSome = true) :
      Rest v s (.externalLoginCallbackLink result.login returnUrl)
  | confirmationInsert (model : RegisterExternalLoginModel Login) (returnUrl : String)
      (login : Login) (haction : v.action = .externalLoginConfirmation model returnUrl)
      (huser : v.user = none) (hlogin : model.externalLoginData = some login)
      (hvalid : ModelState.isValid model.validate = true) :
      Rest v s (.externalLoginConfirmationInsert login model.userName returnUrl)
  | confirmationLink (login : Login) (userName returnUrl : String)
      (haction : v.action = .externalLoginConfirmationInsert login userName returnUrl) :
      Rest v s (.externalLoginConfirmationLink login userName returnUrl)
  | confirmationLogin (login : Login) (userName returnUrl : String)
      (haction : v.action = .externalLoginConfirmationLink login userName returnUrl) :
      Rest v s (.externalLoginConfirmationLogin login returnUrl)
  | disassociateBody (login : Login) (haction : v.action = .disassociate login)
      (howner : getUserName s.tables login = v.user) : Rest v s (.disassociateBody login)

/-- **One call goes on with one of these.** -/
theorem call_rest {v : Visit Login} {s : Site Login} {action : Action Login}
    (h : (call ignoreCase isLocalUrl v s).1 = .inl action) : Rest v s action := by
  unfold call at h
  split_ifs at h
  obtain ⟨browser, user, action'⟩ := v
  cases action' with
  | login model returnUrl =>
    rw [act] at h
    split_ifs at h
  | register model =>
    rw [act] at h
    split_ifs at h with hvalid
    split at h
    · obtain rfl := Sum.inl.inj h
      exact .registerLogin model rfl hvalid
    · exact absurd h Sum.inr_ne_inl
  | manage message =>
    obtain rfl := Sum.inl.inj h
    exact .manageView message rfl _
  | managePassword model =>
    obtain rfl := Sum.inl.inj h
    exact .manageHasLocalAccount model rfl _
  | manageHasLocalAccount model userId =>
    rw [act] at h
    split_ifs at h with hlocal hvalid hvalid
    · obtain rfl := Sum.inl.inj h
      exact .manageChangePassword model userId rfl hvalid
    · obtain rfl := Sum.inl.inj h
      exact .manageCreateAccount model userId rfl hvalid
  | manageChangePassword model =>
    rw [act] at h
    dsimp only at h
    split_ifs at h
  | manageCreateAccount model =>
    rw [act] at h
    split at h <;> exact absurd h Sum.inr_ne_inl
  | externalLoginCallback result returnUrl =>
    rw [act] at h
    unfold externalLoginCallback at h
    split_ifs at h with hresult
    cases howner : getUserName s.tables result.login with
    | some owner =>
      rw [howner] at h
      exact absurd h Sum.inr_ne_inl
    | none =>
      rw [howner] at h
      cases user with
      | some user =>
        obtain rfl := Sum.inl.inj h
        exact .callbackLink result returnUrl rfl hresult rfl
      | none => exact absurd h Sum.inr_ne_inl
  | externalLoginCallbackLink login returnUrl =>
    rw [act] at h
    split at h <;> exact absurd h Sum.inr_ne_inl
  | externalLoginConfirmation model returnUrl =>
    rw [act] at h
    unfold externalLoginConfirmation at h
    split at h
    · rename_i login huser hlogin
      split_ifs at h with hvalid
      split at h
      · obtain rfl := Sum.inl.inj h
        exact .confirmationInsert model returnUrl login rfl huser hlogin hvalid
      · exact absurd h Sum.inr_ne_inl
    · exact absurd h Sum.inr_ne_inl
  | externalLoginConfirmationInsert login userName returnUrl =>
    obtain rfl := Sum.inl.inj h
    exact .confirmationLink login userName returnUrl rfl
  | externalLoginConfirmationLink login userName returnUrl =>
    rw [act] at h
    split at h
    · obtain rfl := Sum.inl.inj h
      exact .confirmationLogin login userName returnUrl rfl
    · exact absurd h Sum.inr_ne_inl
  | disassociate login =>
    rw [act] at h
    split_ifs at h with howner
    obtain rfl := Sum.inl.inj h
    exact .disassociateBody login rfl howner
  | disassociateBody login =>
    rw [act] at h
    split_ifs at h
  | logOff => exact absurd h Sum.inr_ne_inl
  | registerLogin model => exact absurd h Sum.inr_ne_inl
  | manageView message userId => exact absurd h Sum.inr_ne_inl
  | externalLoginConfirmationLogin login returnUrl => exact absurd h Sum.inr_ne_inl

end Effects

end CgGuide.SignIns
