/-
Nobody is locked out: the visits of a site as requests of `Account`, and what follows
for its users.

Forgetting passwords, cookies and answers turns a pool of visits into a pool of requests,
and each of its events into the events of that pool (`requests_exec`). So the credentials
that sound runs of requests keep are kept by visits, and with what the forms check they
are good for something: whenever no request is in progress, every user can sign in
(`signsIn_of_quiet`).
-/
import CgGuide.LoginCredentials
import CgGuide.Sessions
import CgGuide.UserNames

set_option autoImplicit false

namespace CgGuide.SignInCredentials

open CgGuide.KeyedTable CgGuide.Dictionaries CgGuide.Dictionaries.Dictionary
open CgGuide.Runs CgGuide.Interleaving CgGuide.Interleaving.Pool
open CgGuide.Account (AccountStore UserProfile Request findProfile getUserId getUserName
  hasLocalAccount insertProfile mem_insertProfile find?_insertProfile lookup_link lowerCase)
open CgGuide.AccountModels CgGuide.SignIns CgGuide.Sessions CgGuide.LoginCredentials
open CgGuide.UserNames (NamesDistinct namesDistinct_insertProfile findProfile_eq_none)

variable {Login : Type} [DecidableEq Login]
variable {ignoreCase : String → String} {isLocalUrl : String → Bool}

/-! ## Visits as requests -/

/-- The request of `Account` that a visit is, if it can come to write its tables. -/
def request (v : Visit Login) : Option (Request Login) :=
  match v.action with
  | .register model =>
    if ModelState.isValid model.validate then some (.register model.userName) else none
  | .registerLogin model => some (.registerLogin model.userName)
  | .managePassword _ => v.user.map .manage
  | .manageHasLocalAccount _ userId => v.user.map (.manageHasLocalAccount · userId)
  | .manageChangePassword _ => v.user.map .manageChangePassword
  | .manageCreateAccount _ => v.user.map .manageCreateAccount
  | .externalLoginCallback result _ =>
    if result.isSuccessful then some (.externalLoginCallback v.user result.login) else none
  | .externalLoginCallbackLink login _ => some (.externalLoginCallbackLink v.userName login)
  | .externalLoginConfirmation model _ =>
    match v.user, model.externalLoginData with
    | none, some login =>
      if ModelState.isValid model.validate then
        some (.externalLoginConfirmation login model.userName)
      else none
    | _, _ => none
  | .externalLoginConfirmationInsert login userName _ =>
    some (.externalLoginConfirmationInsert login userName)
  | .externalLoginConfirmationLink login userName _ =>
    some (.externalLoginConfirmationLink login userName)
  | .externalLoginConfirmationLogin login _ => some (.externalLoginConfirmationLogin login)
  | .disassociate login => v.user.map (.disassociate · login)
  | .disassociateBody login => v.user.map (.disassociateBody · login)
  | _ => none

/-- A pool of visits, as a pool of requests. -/
def requests (pool : Pool (Site Login) (Visit Login)) :
    Pool (AccountStore Login) (Request Login) :=
  ⟨pool.shared.tables, fun i => (pool.running i).bind request⟩

/-- What an event does to the pool of requests. A visit that is answered where its request
would go on stops it: its form is not valid. -/
def requestEvents (ignoreCase : String → String) (isLocalUrl : String → Bool)
    (pool : Pool (Site Login) (Visit Login)) : Event (Visit Login) → List (Event (Request Login))
  | .start i v =>
    match pool.running i, request v with
    | none, some p => [.start i p]
    | _, _ => []
  | .advance i =>
    match pool.running i with
    | none => []
    | some v =>
      match request v, (turn ignoreCase isLocalUrl v pool.shared).1 with
      | none, _ => []
      | some _, some _ => [.advance i]
      | some _, none => [.advance i, .stop i]
  | .stop i => [.stop i]

/-- Every login has an owner with a profile. -/
def OwnersExist (s : Site Login) : Prop :=
  ∀ login userId, s.externalLogins.lookup login = some userId →
    (s.userProfiles.find? userId).isSome = true

/-! ## One call -/

/-- A visit that is no request leaves the tables and goes on as none. -/
theorem call_of_no_request {v : Visit Login} (s : Site Login) (hv : request v = none) :
    (call ignoreCase isLocalUrl v s).2.tables = s.tables
    ∧ ∀ action, (call ignoreCase isLocalUrl v s).1 = .inl action →
        request { v with action := action } = none := by
  obtain ⟨browser, user, action⟩ := v
  constructor
  · have heffect := call_effect ignoreCase isLocalUrl ⟨browser, user, action⟩ s
    generalize (call ignoreCase isLocalUrl ⟨browser, user, action⟩ s).2 = s' at heffect ⊢
    -- every call that writes the tables is one of a request
    cases heffect with
    | registered model haction hvalid =>
      obtain rfl : action = .register model := haction
      simp [request, hvalid] at hv
    | created model userId haction hsigned =>
      obtain rfl : action = .manageCreateAccount model := haction
      obtain rfl : user = none := Option.map_eq_none_iff.mp hv
      exact absurd hsigned Bool.false_ne_true
    | changed model userId haction hsigned =>
      obtain rfl : action = .manageChangePassword model := haction
      obtain rfl : user = none := Option.map_eq_none_iff.mp hv
      exact absurd hsigned Bool.false_ne_true
    | inserted login userName returnUrl haction =>
      obtain rfl : action = .externalLoginConfirmationInsert login userName returnUrl := haction
      exact absurd hv (Option.some_ne_none _)
    | linked login userName userId hlinks =>
      cases action with
      | externalLoginCallbackLink => exact absurd hv (Option.some_ne_none _)
      | externalLoginConfirmationLink => exact absurd hv (Option.some_ne_none _)
      | _ => exact absurd hlinks.symm (Option.some_ne_none _)
    | removed login haction hsigned =>
      obtain rfl : action = .disassociateBody login := haction
      obtain rfl : user = none := Option.map_eq_none_iff.mp hv
      exact absurd hsigned Bool.false_ne_true
    | _ => rfl
  · intro action' hrest
    -- and so is what every visit of no request goes on with
    cases call_rest ignoreCase isLocalUrl hrest with
    | registerLogin model haction hvalid =>
      obtain rfl : action = .register model := haction
      simp [request, hvalid] at hv
    | manageView => rfl
    | manageHasLocalAccount model haction userId =>
      obtain rfl : action = .managePassword model := haction
      obtain rfl : user = none := Option.map_eq_none_iff.mp hv
      rfl
    | manageChangePassword model userId haction =>
      obtain rfl : action = .manageHasLocalAccount model userId := haction
      obtain rfl : user = none := Option.map_eq_none_iff.mp hv
      rfl
    | manageCreateAccount model userId haction =>
      obtain rfl : action = .manageHasLocalAccount model userId := haction
      obtain rfl : user = none := Option.map_eq_none_iff.mp hv
      rfl
    | callbackLink result returnUrl haction hresult =>
      obtain rfl : action = .externalLoginCallback result returnUrl := haction
      simp [request, hresult] at hv
    | confirmationInsert model returnUrl login haction huser hlogin hvalid =>
      obtain rfl : action = .externalLoginConfirmation model returnUrl := haction
      obtain rfl : user = none := huser
      simp [request, hlogin, hvalid] at hv
    | confirmationLink login userName returnUrl haction =>
      obtain rfl : action = .externalLoginConfirmationInsert login userName returnUrl := haction
      exact absurd hv (Option.some_ne_none _)
    | confirmationLogin login userName returnUrl haction =>
      obtain rfl : action = .externalLoginConfirmationLink login userName returnUrl := haction
      exact absurd hv (Option.some_ne_none _)
    | disassociateBody login haction =>
      obtain rfl : action = .disassociate login := haction
      obtain rfl : user = none := Option.map_eq_none_iff.mp hv
      rfl

/-- The filter lets a visit through that has a user, or needs none. -/
theorem call_eq_act {v : Visit Login} (s : Site Login)
    (h : v.user.isSome = true ∨ v.action.allowAnonymous = true) :
    call ignoreCase isLocalUrl v s
      = act ignoreCase isLocalUrl v.browser v.user v.action s := by
  rw [call, if_neg]
  rw [Bool.and_eq_true, not_and, Option.isNone_iff_eq_none]
  intro hnone
  rcases h with hsome | hanonymous
  · rw [hnone] at hsome
    exact absurd hsome Bool.false_ne_true
  · rw [hanonymous]
    exact Bool.false_ne_true

theorem isSome_passwordOf (s : Site Login) (userId : ℤ) :
    (s.passwordOf userId).isSome = true ↔ userId ∈ s.tables.localAccounts := by
  rw [Site.passwordOf, Option.isSome_map, List.find?_isSome]
  simp [Site.tables]

theorem tables_setPassword (s : Site Login) (userId : ℤ) (password : String) :
    (s.setPassword userId password).tables = s.tables := by
  have hids : (s.setPassword userId password).localAccounts.map Prod.fst
      = s.localAccounts.map Prod.fst := by
    rw [Site.setPassword, List.map_map]
    refine List.map_congr_left (fun e _ => ?_)
    by_cases hid : e.1 = userId
    · simp [hid]
    · simp [hid]
  rw [Site.tables, hids]
  rfl

/-- A login that has an owner has one with a name. -/
theorem getUserName_of_owner {s : Site Login} (howners : OwnersExist s) {login : Login}
    {userId : ℤ} (h : s.externalLogins.lookup login = some userId) :
    ∃ u, s.userProfiles.find? userId = some u ∧ getUserName s.tables login = some u.userName := by
  obtain ⟨u, hu⟩ := Option.isSome_iff_exists.mp (howners login userId h)
  have hfind : s.tables.userProfiles.find? userId = some u := hu
  have hlookup : s.tables.externalLogins.lookup login = some userId := h
  exact ⟨u, hu, by rw [getUserName, hlookup, Option.bind_some, hfind, Option.map_some]⟩

/-- A visit that is a request makes the call of that request. -/
theorem call_of_request {v : Visit Login} {s : Site Login} (howners : OwnersExist s)
    {p : Request Login} (hv : request v = some p) :
    (call ignoreCase isLocalUrl v s).2.tables = (Account.turn ignoreCase p s.tables).2
    ∧ ∀ action, (call ignoreCase isLocalUrl v s).1 = .inl action →
        request { v with action := action } = (Account.turn ignoreCase p s.tables).1 := by
  obtain ⟨browser, user, action⟩ := v
  cases action with
  | register model =>
    rw [call_eq_act s (Or.inr rfl), act]
    -- a form that is not valid is no request
    unfold request at hv
    dsimp only at hv
    split_ifs at hv with hvalid
    obtain rfl := Option.some.inj hv
    rw [if_pos hvalid, createUserAndAccount, Account.turn, Account.createUserAndAccount]
    cases hnew : getUserId ignoreCase s.tables model.userName with
    | some userId => exact ⟨rfl, fun action h => absurd h Sum.inr_ne_inl⟩
    | none => exact ⟨rfl, fun action h => by rw [← Sum.inl.inj h]; rfl⟩
  | registerLogin model =>
    obtain rfl := Option.some.inj hv
    rw [call_eq_act s (Or.inr rfl), act, login]
    refine ⟨?_, fun action h => absurd h Sum.inr_ne_inl⟩
    dsimp only
    split_ifs <;> rfl
  | managePassword model =>
    obtain ⟨user, rfl, rfl⟩ := Option.map_eq_some_iff.mp hv
    rw [call_eq_act s (Or.inl rfl), act]
    exact ⟨rfl, fun action h => by rw [← Sum.inl.inj h]; rfl⟩
  | manageHasLocalAccount model userId =>
    obtain ⟨user, rfl, rfl⟩ := Option.map_eq_some_iff.mp hv
    rw [call_eq_act s (Or.inl rfl), act, Account.turn]
    cases hlocal : hasLocalAccount s.tables userId with
    | true =>
      rw [if_pos rfl, if_pos rfl]
      by_cases hvalid : ModelState.isValid model.validate = true
      · rw [if_pos hvalid]
        exact ⟨rfl, fun action h => by rw [← Sum.inl.inj h]; rfl⟩
      · rw [if_neg hvalid]
        exact ⟨rfl, fun action h => absurd h Sum.inr_ne_inl⟩
    | false =>
      rw [if_neg Bool.false_ne_true, if_neg Bool.false_ne_true]
      by_cases hvalid : ModelState.isValid model.validateNew = true
      · rw [if_pos hvalid]
        exact ⟨rfl, fun action h => by rw [← Sum.inl.inj h]; rfl⟩
      · rw [if_neg hvalid]
        exact ⟨rfl, fun action h => absurd h Sum.inr_ne_inl⟩
  | manageChangePassword model =>
    obtain ⟨user, rfl, rfl⟩ := Option.map_eq_some_iff.mp hv
    rw [call_eq_act s (Or.inl rfl), act, Account.turn]
    unfold changePassword
    cases getUserId ignoreCase s.tables ((some user).getD "") with
    | none => exact ⟨rfl, fun action h => absurd h Sum.inr_ne_inl⟩
    | some userId =>
      dsimp only
      by_cases hold : s.passwordOf userId = some model.oldPassword
      -- a password is replaced where the tables only know that there is one
      · rw [if_pos hold]
        exact ⟨tables_setPassword s userId model.newPassword,
          fun action h => absurd h Sum.inr_ne_inl⟩
      · rw [if_neg hold]
        exact ⟨rfl, fun action h => absurd h Sum.inr_ne_inl⟩
  | manageCreateAccount model =>
    obtain ⟨user, rfl, rfl⟩ := Option.map_eq_some_iff.mp hv
    rw [call_eq_act s (Or.inl rfl), act, Account.turn]
    unfold createAccount Account.createAccount
    rw [Option.getD_some]
    cases getUserId ignoreCase s.tables user with
    | none => exact ⟨rfl, fun action h => absurd h Sum.inr_ne_inl⟩
    | some userId =>
      dsimp only
      by_cases hsome : (s.passwordOf userId).isSome = true
      · rw [if_pos hsome, if_pos ((isSome_passwordOf s userId).mp hsome)]
        exact ⟨rfl, fun action h => absurd h Sum.inr_ne_inl⟩
      · rw [if_neg hsome, if_neg (fun hmem => hsome ((isSome_passwordOf s userId).mpr hmem))]
        exact ⟨rfl, fun action h => absurd h Sum.inr_ne_inl⟩
  | externalLoginCallback result returnUrl =>
    rw [call_eq_act s (Or.inr rfl), act]
    unfold request at hv
    dsimp only at hv
    split_ifs at hv with hresult
    obtain rfl := Option.some.inj hv
    unfold externalLoginCallback
    rw [if_pos hresult]
    cases hlookup : s.tables.externalLogins.lookup result.login with
    | some userId =>
      -- the owner has a profile, so both find somebody to sign in
      obtain ⟨u, -, hname⟩ := getUserName_of_owner howners hlookup
      have hturn : Account.turn ignoreCase (.externalLoginCallback user result.login) s.tables
          = (none, s.tables) := by
        simp only [Account.turn, hlookup]
      rw [hname, hturn]
      exact ⟨rfl, fun action h => absurd h Sum.inr_ne_inl⟩
    | none =>
      have hname : getUserName s.tables result.login = none := by
        rw [getUserName, hlookup, Option.bind_none]
      rw [hname]
      cases user with
      | none =>
        simp only [Account.turn, hlookup]
        exact ⟨rfl, fun action h => absurd h Sum.inr_ne_inl⟩
      | some user =>
        simp only [Account.turn, hlookup]
        exact ⟨trivial, fun action h => by rw [← Sum.inl.inj h]; rfl⟩
  | externalLoginCallbackLink login returnUrl =>
    obtain rfl := Option.some.inj hv
    rw [call_eq_act s (Or.inr rfl), act, createOrUpdateAccount, Account.turn,
      Account.createOrUpdateAccount]
    cases hid : getUserId ignoreCase s.tables (user.getD "") with
    | none => exact ⟨by rw [Visit.userName, hid]; rfl, fun action h => absurd h Sum.inr_ne_inl⟩
    | some userId =>
      exact ⟨by rw [Visit.userName, hid]; rfl, fun action h => absurd h Sum.inr_ne_inl⟩
  | externalLoginConfirmation model returnUrl =>
    rw [call_eq_act s (Or.inr rfl), act]
    unfold request at hv
    dsimp only at hv
    split at hv
    · rename_i login hlogin
      split_ifs at hv with hvalid
      obtain rfl := Option.some.inj hv
      unfold externalLoginConfirmation
      simp only [hlogin, if_pos hvalid]
      rw [Account.turn]
      cases findProfile ignoreCase s.tables model.userName with
      | none => exact ⟨rfl, fun action h => by rw [← Sum.inl.inj h]; rfl⟩
      | some u => exact ⟨rfl, fun action h => absurd h Sum.inr_ne_inl⟩
    · exact absurd hv.symm (Option.some_ne_none p)
  | externalLoginConfirmationInsert login userName returnUrl =>
    obtain rfl := Option.some.inj hv
    rw [call_eq_act s (Or.inr rfl), act]
    exact ⟨rfl, fun action h => by rw [← Sum.inl.inj h]; rfl⟩
  | externalLoginConfirmationLink login userName returnUrl =>
    obtain rfl := Option.some.inj hv
    rw [call_eq_act s (Or.inr rfl), act, createOrUpdateAccount, Account.turn,
      Account.createOrUpdateAccount]
    cases getUserId ignoreCase s.tables userName with
    | none => exact ⟨rfl, fun action h => absurd h Sum.inr_ne_inl⟩
    | some userId => exact ⟨rfl, fun action h => by rw [← Sum.inl.inj h]; rfl⟩
  | externalLoginConfirmationLogin login returnUrl =>
    obtain rfl := Option.some.inj hv
    rw [call_eq_act s (Or.inr rfl), act]
    refine ⟨?_, fun action h => absurd h Sum.inr_ne_inl⟩
    cases getUserName s.tables login <;> rfl
  | disassociate login =>
    obtain ⟨user, rfl, rfl⟩ := Option.map_eq_some_iff.mp hv
    rw [call_eq_act s (Or.inl rfl), act, Account.turn]
    by_cases howner : getUserName s.tables login = some user
    · rw [if_pos howner, if_pos howner]
      exact ⟨rfl, fun action h => by rw [← Sum.inl.inj h]; rfl⟩
    · rw [if_neg howner, if_neg howner]
      exact ⟨rfl, fun action h => absurd h Sum.inr_ne_inl⟩
  | disassociateBody login =>
    obtain ⟨user, rfl, rfl⟩ := Option.map_eq_some_iff.mp hv
    rw [call_eq_act s (Or.inl rfl), act, Account.turn]
    rw [Option.getD_some]
    by_cases hmay : Account.mayDisassociate ignoreCase s.tables user = true
    · rw [if_pos hmay, if_pos hmay]
      exact ⟨rfl, fun action h => absurd h Sum.inr_ne_inl⟩
    · rw [if_neg hmay, if_neg hmay]
      exact ⟨rfl, fun action h => absurd h Sum.inr_ne_inl⟩
  | login => exact absurd hv.symm (Option.some_ne_none p)
  | logOff => exact absurd hv.symm (Option.some_ne_none p)
  | manage => exact absurd hv.symm (Option.some_ne_none p)
  | manageView => exact absurd hv.symm (Option.some_ne_none p)

/-! ## Whole pools -/

/-- The rest of a visit, by the rest of its call. -/
theorem rest_of_turn {v : Visit Login} {s : Site Login} :
    (∃ action, (call ignoreCase isLocalUrl v s).1 = .inl action
      ∧ (turn ignoreCase isLocalUrl v s).1 = some { v with action := action })
    ∨ (turn ignoreCase isLocalUrl v s).1 = none := by
  unfold turn
  cases (call ignoreCase isLocalUrl v s).1 with
  | inl action => exact Or.inl ⟨action, rfl, rfl⟩
  | inr result => exact Or.inr rfl

/-- What runs in a slot that is written, seen through a map. -/
theorem update_bind {Proc Proc' : Type} (f : Proc → Option Proc') (running : ℕ → Option Proc)
    (i : ℕ) (o : Option Proc) :
    (fun j => (Function.update running i o j).bind f)
      = Function.update (fun j => (running j).bind f) i (o.bind f) := by
  funext j
  by_cases hj : j = i
  · rw [hj, Function.update_self, Function.update_self]
  · rw [Function.update_of_ne hj, Function.update_of_ne hj]

theorem running_requests (pool : Pool (Site Login) (Visit Login)) (i : ℕ) :
    (requests pool).running i = (pool.running i).bind request := rfl

/-- Writing to a slot what it has leaves the pool. -/
theorem requests_of_same (pool : Pool (Site Login) (Visit Login)) {i : ℕ}
    {o : Option (Request Login)} (h : (requests pool).running i = o) :
    (⟨pool.shared.tables, Function.update (fun j => (pool.running j).bind request) i o⟩ : Pool _ _)
      = requests pool := by
  subst h
  exact congrArg (Pool.mk pool.shared.tables) (Function.update_eq_self i (requests pool).running)

/-- **One event** of the visits is a run of the requests. -/
theorem requests_exec {pool : Pool (Site Login) (Visit Login)} (howners : OwnersExist pool.shared)
    (e : Event (Visit Login)) :
    requests (exec (turn ignoreCase isLocalUrl) pool e)
      = run (exec (Account.turn ignoreCase)) (requests pool)
          (requestEvents ignoreCase isLocalUrl pool e) := by
  cases e with
  | stop i =>
    show requests ⟨pool.shared, Function.update pool.running i none⟩ = _
    rw [requests, update_bind]
    rfl
  | start i v =>
    cases hi : pool.running i with
    | some w =>
      rw [exec_start_taken hi, requestEvents, hi]
      rfl
    | none =>
      have hfree : (requests pool).running i = none := by
        rw [running_requests, hi, Option.bind_none]
      rw [exec_start_free hi, requests, update_bind, requestEvents, hi, Option.bind_some]
      -- a visit that is no request leaves the pool of requests as it is
      cases hv : request v with
      | none =>
        exact requests_of_same pool hfree
      | some p =>
        show _ = exec (Account.turn ignoreCase) (requests pool) (.start i p)
        rw [exec_start_free hfree]
        rfl
  | advance i =>
    cases hi : pool.running i with
    | none =>
      rw [exec_advance_none hi, requestEvents, hi]
      rfl
    | some v =>
      have hslot : (requests pool).running i = request v := by
        rw [running_requests, hi, Option.bind_some]
      rw [exec_advance hi, requests, update_bind, requestEvents, hi]
      dsimp only
      cases hv : request v with
      | none =>
        obtain ⟨htables, hrest⟩ : (turn ignoreCase isLocalUrl v pool.shared).2.tables
            = pool.shared.tables ∧ _ := call_of_no_request pool.shared hv
        have hnone : (turn ignoreCase isLocalUrl v pool.shared).1.bind request = none := by
          rcases @rest_of_turn _ _ ignoreCase isLocalUrl v pool.shared with
            ⟨action, haction, hturn⟩ | hturn
          · rw [hturn, Option.bind_some, hrest action haction]
          · rw [hturn, Option.bind_none]
        rw [htables, hnone]
        exact requests_of_same pool (hslot.trans hv)
      | some p =>
        obtain ⟨htables, hrest⟩ : (turn ignoreCase isLocalUrl v pool.shared).2.tables
            = (Account.turn ignoreCase p pool.shared.tables).2 ∧ _ :=
          call_of_request howners hv
        have hadvance : exec (Account.turn ignoreCase) (requests pool) (.advance i)
            = ⟨(Account.turn ignoreCase p pool.shared.tables).2,
              Function.update (requests pool).running i
                (Account.turn ignoreCase p pool.shared.tables).1⟩ :=
          exec_advance (hslot.trans hv)
        rw [htables]
        rcases @rest_of_turn _ _ ignoreCase isLocalUrl v pool.shared with
          ⟨action, haction, hturn⟩ | hturn
        · rw [hturn, Option.bind_some, hrest action haction]
          exact hadvance.symm
        · rw [hturn, Option.bind_none]
          -- the visit is answered where the request may go on: it is stopped there
          show _ = exec (Account.turn ignoreCase)
            (exec (Account.turn ignoreCase) (requests pool) (.advance i)) (.stop i)
          rw [hadvance]
          show _ = (⟨_, Function.update (Function.update _ i _) i none⟩ : Pool _ _)
          rw [Function.update_idem]
          rfl

/-! ## What the forms check -/

/-- The form of an action that waits to write was filled in. -/
def Filled : Action Login → Prop
  | .manageChangePassword model => isBlank model.newPassword = false
  | .manageCreateAccount model => isBlank model.newPassword = false
  | .externalLoginConfirmationInsert _ userName _ => isBlank userName = false
  | _ => True

/-- What a site looks like whose users came through its forms. -/
structure Regular (ignoreCase : String → String) (s : Site Login) : Prop where
  names : NamesDistinct ignoreCase s.tables
  namesFilled : ∀ u ∈ s.userProfiles.rows, isBlank u.userName = false
  passwordsFilled : ∀ e ∈ s.localAccounts, isBlank e.2 = false
  owners : OwnersExist s

/-- A visit goes on with a form that was filled in. -/
theorem filled_rest {v : Visit Login} {s : Site Login} {action : Action Login}
    (hrest : (call ignoreCase isLocalUrl v s).1 = .inl action) : Filled action := by
  cases call_rest ignoreCase isLocalUrl hrest with
  | manageChangePassword model userId haction hvalid => exact LocalPasswordModel.filled hvalid
  | manageCreateAccount model userId haction hvalid =>
    exact LocalPasswordModel.filled_of_validateNew hvalid
  | confirmationInsert model returnUrl login haction huser hlogin hvalid =>
    exact RegisterExternalLoginModel.filled hvalid
  | _ => trivial

omit [DecidableEq Login] in
theorem filled_of_initial {action : Action Login} (h : action.initial = true) : Filled action := by
  cases action with
  | manageChangePassword => exact absurd h Bool.false_ne_true
  | manageCreateAccount => exact absurd h Bool.false_ne_true
  | externalLoginConfirmationInsert => exact absurd h Bool.false_ne_true
  | _ => trivial

/-- A user that is found has a profile. -/
theorem isSome_find?_of_getUserId {s : Site Login} {userName : String} {userId : ℤ}
    (h : getUserId ignoreCase s.tables userName = some userId) :
    (s.userProfiles.find? userId).isSome = true := by
  obtain ⟨u, hu, rfl⟩ := Option.map_eq_some_iff.mp h
  have hfind : s.userProfiles.find? u.userId = some u :=
    (s.userProfiles.find?_eq_some u.userId u).mpr ⟨List.mem_of_find?_eq_some hu, rfl⟩
  rw [hfind]
  rfl

/-- A new profile with a name that is free. -/
theorem Regular.insert {s s' : Site Login} {userName : String} (h : Regular ignoreCase s)
    (hfree : getUserId ignoreCase s.tables userName = none) (hfilled : isBlank userName = false)
    (hprofiles : s'.userProfiles = (insertProfile s.tables userName).userProfiles)
    (hpasswords : ∀ e ∈ s'.localAccounts, isBlank e.2 = false)
    (hlogins : s'.externalLogins = s.externalLogins) : Regular ignoreCase s' where
  names := by
    have hdistinct := namesDistinct_insertProfile h.names (Option.map_eq_none_iff.mp hfree)
    unfold NamesDistinct at hdistinct ⊢
    rw [show s'.tables.userProfiles = s'.userProfiles from rfl, hprofiles]
    exact hdistinct
  namesFilled := by
    intro u hu
    rw [hprofiles, mem_insertProfile] at hu
    rcases hu with hold | rfl
    · exact h.namesFilled u hold
    · exact hfilled
  passwordsFilled := hpasswords
  owners := by
    intro login userId hlookup
    rw [hlogins] at hlookup
    obtain ⟨u, hu⟩ := Option.isSome_iff_exists.mp (h.owners login userId hlookup)
    rw [hprofiles, find?_insertProfile s.tables userName hu]
    rfl

/-- **One call** keeps the site regular, if it inserts no name that is taken. -/
theorem regular_call {v : Visit Login} {s : Site Login} (h : Regular ignoreCase s)
    (hfilled : Filled v.action)
    (hinsert : ∀ login userName returnUrl,
      v.action = .externalLoginConfirmationInsert login userName returnUrl →
        getUserId ignoreCase s.tables userName = none) :
    Regular ignoreCase (call ignoreCase isLocalUrl v s).2 := by
  have heffect := call_effect ignoreCase isLocalUrl v s
  generalize (call ignoreCase isLocalUrl v s).2 = s' at heffect ⊢
  -- by what the call writes
  cases heffect with
  | registered model haction hvalid hnew =>
    obtain ⟨hname, hpassword⟩ := RegisterModel.filled hvalid
    refine h.insert hnew hname rfl ?_ rfl
    rintro e he
    rcases List.mem_cons.mp he with rfl | hold
    · exact hpassword
    · exact h.passwordsFilled e hold
  | created model userId haction =>
    rw [haction] at hfilled
    refine ⟨h.names, h.namesFilled, ?_, h.owners⟩
    rintro e he
    rcases List.mem_cons.mp he with rfl | hold
    · exact hfilled
    · exact h.passwordsFilled e hold
  | changed model userId haction =>
    rw [haction] at hfilled
    refine ⟨h.names, h.namesFilled, ?_, h.owners⟩
    rintro e he
    obtain ⟨e, hold, rfl⟩ := List.mem_map.mp he
    split_ifs
    · exact hfilled
    · exact h.passwordsFilled e hold
  | inserted login userName returnUrl haction =>
    have hfree := hinsert login userName returnUrl haction
    rw [haction] at hfilled
    exact h.insert hfree hfilled rfl h.passwordsFilled rfl
  | linked login userName userId hlinks huser =>
    refine ⟨h.names, h.namesFilled, h.passwordsFilled, fun login' userId' hlookup => ?_⟩
    rw [lookup_set] at hlookup
    split_ifs at hlookup
    · obtain rfl := Option.some.inj hlookup
      exact isSome_find?_of_getUserId huser
    · exact h.owners login' userId' hlookup
  | removed login =>
    refine ⟨h.names, h.namesFilled, h.passwordsFilled, fun login' userId' hlookup => ?_⟩
    rw [lookup_remove] at hlookup
    split_ifs at hlookup
    exact h.owners login' userId' hlookup
  | _ => exact ⟨h.names, h.namesFilled, h.passwordsFilled, h.owners⟩

/-! ## Signing in -/

/-- From any browser on which nobody is signed in, some request signs the user in. -/
def CanSignIn (ignoreCase : String → String) (isLocalUrl : String → Bool) (s : Site Login)
    (userId : ℤ) : Prop :=
  ∀ browser, ∃ (action : Action Login) (name : String), action.initial = true
    ∧ (call ignoreCase isLocalUrl ⟨browser, none, action⟩ s).2.cookies browser = some name
    ∧ getUserId ignoreCase s.tables name = some userId

/-- A profile is found by its own name. -/
theorem getUserId_of_regular {s : Site Login} (h : Regular ignoreCase s) {u : UserProfile}
    (hu : u ∈ s.userProfiles.rows) : getUserId ignoreCase s.tables u.userName = some u.userId := by
  cases hfind : findProfile ignoreCase s.tables u.userName with
  | none => exact absurd rfl ((findProfile_eq_none s.tables u.userName).mp hfind u hu)
  | some w =>
    have hrows : s.userProfiles.rows.find?
        (fun w => decide (ignoreCase w.userName = ignoreCase u.userName)) = some w := hfind
    have hname := List.find?_some hrows
    rw [decide_eq_true_iff] at hname
    obtain rfl := List.inj_on_of_nodup_map h.names (List.mem_of_find?_eq_some hrows) hu hname
    rw [getUserId, hfind, Option.map_some]

/-- **A credential is good for signing in.** -/
theorem canSignIn_of_credential {s : Site Login} (h : Regular ignoreCase s) {u : UserProfile}
    (hu : u ∈ s.userProfiles.rows) (hcredential : HasCredential s.tables u.userId) :
    CanSignIn ignoreCase isLocalUrl s u.userId := by
  intro browser
  have hid := getUserId_of_regular h hu
  -- with a password through the form, with a login through its provider
  rcases hcredential with hlocal | ⟨login, hlookup⟩
  · obtain ⟨password, hpassword⟩ :=
      Option.isSome_iff_exists.mp ((isSome_passwordOf s u.userId).mpr hlocal)
    -- the stored password came through a form, so the form takes it
    have hfilled : isBlank password = false := by
      obtain ⟨e, he, rfl⟩ := Option.map_eq_some_iff.mp hpassword
      exact h.passwordsFilled e (List.mem_of_find?_eq_some he)
    have hpresents : Visit.Presents ignoreCase
        (⟨browser, none, .login ⟨u.userName, password⟩ ""⟩ : Visit Login) s u.userName := by
      refine ⟨rfl, (Bool.and_eq_true _ _).mpr ⟨?_, ?_⟩⟩
      · exact (LoginModel.isValid_iff _).mpr ⟨h.namesFilled u hu, hfilled⟩
      · rw [validateUser, hid]
        exact decide_eq_true hpassword
    refine ⟨.login ⟨u.userName, password⟩ "", u.userName, rfl, ?_, hid⟩
    rw [call_presents hpresents, Site.cookies_setAuthCookie, if_pos rfl]
  · obtain ⟨w, hw, hname⟩ := getUserName_of_owner h.owners hlookup
    have hfind : s.userProfiles.find? u.userId = some u :=
      (s.userProfiles.find?_eq_some u.userId u).mpr ⟨hu, rfl⟩
    obtain rfl := Option.some.inj (hfind.symm.trans hw)
    have hpresents : Visit.Presents ignoreCase
        (⟨browser, none, .externalLoginCallback ⟨true, login, ""⟩ ""⟩ : Visit Login) s u.userName :=
      ⟨rfl, hname⟩
    refine ⟨.externalLoginCallback ⟨true, login, ""⟩ "", u.userName, rfl, ?_, hid⟩
    rw [call_presents hpresents, Site.cookies_setAuthCookie, if_pos rfl]

/-! ## Runs -/

/-- What browsers can send, as long as the requests it stands for are sound. -/
def SoundVisit (ignoreCase : String → String) (isLocalUrl : String → Bool)
    (pool : Pool (Site Login) (Visit Login)) (e : Event (Visit Login)) : Prop :=
  Sends pool e ∧ Guarded (exec (Account.turn ignoreCase)) (Sound ignoreCase) (requests pool)
    (requestEvents ignoreCase isLocalUrl pool e)

/-- The site is regular, every form that waits was filled in, and every user has a
credential or is about to get one. -/
structure Kept (ignoreCase : String → String) (pool : Pool (Site Login) (Visit Login)) :
    Prop where
  regular : Regular ignoreCase pool.shared
  filled : ∀ i v, pool.running i = some v → Filled v.action
  covered : Covered ignoreCase (requests pool)

/-- A sound turn of a visit that is a request is a sound turn of the request. -/
theorem sound_advance {pool : Pool (Site Login) (Visit Login)} {i : ℕ} {v : Visit Login}
    {p : Request Login} (hsound : SoundVisit ignoreCase isLocalUrl pool (.advance i))
    (hi : pool.running i = some v) (hv : request v = some p) :
    Sound ignoreCase (requests pool) (.advance i) := by
  have hguarded := hsound.2
  rw [requestEvents, hi] at hguarded
  dsimp only at hguarded
  rw [hv] at hguarded
  cases hturn : (turn ignoreCase isLocalUrl v pool.shared).1 with
  | some v' =>
    rw [hturn] at hguarded
    exact hguarded.1
  | none =>
    rw [hturn] at hguarded
    exact hguarded.1

/-- **One sound event** keeps all of it. -/
theorem kept_exec (pool : Pool (Site Login) (Visit Login)) (e : Event (Visit Login))
    (h : Kept ignoreCase pool) (hsound : SoundVisit ignoreCase isLocalUrl pool e) :
    Kept ignoreCase (exec (turn ignoreCase isLocalUrl) pool e) where
  regular := by
    rcases @shared_exec _ _ (turn ignoreCase isLocalUrl) pool e with
      ⟨i, v, rfl, hi, hshared⟩ | ⟨-, hshared⟩
    · rw [hshared]
      refine regular_call h.regular (h.filled i v hi) ?_
      intro login userName returnUrl haction
      have hv : request v = some (.externalLoginConfirmationInsert login userName) := by
        rw [request, haction]
      have hslot : (requests pool).running i
          = some (.externalLoginConfirmationInsert login userName) := by
        rw [running_requests, hi, Option.bind_some, hv]
      exact (sound_advance hsound hi hv _ hslot).1 login userName rfl
    · rw [hshared]
      exact h.regular
  filled := by
    apply forall_running_exec (P := fun (_ : Site Login) (v : Visit Login) => Filled v.action)
    · exact h.filled
    · rintro i v rfl
      exact filled_of_initial hsound.1.1
    · rintro i v v' rfl hi hrest
      exact filled_rest (turn_rest hrest).2.2
    · rintro i v j w rfl - - hj
      exact h.filled j w hj
  covered := by
    -- the credentials are kept by the requests that the event stands for
    rw [requests_exec h.regular.owners]
    exact invariant_run covered_exec h.covered hsound.2

/-- **Nobody is locked out.** From a site whose users came through its forms and each have
a password or a login, in every state that a sound run reaches while no request is in
progress, every user can sign in from any browser. -/
theorem signsIn_of_quiet (site : Site Login) (hregular : Regular ignoreCase site)
    (hcredentials : ∀ u ∈ site.userProfiles.rows, HasCredential site.tables u.userId)
    (es : List (Event (Visit Login)))
    (hsound : Guarded (exec (turn ignoreCase isLocalUrl)) (SoundVisit ignoreCase isLocalUrl)
      (idle site) es)
    (pre : List (Event (Visit Login))) (hpre : pre <+: es)
    (hquiet : (run (exec (turn ignoreCase isLocalUrl)) (idle site) pre).Quiet) :
    ∀ u ∈ (run (exec (turn ignoreCase isLocalUrl)) (idle site) pre).shared.userProfiles.rows,
      CanSignIn ignoreCase isLocalUrl
        (run (exec (turn ignoreCase isLocalUrl)) (idle site) pre).shared u.userId := by
  have hstart : Kept ignoreCase (idle site) :=
    ⟨hregular, fun i v hi => absurd hi.symm (Option.some_ne_none v),
      fun u hu => Or.inl (hcredentials u hu)⟩
  have hkept : Kept ignoreCase (run (exec (turn ignoreCase isLocalUrl)) (idle site) pre) :=
    invariant_reached kept_exec hstart hsound hpre
  intro u hu
  rcases hkept.covered u hu with hcredential | ⟨i, login, userName, hi, -⟩
  · exact canSignIn_of_credential hkept.regular hu hcredential
  · rw [running_requests, hquiet i] at hi
    exact absurd hi.symm (Option.some_ne_none _)

/-- `ann` after she has registered. -/
theorem signsIn_ann :
    CanSignIn lowerCase (fun _ => false)
      (run (exec (turn lowerCase (fun _ => false))) (idle unvisited) annRegisters).shared 1 := by
  have hsound : Guarded (exec (turn lowerCase (fun _ => false)))
      (SoundVisit lowerCase (fun _ => false)) (idle unvisited) annRegisters := by
    refine ⟨⟨by decide, trivial, trivial⟩, ⟨trivial, ?_, trivial⟩, ⟨trivial, ?_, ?_, trivial⟩,
      trivial⟩
    · intro p hp
      have hregister : some (Request.register "ann") = some p := hp
      rw [← Option.some.inj hregister]
      exact ⟨fun _ _ h => by simp at h, fun _ _ _ _ h => by simp [Account.Request.links] at h,
        fun _ _ _ h => by simp at h⟩
    · intro p hp
      have hlogin : some (Request.registerLogin "ann") = some p := hp
      rw [← Option.some.inj hlogin]
      exact ⟨fun _ _ h => by simp at h, fun _ _ _ _ h => by simp [Account.Request.links] at h,
        fun _ _ _ h => by simp at h⟩
    · intro login userName h
      have hnone : (none : Option (Request ℕ)) = some _ := h
      exact absurd hnone.symm (Option.some_ne_none _)
  have hregular : Regular lowerCase unvisited :=
    ⟨List.nodup_nil, fun u hu => absurd hu List.not_mem_nil,
      fun e he => absurd he List.not_mem_nil,
      fun login userId h => absurd h.symm (Option.some_ne_none userId)⟩
  refine signsIn_of_quiet unvisited hregular (fun u hu => absurd hu List.not_mem_nil)
    annRegisters hsound annRegisters (List.prefix_refl _) ?_ ⟨1, "ann"⟩ (by decide +kernel)
  rintro (_ | i)
  · rfl
  · rfl

end CgGuide.SignInCredentials
