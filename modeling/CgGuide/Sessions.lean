/-
Who is signed in, and what that allows, whatever requests overlap.

`Sends` is all that is assumed of the browsers: a request starts at its first call, with
the cookie the browser has, and a confirmation carries a login that the site itself has
put into a form. Then a browser is signed in exactly as its own sign-ins say
(`signedIn_iff`), and every change of a password or of the owner of a login is the act of
somebody who was entitled to it (`password_changed`, `owner_changed`).
-/
import CgGuide.SignIns

set_option autoImplicit false

namespace CgGuide.Sessions

open CgGuide.KeyedTable CgGuide.Dictionaries CgGuide.Dictionaries.Dictionary
open CgGuide.Runs CgGuide.Interleaving CgGuide.Interleaving.Pool
open CgGuide.Account (AccountStore UserProfile getUserId getUserName mayDisassociate insertProfile
  lowerCase)
open CgGuide.AccountModels CgGuide.SignIns

variable {Login : Type} [DecidableEq Login]
variable {ignoreCase : String → String} {isLocalUrl : String → Bool}

/-! ## Browsers -/

/-- What a browser can send. -/
def Sends (pool : Pool (Site Login) (Visit Login)) : Event (Visit Login) → Prop
  | .start _ v => v.action.initial = true
      ∧ v.user = pool.shared.cookies v.browser
      ∧ ∀ login ∈ v.action.form, login ∈ pool.shared.confirmable
  | _ => True

instance Sends.decidable (pool : Pool (Site Login) (Visit Login)) :
    ∀ e, Decidable (Sends pool e)
  | .start _ v => inferInstanceAs (Decidable (v.action.initial = true
      ∧ v.user = pool.shared.cookies v.browser
      ∧ ∀ login ∈ v.action.form, login ∈ pool.shared.confirmable))
  | .advance _ => .isTrue trivial
  | .stop _ => .isTrue trivial

/-- An event in which a browser signs in under a name. -/
def SignsIn (ignoreCase : String → String) (browser : ℕ) (name : String)
    (pool : Pool (Site Login) (Visit Login)) (e : Event (Visit Login)) : Prop :=
  ∃ i v, e = .advance i ∧ pool.running i = some v ∧ v.browser = browser
    ∧ v.Presents ignoreCase pool.shared name

/-- ... and one in which it logs off. -/
def LogsOff (browser : ℕ) (pool : Pool (Site Login) (Visit Login)) (e : Event (Visit Login)) :
    Prop :=
  ∃ i v, e = .advance i ∧ pool.running i = some v ∧ v.browser = browser ∧ v.action = .logOff
    ∧ v.user.isSome = true

/-- A site that nobody has visited. -/
def unvisited : Site ℕ where
  userProfiles := IdentityTable.empty
  localAccounts := []
  externalLogins := empty
  cookies := fun _ => none
  confirmable := []

/-- A browser registers `ann`, who is signed in by it. -/
def annRegisters : List (Event (Visit ℕ)) :=
  [.start 0 ⟨0, none, .register ⟨"ann", "secret", "secret"⟩⟩, .advance 0, .advance 0]

/-! ## One call -/

/-- A visit that presents a password or a login gets its cookie. -/
theorem call_presents {v : Visit Login} {s : Site Login} {name : String}
    (h : v.Presents ignoreCase s name) :
    (call ignoreCase isLocalUrl v s).2 = s.setAuthCookie v.browser (some name) := by
  obtain ⟨browser, user, action⟩ := v
  cases action with
  | login model returnUrl =>
    obtain ⟨rfl, hvalid⟩ := h
    rw [call, if_neg (by simp [Action.allowAnonymous]), act, if_pos hvalid]
  | registerLogin model =>
    obtain ⟨rfl, hvalid⟩ := h
    rw [call, if_neg (by simp [Action.allowAnonymous]), act]
    exact if_pos hvalid
  | externalLoginCallback result returnUrl =>
    obtain ⟨hresult, howner⟩ := h
    rw [call, if_neg (by simp [Action.allowAnonymous]), act]
    simp only [externalLoginCallback, if_pos hresult, howner]
  | externalLoginConfirmationLogin login returnUrl =>
    have howner : getUserName s.tables login = some name := h
    rw [call, if_neg (by simp [Action.allowAnonymous]), act]
    simp only [howner]
  | _ => exact absurd h not_false

theorem call_logOff {v : Visit Login} {s : Site Login} (haction : v.action = .logOff)
    (huser : v.user.isSome = true) :
    (call ignoreCase isLocalUrl v s).2 = s.setAuthCookie v.browser none := by
  rw [call, haction, if_neg, act]
  rw [Bool.and_eq_true, not_and, Option.isNone_iff_eq_none]
  intro hnone
  rw [hnone] at huser
  exact absurd huser Bool.false_ne_true

/-- A call that changes the cookie of a browser signs it in or logs it off. -/
theorem cookies_call (v : Visit Login) (s : Site Login) (browser : ℕ) :
    (call ignoreCase isLocalUrl v s).2.cookies browser = s.cookies browser
    ∨ v.browser = browser
      ∧ ((∃ name, v.Presents ignoreCase s name) ∨ v.action = .logOff ∧ v.user.isSome = true) := by
  by_cases hbrowser : v.browser = browser
  · have heffect := call_effect ignoreCase isLocalUrl v s
    generalize (call ignoreCase isLocalUrl v s).2 = s' at heffect ⊢
    cases heffect with
    | signedIn name hpresents => exact Or.inr ⟨hbrowser, Or.inl ⟨name, hpresents⟩⟩
    | signedOut haction hsigned => exact Or.inr ⟨hbrowser, Or.inr ⟨haction, hsigned⟩⟩
    | _ => exact Or.inl rfl
  · -- a call writes the cookie of its own browser only
    left
    have heffect := call_effect ignoreCase isLocalUrl v s
    generalize (call ignoreCase isLocalUrl v s).2 = s' at heffect ⊢
    cases heffect with
    | signedIn name => rw [Site.cookies_setAuthCookie, if_neg (Ne.symm hbrowser)]
    | signedOut => rw [Site.cookies_setAuthCookie, if_neg (Ne.symm hbrowser)]
    | _ => rfl

/-- A visit presents itself under one name. -/
theorem presents_unique {v : Visit Login} {s : Site Login} {name name' : String}
    (h : v.Presents ignoreCase s name) (h' : v.Presents ignoreCase s name') : name = name' := by
  -- the cookie that the call leaves has both names
  have hsite : s.setAuthCookie v.browser (some name) = s.setAuthCookie v.browser (some name') := by
    rw [← @call_presents Login _ ignoreCase (fun _ => true) v s name h, call_presents h']
  have hcookie := congrArg (fun s' => s'.cookies v.browser) hsite
  simp only [Site.cookies_setAuthCookie, if_true] at hcookie
  exact Option.some.inj hcookie

/-! ## Sessions -/

/-- An event that ends the session of a browser under a name. -/
def Leaves (ignoreCase : String → String) (browser : ℕ) (name : String)
    (pool : Pool (Site Login) (Visit Login)) (e : Event (Visit Login)) : Prop :=
  (∃ name', name' ≠ name ∧ SignsIn ignoreCase browser name' pool e) ∨ LogsOff browser pool e

theorem signsIn_advance {pool : Pool (Site Login) (Visit Login)} {i : ℕ} {v : Visit Login}
    (hi : pool.running i = some v) (browser : ℕ) (name : String) :
    SignsIn ignoreCase browser name pool (.advance i)
      ↔ v.browser = browser ∧ v.Presents ignoreCase pool.shared name := by
  constructor
  · rintro ⟨j, w, hj, hw, h⟩
    obtain rfl := Event.advance.inj hj
    obtain rfl := Option.some.inj (hi.symm.trans hw)
    exact h
  · exact fun h => ⟨i, v, rfl, hi, h⟩

theorem logsOff_advance {pool : Pool (Site Login) (Visit Login)} {i : ℕ} {v : Visit Login}
    (hi : pool.running i = some v) (browser : ℕ) :
    LogsOff browser pool (.advance i)
      ↔ v.browser = browser ∧ v.action = .logOff ∧ v.user.isSome = true := by
  constructor
  · rintro ⟨j, w, hj, hw, h⟩
    obtain rfl := Event.advance.inj hj
    obtain rfl := Option.some.inj (hi.symm.trans hw)
    exact h
  · exact fun h => ⟨i, v, rfl, hi, h⟩

/-- **One event** signs a browser in, leaves it as it was, or ends its session. -/
theorem cookies_exec (pool : Pool (Site Login) (Visit Login)) (e : Event (Visit Login))
    (browser : ℕ) (name : String) :
    (exec (turn ignoreCase isLocalUrl) pool e).shared.cookies browser = some name
      ↔ SignsIn ignoreCase browser name pool e
        ∨ pool.shared.cookies browser = some name ∧ ¬ Leaves ignoreCase browser name pool e := by
  rcases @shared_exec _ _ (turn ignoreCase isLocalUrl) pool e with
    ⟨i, v, rfl, hi, hshared⟩ | ⟨hstill, hshared⟩
  · have hcall : (turn ignoreCase isLocalUrl v pool.shared).2
        = (call ignoreCase isLocalUrl v pool.shared).2 := rfl
    rw [hshared, hcall]
    unfold Leaves
    simp only [signsIn_advance hi, logsOff_advance hi]
    by_cases hpresents : v.browser = browser ∧ ∃ name', v.Presents ignoreCase pool.shared name'
    · -- it signs in, under this name or another one
      obtain ⟨rfl, name', hname'⟩ := hpresents
      rw [call_presents hname', Site.cookies_setAuthCookie, if_pos rfl, Option.some.injEq]
      constructor
      · rintro rfl
        exact Or.inl ⟨rfl, hname'⟩
      · rintro (⟨-, h⟩ | ⟨-, h⟩)
        · exact presents_unique hname' h
        · by_contra hne
          exact h (Or.inl ⟨name', hne, rfl, hname'⟩)
    -- it does not sign in: it logs off, or the cookie stays
    · have hnot : ∀ name', ¬ (v.browser = browser ∧ v.Presents ignoreCase pool.shared name') :=
        fun name' h => hpresents ⟨h.1, name', h.2⟩
      by_cases hoff : v.browser = browser ∧ v.action = .logOff ∧ v.user.isSome = true
      · have hcookie : (call ignoreCase isLocalUrl v pool.shared).2.cookies browser = none := by
          rw [call_logOff hoff.2.1 hoff.2.2, Site.cookies_setAuthCookie, if_pos hoff.1.symm]
        rw [hcookie]
        refine iff_of_false (Option.some_ne_none name).symm ?_
        rintro (h | ⟨-, h⟩)
        · exact hnot name h
        · exact h (Or.inr hoff)
      · have hcookie : (call ignoreCase isLocalUrl v pool.shared).2.cookies browser
            = pool.shared.cookies browser := by
          rcases cookies_call v pool.shared browser with hsame | ⟨hbrowser, hname | hlogs⟩
          · exact hsame
          · exact absurd ⟨hbrowser, hname⟩ hpresents
          · exact absurd ⟨hbrowser, hlogs⟩ hoff
        rw [hcookie]
        constructor
        · intro h
          refine Or.inr ⟨h, ?_⟩
          rintro (⟨name', -, hname'⟩ | hlogs)
          · exact hnot name' hname'
          · exact hoff hlogs
        · rintro (h | ⟨h, -⟩)
          · exact absurd h (hnot name)
          · exact h
  · have hin : ∀ name', ¬ SignsIn ignoreCase browser name' pool e := by
      rintro name' ⟨i, v, he, hv, -⟩
      exact hstill i v he hv
    have hoff : ¬ LogsOff browser pool e := by
      rintro ⟨i, v, he, hv, -⟩
      exact hstill i v he hv
    rw [hshared]
    simp [Leaves, hin, hoff]

/-- **Sessions.** Whatever requests overlap, a browser that nobody was signed in on has
the cookie of a name exactly when it has signed in under that name, presenting the
password or a login of a user of that name, and has not signed in under another one or
logged off since. -/
theorem signedIn_iff (site : Site Login) (browser : ℕ) (hstart : site.cookies browser = none)
    (es : List (Event (Visit Login))) (name : String) :
    (run (exec (turn ignoreCase isLocalUrl)) (idle site) es).shared.cookies browser = some name
      ↔ Since (exec (turn ignoreCase isLocalUrl)) (SignsIn ignoreCase browser name)
          (Leaves ignoreCase browser name) (idle site) es := by
  refine iff_since (P := fun pool : Pool (Site Login) (Visit Login) =>
    pool.shared.cookies browser = some name) ?_ (fun pool e _ => ?_) (guarded_true (idle site) es)
  · show ¬ site.cookies browser = some name
    rw [hstart]
    exact (Option.some_ne_none name).symm
  · exact cookies_exec pool e browser name

/-- `ann`'s browser after she has registered. -/
theorem signedIn_ann :
    Since (exec (turn lowerCase (fun _ => false))) (SignsIn lowerCase 0 "ann")
      (Leaves lowerCase 0 "ann") (idle unvisited) annRegisters :=
  (signedIn_iff unvisited 0 rfl annRegisters "ann").mp (by decide +kernel)

/-! ## On whose behalf a request acts -/

section History

variable {site : Site Login} {es : List (Event (Visit Login))}

/-- An event in which the provider of a login vouches for it to the site. -/
def Verifies (login : Login) (pool : Pool (Site Login) (Visit Login)) (e : Event (Visit Login)) :
    Prop :=
  ∃ i v result returnUrl, e = .advance i ∧ pool.running i = some v
    ∧ v.action = .externalLoginCallback result returnUrl ∧ result.isSuccessful = true
    ∧ result.login = login

/-- The login an action was verified for. -/
def Verified (login : Login) : Action Login → Prop
  | .externalLoginCallbackLink login' _ => login' = login
  | .externalLoginConfirmation model _ => model.externalLoginData = some login
  | .externalLoginConfirmationInsert login' _ _ => login' = login
  | .externalLoginConfirmationLink login' _ _ => login' = login
  | .externalLoginConfirmationLogin login' _ => login' = login
  | _ => False

/-- The rest of a visit is still about the login, or has just been verified. -/
theorem verified_rest {v : Visit Login} {s : Site Login} {action : Action Login} {login : Login}
    (hrest : (call ignoreCase isLocalUrl v s).1 = .inl action) (h : Verified login action) :
    Verified login v.action
    ∨ ∃ result returnUrl, v.action = .externalLoginCallback result returnUrl
        ∧ result.isSuccessful = true ∧ result.login = login := by
  cases call_rest ignoreCase isLocalUrl hrest with
  | callbackLink result returnUrl haction hresult =>
    exact Or.inr ⟨result, returnUrl, haction, hresult, h⟩
  | confirmationInsert model returnUrl login' haction huser hlogin =>
    obtain rfl : login' = login := h
    left
    rw [haction]
    exact hlogin
  | confirmationLink login' userName returnUrl haction =>
    left
    rw [haction]
    exact h
  | confirmationLogin login' userName returnUrl haction =>
    left
    rw [haction]
    exact h
  | _ => exact absurd h not_false

/-- A login is linked in a callback of somebody who is signed in. -/
theorem signed_of_link {v : Visit Login} {s : Site Login} {login : Login} {returnUrl : String}
    (hrest : (call ignoreCase isLocalUrl v s).1
      = .inl (.externalLoginCallbackLink login returnUrl)) : v.user.isSome = true := by
  cases call_rest ignoreCase isLocalUrl hrest with
  | callbackLink result returnUrl haction hresult hsigned => exact hsigned

/-- Logins that the site puts into a form have just been verified. -/
theorem confirmable_call {v : Visit Login} {s : Site Login} {login : Login}
    (h : login ∈ (call ignoreCase isLocalUrl v s).2.confirmable) :
    login ∈ s.confirmable
    ∨ ∃ result returnUrl, v.action = .externalLoginCallback result returnUrl
        ∧ result.isSuccessful = true ∧ result.login = login := by
  have heffect := call_effect ignoreCase isLocalUrl v s
  generalize (call ignoreCase isLocalUrl v s).2 = s' at heffect h
  cases heffect with
  | verified result returnUrl haction hresult =>
    rcases List.mem_cons.mp h with rfl | hold
    · exact Or.inr ⟨result, returnUrl, haction, hresult, rfl⟩
    · exact Or.inl hold
  | _ => exact Or.inl h

omit [DecidableEq Login] in
/-- At its first call only a confirmation is about a login that has been verified. -/
theorem verified_initial {action : Action Login} {login : Login} (hinitial : action.initial = true)
    (h : Verified login action) : action.form = some login := by
  cases action with
  | externalLoginConfirmation model returnUrl => exact h
  -- the other actions about a login are later calls of a visit
  | externalLoginCallbackLink => exact absurd hinitial Bool.false_ne_true
  | externalLoginConfirmationInsert => exact absurd hinitial Bool.false_ne_true
  | externalLoginConfirmationLink => exact absurd hinitial Bool.false_ne_true
  | externalLoginConfirmationLogin => exact absurd hinitial Bool.false_ne_true
  | _ => exact absurd h not_false

/-- What can be told of the past from the state of a pool: cookies and requests go back
to sign-ins, forms and requests about a login to a provider that vouched for it. -/
structure Entitled (ignoreCase : String → String) (isLocalUrl : String → Bool) (site : Site Login)
    (es : List (Event (Visit Login))) : Prop where
  cookies : ∀ browser name,
    (run (exec (turn ignoreCase isLocalUrl)) (idle site) es).shared.cookies browser = some name →
      Once (exec (turn ignoreCase isLocalUrl)) (SignsIn ignoreCase browser name) (idle site) es
  confirmable : ∀ login ∈
    (run (exec (turn ignoreCase isLocalUrl)) (idle site) es).shared.confirmable,
      Once (exec (turn ignoreCase isLocalUrl)) (Verifies login) (idle site) es
  visits : ∀ i v,
    (run (exec (turn ignoreCase isLocalUrl)) (idle site) es).running i = some v →
      (∀ name, v.user = some name → Once (exec (turn ignoreCase isLocalUrl))
        (SignsIn ignoreCase v.browser name) (idle site) es)
      ∧ (∀ login, Verified login v.action →
          Once (exec (turn ignoreCase isLocalUrl)) (Verifies login) (idle site) es)
      ∧ ∀ login returnUrl, v.action = .externalLoginCallbackLink login returnUrl →
          v.user.isSome = true

/-- The rest of a visit comes from the same browser, with the same user. -/
theorem turn_rest {v v' : Visit Login} {s : Site Login}
    (h : (turn ignoreCase isLocalUrl v s).1 = some v') :
    v'.browser = v.browser ∧ v'.user = v.user
      ∧ (call ignoreCase isLocalUrl v s).1 = .inl v'.action := by
  obtain ⟨action, haction, rfl⟩ := Option.map_eq_some_iff.mp h
  exact ⟨rfl, rfl, Sum.getLeft?_eq_some_iff.mp haction⟩

/-- **One event** keeps it so. -/
theorem entitled_concat {e : Event (Visit Login)} (h : Entitled ignoreCase isLocalUrl site es)
    (hsends : Sends (run (exec (turn ignoreCase isLocalUrl)) (idle site) es) e) :
    Entitled ignoreCase isLocalUrl site (es ++ [e]) where
  cookies := by
    intro browser name hcookie
    rw [once_concat]
    rw [run_append] at hcookie
    exact ((cookies_exec _ e browser name).mp hcookie).imp_right
      (fun hold => h.cookies browser name hold.1)
  confirmable := by
    intro login hlogin
    rw [once_concat]
    rw [run_append] at hlogin
    rcases @shared_exec _ _ (turn ignoreCase isLocalUrl)
        (run (exec (turn ignoreCase isLocalUrl)) (idle site) es) e with
      ⟨i, v, he, hi, hshared⟩ | ⟨-, hshared⟩
    · have hcall : login ∈ (call ignoreCase isLocalUrl v
          (run (exec (turn ignoreCase isLocalUrl)) (idle site) es).shared).2.confirmable := by
        rw [show run _ _ [e] = exec _ _ e from rfl, hshared] at hlogin
        exact hlogin
      rcases confirmable_call hcall with hold | ⟨result, returnUrl, haction, hresult, hlogin'⟩
      · exact Or.inr (h.confirmable login hold)
      · exact Or.inl ⟨i, v, result, returnUrl, he, hi, haction, hresult, hlogin'⟩
    · rw [show run _ _ [e] = exec _ _ e from rfl, hshared] at hlogin
      exact Or.inr (h.confirmable login hlogin)
  visits := by
    rw [run_append]
    simp only [once_concat]
    apply forall_running_exec (P := fun (_ : Site Login) (v : Visit Login) =>
      (∀ name, v.user = some name →
        SignsIn ignoreCase v.browser name
            (run (exec (turn ignoreCase isLocalUrl)) (idle site) es) e
          ∨ Once (exec (turn ignoreCase isLocalUrl)) (SignsIn ignoreCase v.browser name)
              (idle site) es)
      ∧ (∀ login, Verified login v.action →
          Verifies login (run (exec (turn ignoreCase isLocalUrl)) (idle site) es) e
            ∨ Once (exec (turn ignoreCase isLocalUrl)) (Verifies login) (idle site) es)
      ∧ ∀ login returnUrl, v.action = .externalLoginCallbackLink login returnUrl →
          v.user.isSome = true)
    · intro i v hi
      obtain ⟨huser, hlogin, hlink⟩ := h.visits i v hi
      exact ⟨fun name hname => Or.inr (huser name hname),
        fun login hverified => Or.inr (hlogin login hverified), hlink⟩
    -- a request starts with the cookie of its browser and a login of the site's forms
    · rintro i v rfl
      obtain ⟨hinitial, hcookie, hform⟩ := hsends
      refine ⟨fun name hname => Or.inr (h.cookies _ _ (hcookie ▸ hname)), fun login hverified => ?_,
        fun login returnUrl haction => absurd hinitial (by rw [haction]; exact Bool.false_ne_true)⟩
      exact Or.inr (h.confirmable login (hform login (verified_initial hinitial hverified)))
    -- its next call keeps both, unless the provider has just vouched for a login
    · rintro i v v' rfl hi hrest
      obtain ⟨hbrowser, huser, haction⟩ := turn_rest hrest
      obtain ⟨husers, hlogins, -⟩ := h.visits i v hi
      rw [hbrowser, huser]
      refine ⟨fun name hname => Or.inr (husers name hname), fun login hverified => ?_,
        fun login returnUrl hlink => signed_of_link (hlink ▸ haction)⟩
      rcases verified_rest haction hverified with hold | ⟨result, returnUrl, hv, hresult, hlogin⟩
      · exact Or.inr (hlogins login hold)
      · exact Or.inl ⟨i, v, result, returnUrl, rfl, hi, hv, hresult, hlogin⟩
    · rintro i v j w rfl hi - hj
      obtain ⟨huser, hlogin, hlink⟩ := h.visits j w hj
      exact ⟨fun name hname => Or.inr (huser name hname),
        fun login hverified => Or.inr (hlogin login hverified), hlink⟩

/-- From a site that nobody has visited yet, **every run** of what browsers can send. -/
theorem entitled_run (hcookies : ∀ browser, site.cookies browser = none)
    (hconfirmable : site.confirmable = [])
    (hsends : Guarded (exec (turn ignoreCase isLocalUrl)) Sends (idle site) es) :
    Entitled ignoreCase isLocalUrl site es := by
  refine run_induction (P := Entitled ignoreCase isLocalUrl site) ⟨?_, ?_, ?_⟩
    (fun es e h hsends => entitled_concat h hsends) hsends
  · intro browser name hcookie
    exact absurd ((hcookies browser).symm.trans hcookie) (Option.some_ne_none name).symm
  · intro login hlogin
    exact absurd (hconfirmable ▸ hlogin : login ∈ []) List.not_mem_nil
  · intro i v hi
    exact absurd hi (Option.some_ne_none v).symm

/-! ## Passwords -/

/-- A call that gives a user a password, and on what grounds. -/
inductive Gives (ignoreCase : String → String) (v : Visit Login) (s : Site Login) (userId : ℤ)
    (password : String) : Prop
  /-- The user is new. -/
  | register (model : RegisterModel) (haction : v.action = .register model)
      (hnew : getUserId ignoreCase s.tables model.userName = none)
      (hid : userId = s.userProfiles.next) (hpassword : password = model.password)
  /-- The user has no password, and asks for one. -/
  | create (user : String) (model : LocalPasswordModel) (huser : v.user = some user)
      (hid : getUserId ignoreCase s.tables user = some userId)
      (haction : v.action = .manageCreateAccount model) (hnone : s.passwordOf userId = none)
      (hpassword : password = model.newPassword)
  /-- The user presents the password in force. -/
  | change (user : String) (model : LocalPasswordModel) (huser : v.user = some user)
      (hid : getUserId ignoreCase s.tables user = some userId)
      (haction : v.action = .manageChangePassword model)
      (hold : s.passwordOf userId = some model.oldPassword)
      (hpassword : password = model.newPassword)

/-- **One call** leaves the password of a user, or gives it. -/
theorem passwordOf_call (v : Visit Login) (s : Site Login) (userId : ℤ) :
    (call ignoreCase isLocalUrl v s).2.passwordOf userId = s.passwordOf userId
    ∨ ∃ password, Gives ignoreCase v s userId password
        ∧ (call ignoreCase isLocalUrl v s).2.passwordOf userId = some password := by
  have heffect := call_effect ignoreCase isLocalUrl v s
  generalize (call ignoreCase isLocalUrl v s).2 = s' at heffect ⊢
  cases heffect with
  | registered model haction hvalid hnew =>
    rw [Site.passwordOf_cons (s := s) rfl]
    by_cases hid : s.userProfiles.next = userId
    · rw [if_pos hid]
      exact Or.inr ⟨model.password, .register model haction hnew hid.symm rfl, rfl⟩
    · rw [if_neg hid]
      exact Or.inl rfl
  | created model userId' haction hsigned huser hnone =>
    obtain ⟨user, hname⟩ := Option.isSome_iff_exists.mp hsigned
    rw [Visit.userName, hname, Option.getD_some] at huser
    rw [Site.passwordOf_cons (s := s) rfl]
    by_cases hid : userId' = userId
    · subst hid
      rw [if_pos rfl]
      exact Or.inr ⟨model.newPassword, .create user model hname huser haction hnone rfl, rfl⟩
    · rw [if_neg hid]
      exact Or.inl rfl
  | changed model userId' haction hsigned huser hold =>
    obtain ⟨user, hname⟩ := Option.isSome_iff_exists.mp hsigned
    rw [Visit.userName, hname, Option.getD_some] at huser
    rw [Site.passwordOf_setPassword]
    by_cases hid : userId = userId'
    · subst hid
      rw [if_pos rfl, hold, Option.map_some]
      exact Or.inr ⟨model.newPassword, .change user model hname huser haction hold rfl, rfl⟩
    · rw [if_neg hid]
      exact Or.inl rfl
  | _ => exact Or.inl rfl

/-- **Passwords are their users' own.** In every run of what browsers can send, whatever
requests overlap, an event that changes the password of a user is a call that registers the
user, or one for somebody whose browser has signed in under the user's name; and then it
gives a password where there is none, or presents the one in force. -/
theorem password_changed (hcookies : ∀ browser, site.cookies browser = none)
    (hconfirmable : site.confirmable = []) (es : List (Event (Visit Login)))
    (e : Event (Visit Login))
    (hsends : Guarded (exec (turn ignoreCase isLocalUrl)) Sends (idle site) (es ++ [e]))
    (userId : ℤ)
    (hchange : (run (exec (turn ignoreCase isLocalUrl)) (idle site)
        (es ++ [e])).shared.passwordOf userId
      ≠ (run (exec (turn ignoreCase isLocalUrl)) (idle site) es).shared.passwordOf userId) :
    ∃ i v password, e = .advance i
      ∧ (run (exec (turn ignoreCase isLocalUrl)) (idle site) es).running i = some v
      ∧ Gives ignoreCase v (run (exec (turn ignoreCase isLocalUrl)) (idle site) es).shared userId
          password
      ∧ (run (exec (turn ignoreCase isLocalUrl)) (idle site)
          (es ++ [e])).shared.passwordOf userId = some password
      ∧ ∀ user, v.user = some user → Once (exec (turn ignoreCase isLocalUrl))
          (SignsIn ignoreCase v.browser user) (idle site) es := by
  have hentitled := entitled_run hcookies hconfirmable (Guarded.append hsends).1
  rw [run_append] at hchange ⊢
  -- only a turn of a visit writes the site
  obtain ⟨i, v, he, hi, hshared⟩ := turn_of_changed (fun hsame => hchange (by
    rw [show run _ _ [e] = exec _ _ e from rfl, hsame]))
  rw [show run _ _ [e] = exec _ _ e from rfl, hshared] at hchange ⊢
  rcases passwordOf_call v _ userId with hsame | ⟨password, hgives, hafter⟩
  · exact absurd hsame hchange
  · exact ⟨i, v, password, he, hi, hgives, hafter, (hentitled.visits i v hi).1⟩

/-- `ann` has registered and posts another password. -/
def annPosts : List (Event (Visit ℕ)) :=
  annRegisters ++ [.start 0 ⟨0, some "ann", .managePassword ⟨"secret", "hidden", "hidden"⟩⟩,
    .advance 0, .advance 0]

theorem password_changed_ann :
    ∃ v, Gives lowerCase v (run (exec (turn lowerCase (fun _ => false))) (idle unvisited)
      annPosts).shared 1 "hidden" := by
  obtain ⟨i, v, password, -, -, hgives, hafter, -⟩ := @password_changed _ _ lowerCase
    (fun _ => false) unvisited (fun _ => rfl) rfl annPosts (.advance 0) (by decide +kernel) 1
    (by decide +kernel)
  have hpassword : password = "hidden" := Option.some.inj (hafter.symm.trans (by decide +kernel))
  exact ⟨v, hpassword ▸ hgives⟩

/-! ## Logins -/

/-- A call that gives a login an owner, or takes it away, and on what grounds. -/
inductive Moves (ignoreCase : String → String) (v : Visit Login) (s : Site Login)
    (login : Login) : Option ℤ → Prop
  /-- Somebody who is signed in comes back from the provider with it. -/
  | callback (user returnUrl : String) (userId : ℤ) (huser : v.user = some user)
      (hid : getUserId ignoreCase s.tables user = some userId)
      (haction : v.action = .externalLoginCallbackLink login returnUrl) :
      Moves ignoreCase v s login (some userId)
  /-- Somebody new confirms the name to register under. -/
  | confirmation (userName returnUrl : String) (userId : ℤ)
      (hid : getUserId ignoreCase s.tables userName = some userId)
      (haction : v.action = .externalLoginConfirmationLink login userName returnUrl) :
      Moves ignoreCase v s login (some userId)
  /-- Somebody who keeps another credential removes it. -/
  | disassociate (user : String) (huser : v.user = some user)
      (haction : v.action = .disassociateBody login)
      (hmay : mayDisassociate ignoreCase s.tables user = true) : Moves ignoreCase v s login none

/-- A login that gets an owner is the one the visit is about. -/
theorem Moves.verified {v : Visit Login} {s : Site Login} {login : Login} {owner : Option ℤ}
    (h : Moves ignoreCase v s login owner) (howner : owner ≠ none) : Verified login v.action := by
  cases h with
  | callback user returnUrl userId huser hid haction =>
    rw [haction]
    rfl
  | confirmation userName returnUrl userId hid haction =>
    rw [haction]
    rfl
  | disassociate => exact absurd rfl howner

/-- **One call** leaves the owner of a login, or changes it. -/
theorem lookup_call (v : Visit Login) (s : Site Login) (login : Login)
    (hlink : ∀ login returnUrl, v.action = .externalLoginCallbackLink login returnUrl →
      v.user.isSome = true) :
    (call ignoreCase isLocalUrl v s).2.externalLogins.lookup login = s.externalLogins.lookup login
    ∨ Moves ignoreCase v s login
        ((call ignoreCase isLocalUrl v s).2.externalLogins.lookup login) := by
  have heffect := call_effect ignoreCase isLocalUrl v s
  generalize (call ignoreCase isLocalUrl v s).2 = s' at heffect ⊢
  cases heffect with
  | linked login' userName userId hlinks hid =>
    by_cases hlogin : login = login'
    · subst hlogin
      right
      rw [lookup_set, if_pos rfl]
      -- the two calls that link a login know different things of the user
      obtain ⟨browser, user, action⟩ := v
      cases action with
      | externalLoginCallbackLink login' returnUrl =>
        obtain ⟨rfl, rfl⟩ := Prod.mk.inj (Option.some.inj hlinks)
        obtain ⟨name, rfl⟩ := Option.isSome_iff_exists.mp (hlink login' returnUrl rfl)
        exact .callback name returnUrl userId rfl hid rfl
      | externalLoginConfirmationLink login' userName' returnUrl =>
        obtain ⟨rfl, rfl⟩ := Prod.mk.inj (Option.some.inj hlinks)
        exact .confirmation userName' returnUrl userId hid rfl
      | _ => exact absurd hlinks.symm (Option.some_ne_none _)
    · left
      rw [lookup_set]
      exact if_neg hlogin
  | removed login' haction hsigned hmay =>
    obtain ⟨user, hname⟩ := Option.isSome_iff_exists.mp hsigned
    rw [Visit.userName, hname, Option.getD_some] at hmay
    by_cases hlogin : login = login'
    · subst hlogin
      right
      rw [lookup_remove, if_pos rfl]
      exact .disassociate user hname haction hmay
    · left
      rw [lookup_remove]
      exact if_neg hlogin
  | _ => exact Or.inl rfl

/-- **Logins are linked for whom a provider vouched.** In every run of what browsers can
send, an event that changes the owner of a login links one that its provider has verified,
for somebody signed in as the new owner or for a confirmation under the owner's name, or
removes it for somebody signed in who keeps another credential. -/
theorem owner_changed (hcookies : ∀ browser, site.cookies browser = none)
    (hconfirmable : site.confirmable = []) (es : List (Event (Visit Login)))
    (e : Event (Visit Login))
    (hsends : Guarded (exec (turn ignoreCase isLocalUrl)) Sends (idle site) (es ++ [e]))
    (login : Login)
    (hchange : (run (exec (turn ignoreCase isLocalUrl)) (idle site)
        (es ++ [e])).shared.externalLogins.lookup login
      ≠ (run (exec (turn ignoreCase isLocalUrl)) (idle site) es).shared.externalLogins.lookup
          login) :
    ∃ i v, e = .advance i
      ∧ (run (exec (turn ignoreCase isLocalUrl)) (idle site) es).running i = some v
      ∧ Moves ignoreCase v (run (exec (turn ignoreCase isLocalUrl)) (idle site) es).shared login
          ((run (exec (turn ignoreCase isLocalUrl)) (idle site)
            (es ++ [e])).shared.externalLogins.lookup login)
      ∧ ((run (exec (turn ignoreCase isLocalUrl)) (idle site)
            (es ++ [e])).shared.externalLogins.lookup login ≠ none →
          Once (exec (turn ignoreCase isLocalUrl)) (Verifies login) (idle site) es)
      ∧ ∀ user, v.user = some user → Once (exec (turn ignoreCase isLocalUrl))
          (SignsIn ignoreCase v.browser user) (idle site) es := by
  have hentitled := entitled_run hcookies hconfirmable (Guarded.append hsends).1
  rw [run_append] at hchange ⊢
  obtain ⟨i, v, he, hi, hshared⟩ := turn_of_changed (fun hsame => hchange (by
    rw [show run _ _ [e] = exec _ _ e from rfl, hsame]))
  rw [show run _ _ [e] = exec _ _ e from rfl, hshared] at hchange ⊢
  -- what the invariant tells of the visit that made the call
  obtain ⟨husers, hverified, hlink⟩ := hentitled.visits i v hi
  rcases lookup_call v _ login hlink with hsame | hmoves
  · exact absurd hsame hchange
  · exact ⟨i, v, he, hi, hmoves, fun hsome => hverified login (hmoves.verified hsome), husers⟩

/-- `bob` comes with a login of a provider and confirms his name. -/
def bobConfirms : List (Event (Visit ℕ)) :=
  [.start 0 ⟨0, none, .externalLoginCallback ⟨true, 7, "bob"⟩ ""⟩, .advance 0,
    .start 0 ⟨0, none, .externalLoginConfirmation ⟨"bob", some 7⟩ ""⟩, .advance 0, .advance 0]

theorem owner_changed_bob :
    Once (exec (turn lowerCase (fun _ => false))) (Verifies 7) (idle unvisited) bobConfirms := by
  obtain ⟨i, v, -, -, -, hverified, -⟩ := @owner_changed _ _ lowerCase (fun _ => false) unvisited
    (fun _ => rfl) rfl bobConfirms (.advance 0) (by decide +kernel) 7 (by decide +kernel)
  exact hverified (by decide +kernel)

end History

end CgGuide.Sessions
