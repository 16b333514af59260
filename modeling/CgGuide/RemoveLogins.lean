/-
The "Remove" buttons of the account page.

`RemoveExternalLogins` lists the logins of whoever is signed in and decides whether to
show the buttons; a button posts its login to `Disassociate`, which asks again. The two
agree on how many credentials there are (`showRemoveButton_eq`). They do not agree on
whose login it is: the list finds the user ignoring case, the post compares the stored
name with the name in the cookie letter by letter.
-/
import CgGuide.Sessions
import Mathlib.Data.List.Nodup

set_option autoImplicit false

namespace CgGuide.RemoveLogins

open CgGuide.KeyedTable CgGuide.Dictionaries CgGuide.Dictionaries.Dictionary
open CgGuide.Runs CgGuide.Interleaving CgGuide.Interleaving.Pool
open CgGuide.Account (UserProfile findProfile getUserId getUserName hasLocalAccount
  getAccountsFromUserName mayDisassociate lowerCase oneUser)
open CgGuide.SignIns

variable {Login : Type} [DecidableEq Login]
variable (ignoreCase : String → String) (isLocalUrl : String → Bool)

/-! ## The list and its buttons -/

/-- `ExternalLogin`; the provider and its id for the user are the login. -/
structure ExternalLogin (Login : Type) where
  login : Login
  providerDisplayName : String

/-- `RemoveExternalLogins`: the logins, and `ViewBag.ShowRemoveButton`. It throws on a login
of a provider that is not registered. -/
def removeExternalLogins (displayName : Login → Option String) (s : Site Login) (user : String) :
    Option (List (ExternalLogin Login) × Bool) :=
  ((getAccountsFromUserName ignoreCase s.tables user).mapM (fun login =>
    (displayName login).map (fun name => (⟨login, name⟩ : ExternalLogin Login)))).map
      (fun externalLogins => (externalLogins, decide (1 < externalLogins.length)
        || hasLocalAccount s.tables (getUserId ignoreCase s.tables user)))

/-- The button of a login is pressed, and the request is answered before the next one. -/
def press (browser : ℕ) (user : String) (s : Site Login) (login : Login) : Site Login :=
  (run (exec (turn ignoreCase isLocalUrl)) (idle s)
    [.start 0 ⟨browser, some user, .disassociate login⟩, .advance 0, .advance 0]).shared

variable {ignoreCase isLocalUrl}

omit [DecidableEq Login] in
/-- What is listed are the logins of the user, in their order. -/
theorem logins_of_mapM {displayName : Login → Option String} {logins : List Login} :
    ∀ {externalLogins : List (ExternalLogin Login)},
      logins.mapM (fun login =>
        (displayName login).map (fun name => (⟨login, name⟩ : ExternalLogin Login)))
          = some externalLogins →
        externalLogins.map ExternalLogin.login = logins := by
  induction logins with
  | nil =>
    intro externalLogins h
    rw [← Option.some.inj h]
    rfl
  | cons login logins ih =>
    intro externalLogins h
    rw [List.mapM_cons] at h
    obtain ⟨first, hfirst, hbind⟩ := Option.bind_eq_some_iff.mp h
    obtain ⟨rest, hrest, hsome⟩ := Option.bind_eq_some_iff.mp hbind
    obtain ⟨name, -, rfl⟩ := Option.map_eq_some_iff.mp hfirst
    rw [← Option.some.inj hsome, List.map_cons, ih hrest]

/-- **The buttons are shown exactly where the test of `Disassociate` passes.** -/
theorem showRemoveButton_eq {displayName : Login → Option String} {s : Site Login}
    {user : String} {externalLogins : List (ExternalLogin Login)} {showRemoveButton : Bool}
    (h : removeExternalLogins ignoreCase displayName s user
      = some (externalLogins, showRemoveButton)) :
    externalLogins.map ExternalLogin.login = getAccountsFromUserName ignoreCase s.tables user
    ∧ showRemoveButton = mayDisassociate ignoreCase s.tables user := by
  obtain ⟨logins, hlogins, hpair⟩ := Option.map_eq_some_iff.mp h
  obtain ⟨rfl, rfl⟩ := Prod.mk.inj hpair
  have hlisted := logins_of_mapM hlogins
  refine ⟨hlisted, ?_⟩
  rw [mayDisassociate, ← hlisted, List.length_map, Bool.or_comm]

/-- What a press does. -/
theorem press_eq (browser : ℕ) (user : String) (s : Site Login) (login : Login) :
    press ignoreCase isLocalUrl browser user s login
      = if getUserName s.tables login = some user
          ∧ mayDisassociate ignoreCase s.tables user = true
        then { s with externalLogins := s.externalLogins.remove login } else s := by
  unfold press
  rw [run_cons, run_cons, exec_idle_start, exec_alone_advance]
  -- the owner is looked up in one call, and the credentials counted in the next
  by_cases howner : getUserName s.tables login = some user
  · have hturn : turn ignoreCase isLocalUrl ⟨browser, some user, .disassociate login⟩ s
        = (some ⟨browser, some user, .disassociateBody login⟩, s) := by
      simp [turn, call, act, howner]
    rw [hturn, run_cons, exec_alone_advance]
    by_cases hmay : mayDisassociate ignoreCase s.tables user = true
    · rw [if_pos ⟨howner, hmay⟩]
      simp [turn, call, act, hmay, run, alone]
    · rw [if_neg (fun h => hmay h.2)]
      simp [turn, call, act, hmay, run, alone]
  · have hturn : turn ignoreCase isLocalUrl ⟨browser, some user, .disassociate login⟩ s
        = (none, s) := by
      simp [turn, call, act, howner]
    rw [hturn, run_cons, exec_alone_done, if_neg (fun h => howner h.1)]
    rfl

/-! ## One press after the other -/

/-- The logins that are left when these buttons have been pressed, where the page shows
`listed` and the user has a local password or not: without one the last login stays. -/
def left (hasLocalPassword : Bool) (listed pressed : List Login) : List Login :=
  listed.filter (fun login => decide (login ∉
    if hasLocalPassword then pressed else pressed.take (listed.length - 1)))

theorem left_nil (hasLocalPassword : Bool) (listed : List Login) :
    left hasLocalPassword listed [] = listed := by
  simp [left]

/-- The only credential stays, whatever is pressed. -/
theorem left_of_last {listed : List Login} (h : listed.length ≤ 1) (pressed : List Login) :
    left false listed pressed = listed := by
  have hzero : listed.length - 1 = 0 := by omega
  simp [left, hzero]

/-- A press that is allowed takes its login away, and the page shows the rest. -/
theorem left_cons {hasLocalPassword : Bool} {listed : List Login} (hnodup : listed.Nodup)
    {login : Login} (hlogin : login ∈ listed)
    (hmay : hasLocalPassword = true ∨ 1 < listed.length) (pressed : List Login) :
    left hasLocalPassword listed (login :: pressed)
      = left hasLocalPassword (listed.filter (fun other => decide (other ≠ login))) pressed := by
  have hlength : (listed.filter (fun other => decide (other ≠ login))).length
      = listed.length - 1 := by
    have herase : listed.filter (fun other => decide (other ≠ login)) = listed.erase login := by
      rw [hnodup.erase_eq_filter]
      refine List.filter_congr (fun other _ => ?_)
      by_cases hother : other = login
      · simp [hother]
      · simp [hother]
    rw [herase, List.length_erase_of_mem hlogin]
  unfold left
  rw [List.filter_filter, hlength]
  refine List.filter_congr (fun other _ => ?_)
  cases hasLocalPassword with
  | true => simp [not_or, Bool.and_comm]
  | false =>
    have hlt : 1 < listed.length := hmay.resolve_left Bool.false_ne_true
    -- one button less to press, and one login less to press it on
    have htake : listed.length - 1 = (listed.length - 1 - 1) + 1 := by omega
    rw [htake, List.take_succ_cons, Nat.add_sub_cancel]
    simp [not_or, Bool.and_comm]

/-! ### The tables under a press -/

section Tables

variable {s : Site Login} {user : String} {u : UserProfile}

/-- The logins of a user that is found. -/
theorem listed_eq (hu : findProfile ignoreCase s.tables user = some u) :
    getAccountsFromUserName ignoreCase s.tables user
      = (s.externalLogins.rows.filter (fun e => decide (e.2 = u.userId))).map Prod.fst := by
  rw [getAccountsFromUserName, getUserId, hu]
  rfl

theorem listed_nodup (hu : findProfile ignoreCase s.tables user = some u) :
    (getAccountsFromUserName ignoreCase s.tables user).Nodup := by
  rw [listed_eq hu]
  exact (List.Sublist.map _ List.filter_sublist).nodup s.externalLogins.keys_nodup

/-- A listed login has the stored name. -/
theorem getUserName_of_listed (hu : findProfile ignoreCase s.tables user = some u) {login : Login}
    (hlogin : login ∈ getAccountsFromUserName ignoreCase s.tables user) :
    getUserName s.tables login = some u.userName := by
  rw [listed_eq hu] at hlogin
  obtain ⟨e, he, rfl⟩ := List.mem_map.mp hlogin
  obtain ⟨hrow, howner⟩ := List.mem_filter.mp he
  have hlookup : s.tables.externalLogins.lookup e.1 = some u.userId :=
    (lookup_eq_some _ _ _).mpr ⟨e, hrow, rfl, of_decide_eq_true howner⟩
  have hfind : s.tables.userProfiles.find? u.userId = some u :=
    (s.tables.userProfiles.find?_eq_some u.userId u).mpr ⟨List.mem_of_find?_eq_some hu, rfl⟩
  rw [getUserName, hlookup, Option.bind_some, hfind, Option.map_some]

/-- Removing a login removes it from the list. -/
theorem listed_remove (hu : findProfile ignoreCase s.tables user = some u) (login : Login) :
    getAccountsFromUserName ignoreCase
        ({ s with externalLogins := s.externalLogins.remove login } : Site Login).tables user
      = (getAccountsFromUserName ignoreCase s.tables user).filter
          (fun other => decide (other ≠ login)) := by
  have hu' : findProfile ignoreCase
      ({ s with externalLogins := s.externalLogins.remove login } : Site Login).tables user
        = some u := hu
  rw [listed_eq hu, listed_eq hu', List.filter_map]
  have hrows : (s.externalLogins.remove login).rows
      = s.externalLogins.rows.filter (fun e => decide (e.1 ≠ login)) := rfl
  rw [hrows, List.filter_filter, List.filter_filter]
  refine congrArg _ (List.filter_congr (fun e _ => ?_))
  rw [Bool.and_comm]
  rfl

end Tables

/-- The logins that are left after these presses: under the stored name any but the last
credential can be removed, and under another spelling of it none. -/
theorem accounts_after_presses {user : String} {u : UserProfile} (browser : ℕ)
    {pressed : List Login} (hnodup : pressed.Nodup) {s : Site Login}
    (hu : findProfile ignoreCase s.tables user = some u)
    (hlisted : ∀ login ∈ pressed, login ∈ getAccountsFromUserName ignoreCase s.tables user) :
    getAccountsFromUserName ignoreCase
        (run (press ignoreCase isLocalUrl browser user) s pressed).tables user
      = if u.userName = user then
          left (hasLocalAccount s.tables (some u.userId))
            (getAccountsFromUserName ignoreCase s.tables user) pressed
        else getAccountsFromUserName ignoreCase s.tables user := by
  induction pressed generalizing s with
  | nil =>
    rw [left_nil, ite_self]
    rfl
  | cons login pressed ih =>
    obtain ⟨hnew, hrest⟩ := List.nodup_cons.mp hnodup
    have hlogin := hlisted login List.mem_cons_self
    have hmay : mayDisassociate ignoreCase s.tables user = true
        ↔ hasLocalAccount s.tables (some u.userId) = true
          ∨ 1 < (getAccountsFromUserName ignoreCase s.tables user).length := by
      rw [mayDisassociate, Bool.or_eq_true, decide_eq_true_iff, getUserId, hu, Option.map_some]
    have hpress : press ignoreCase isLocalUrl browser user s login
        = if u.userName = user ∧ mayDisassociate ignoreCase s.tables user = true
          then { s with externalLogins := s.externalLogins.remove login } else s := by
      rw [press_eq]
      simp only [getUserName_of_listed hu hlogin, Option.some.injEq]
    rw [run_cons, hpress]
    -- a press that is not allowed leaves the site, and so do all after it
    by_cases hallowed : u.userName = user ∧ mayDisassociate ignoreCase s.tables user = true
    · rw [if_pos hallowed, if_pos hallowed.1]
      have hleft := ih hrest (s := { s with externalLogins := s.externalLogins.remove login }) hu ?_
      · rw [if_pos hallowed.1] at hleft
        rw [hleft, listed_remove hu,
          left_cons (listed_nodup hu) hlogin (hmay.mp hallowed.2) pressed]
        rfl
      · intro other hother
        rw [listed_remove hu]
        refine List.mem_filter.mpr ⟨hlisted other (List.mem_cons_of_mem _ hother), ?_⟩
        exact decide_eq_true (fun h => hnew (h ▸ hother))
    · rw [if_neg hallowed, ih hrest hu (fun other hother =>
        hlisted other (List.mem_cons_of_mem _ hother))]
      by_cases hname : u.userName = user
      · -- the last credential: no press does anything
        have hlast := fun h => hallowed ⟨hname, hmay.mpr h⟩
        rw [imp_false, not_or, Bool.not_eq_true] at hlast
        rw [hlast.1, left_of_last (by omega), left_of_last (by omega)]
      · rw [if_neg hname, if_neg hname]

/-- **Presses.** Whoever is signed in under the stored name removes the logins of the page
in any order, down to the last credential; under another spelling of it, none. The page
then lists what is left, with buttons if one more can be removed. -/
theorem listed_after_presses {user : String} {u : UserProfile} (browser : ℕ)
    {pressed : List Login} (hnodup : pressed.Nodup) {s : Site Login}
    (hu : findProfile ignoreCase s.tables user = some u)
    (hlisted : ∀ login ∈ pressed, login ∈ getAccountsFromUserName ignoreCase s.tables user) :
    getAccountsFromUserName ignoreCase
        (run (press ignoreCase isLocalUrl browser user) s pressed).tables user
      = (if u.userName = user then
          left (hasLocalAccount s.tables (some u.userId))
            (getAccountsFromUserName ignoreCase s.tables user) pressed
        else getAccountsFromUserName ignoreCase s.tables user)
    ∧ ∀ displayName externalLogins showRemoveButton,
        removeExternalLogins ignoreCase displayName
            (run (press ignoreCase isLocalUrl browser user) s pressed) user
          = some (externalLogins, showRemoveButton) →
        externalLogins.map ExternalLogin.login
            = (if u.userName = user then
                left (hasLocalAccount s.tables (some u.userId))
                  (getAccountsFromUserName ignoreCase s.tables user) pressed
              else getAccountsFromUserName ignoreCase s.tables user)
          ∧ showRemoveButton = mayDisassociate ignoreCase
              (run (press ignoreCase isLocalUrl browser user) s pressed).tables user := by
  have haccounts := @accounts_after_presses _ _ _ isLocalUrl _ _ browser _ hnodup _ hu hlisted
  refine ⟨haccounts, fun displayName externalLogins showRemoveButton hpage => ?_⟩
  obtain ⟨hlogins, hbutton⟩ := showRemoveButton_eq hpage
  exact ⟨hlogins.trans haccounts, hbutton⟩

/-- `ann`, who has two logins and no password, presses both buttons. -/
theorem listed_ann :
    getAccountsFromUserName lowerCase (run (press lowerCase (fun _ => false) 0 "ann")
        (⟨(oneUser "ann" [] empty).userProfiles, [], ⟨[(7, 1), (8, 1)], by decide⟩,
          fun _ => none, []⟩ : Site ℕ) [8, 7]).tables "ann" = [7] := by
  rw [(@listed_after_presses _ _ lowerCase (fun _ => false) "ann" ⟨1, "ann"⟩ 0 [8, 7] (by decide)
    ⟨(oneUser "ann" [] empty).userProfiles, [], ⟨[(7, 1), (8, 1)], by decide⟩, fun _ => none, []⟩
    (by decide +kernel) (by decide +kernel)).1]
  decide +kernel

end CgGuide.RemoveLogins
