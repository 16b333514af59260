/-
Every user keeps a way to log in.

`Disassociate` counts the user's credentials in the transaction that deletes one, so
it never deletes the last one of the user it counted. What the controller does
not guard is the rest: a confirmation writes the profile and its login in two calls,
and a login changes its owner without anybody counting what the old owner has left.
`Sound` names the events where one of these goes wrong; on runs without them every
profile has a credential whenever no request is in progress.
-/
import CgGuide.Account

set_option autoImplicit false

namespace CgGuide.LoginCredentials

open CgGuide.KeyedTable CgGuide.Dictionaries CgGuide.Dictionaries.Dictionary
open CgGuide.Runs CgGuide.Interleaving CgGuide.Interleaving.Pool CgGuide.Account

variable {Login : Type} [DecidableEq Login] {ignoreCase : String → String}

/-! ## Credentials -/

/-- A local account, or an external login. -/
def HasCredential (s : AccountStore Login) (userId : ℤ) : Prop :=
  userId ∈ s.localAccounts ∨ ∃ login, s.externalLogins.lookup login = some userId

/-- A credential apart from one external login. -/
def HasOther (s : AccountStore Login) (login : Login) (userId : ℤ) : Prop :=
  userId ∈ s.localAccounts
    ∨ ∃ login', login' ≠ login ∧ s.externalLogins.lookup login' = some userId

/-- A credential is apart from the login, or is the login. -/
theorem HasCredential.other_or_owner {s : AccountStore Login} {userId : ℤ}
    (h : HasCredential s userId) (login : Login) :
    HasOther s login userId ∨ s.externalLogins.lookup login = some userId := by
  rcases h with hlocal | ⟨login', hlookup⟩
  · exact Or.inl (Or.inl hlocal)
  · by_cases hlogin : login' = login
    · right
      rw [← hlogin, hlookup]
    · exact Or.inl (Or.inr ⟨login', hlogin, hlookup⟩)

/-- What is done to one login does not touch a credential apart from it. -/
theorem HasOther.hasCredential {s s' : AccountStore Login} {login : Login} {userId : ℤ}
    (h : HasOther s login userId) (hlocal : s'.localAccounts = s.localAccounts)
    (hother : ∀ login', login' ≠ login →
      s'.externalLogins.lookup login' = s.externalLogins.lookup login') :
    HasCredential s' userId := by
  rcases h with hl | ⟨login', hne, hlookup⟩
  · left
    rw [hlocal]
    exact hl
  · exact Or.inr ⟨login', (hother login' hne).trans hlookup⟩

/-- **The test of `Disassociate` is the right one**: when it passes, the user has
another credential than any login of theirs. -/
theorem hasOther_of_mayDisassociate {s : AccountStore Login} {user : String} {userId : ℤ}
    (huser : getUserId ignoreCase s user = some userId)
    (hmay : mayDisassociate ignoreCase s user = true) (login : Login) :
    HasOther s login userId := by
  rw [mayDisassociate, Bool.or_eq_true, huser] at hmay
  rcases hmay with hlocal | hcount
  · exact Or.inl (of_decide_eq_true hlocal)
  · right
    by_contra hnone
    -- then all of the user's logins are this one
    have hrows : ∀ e ∈ s.externalLogins.rows.filter (fun e => decide (e.2 = userId)),
        e.1 = login := by
      intro e he
      obtain ⟨hmem, hid⟩ := List.mem_filter.mp he
      by_contra hne
      exact hnone ⟨e.1, hne, (lookup_eq_some _ _ _).mpr ⟨e, hmem, rfl, of_decide_eq_true hid⟩⟩
    have hlogins : getAccountsFromUserName ignoreCase s user
        = (s.externalLogins.rows.filter (fun e => decide (e.2 = userId))).map Prod.fst := by
      rw [getAccountsFromUserName, huser]
    have hnodup : (getAccountsFromUserName ignoreCase s user).Nodup := by
      rw [hlogins]
      exact (List.Sublist.map _ List.filter_sublist).nodup s.externalLogins.keys_nodup
    have hsame : getAccountsFromUserName ignoreCase s user
        = List.replicate (getAccountsFromUserName ignoreCase s user).length login := by
      rw [List.eq_replicate_iff]
      refine ⟨rfl, fun x hx => ?_⟩
      rw [hlogins] at hx
      obtain ⟨e, he, rfl⟩ := List.mem_map.mp hx
      exact hrows e he
    have hle : (getAccountsFromUserName ignoreCase s user).length ≤ 1 := by
      rw [hsame] at hnodup
      exact List.nodup_replicate.mp hnodup
    have hlt := of_decide_eq_true hcount
    omega

/-! ## The events that go wrong -/

/-- What an event must not do: stop a confirmation whose profile has no login yet,
insert a name that is taken, or take a user's only credential in the name of
another user. -/
def Sound (ignoreCase : String → String) (pool : Pool (AccountStore Login) (Request Login)) :
    Event (Request Login) → Prop
  | .start _ p => p.Initial
  | .stop i => ∀ login userName,
      pool.running i ≠ some (.externalLoginConfirmationLink login userName)
  | .advance i => ∀ p, pool.running i = some p →
      (∀ login userName, p = .externalLoginConfirmationInsert login userName →
        getUserId ignoreCase pool.shared userName = none)
      ∧ (∀ login userName userId owner, p.links = some (login, userName) →
          getUserId ignoreCase pool.shared userName = some userId →
          pool.shared.externalLogins.lookup login = some owner → owner ≠ userId →
          HasOther pool.shared login owner)
      ∧ ∀ user login owner, p = .disassociateBody user login →
          mayDisassociate ignoreCase pool.shared user = true →
          pool.shared.externalLogins.lookup login = some owner →
          getUserId ignoreCase pool.shared user ≠ some owner → HasOther pool.shared login owner

/-- A sound call takes nobody's last credential. -/
theorem hasCredential_turn {pool : Pool (AccountStore Login) (Request Login)} {i : ℕ}
    {p : Request Login} (hp : pool.running i = some p) (hsound : Sound ignoreCase pool (.advance i))
    {userId : ℤ} (h : HasCredential pool.shared userId) :
    HasCredential (turn ignoreCase p pool.shared).2 userId := by
  obtain ⟨-, hlink, hdelete⟩ := hsound p hp
  have heffect := turn_effect ignoreCase p pool.shared
  generalize (turn ignoreCase p pool.shared).2 = s' at heffect ⊢
  generalize pool.shared = s at *
  cases heffect with
  | unchanged => exact h
  | register userName =>
    rcases h with hlocal | hlogin
    · exact Or.inl (List.mem_cons_of_mem _ hlocal)
    · exact Or.inr hlogin
  | createAccount user _ newId =>
    rcases h with hlocal | hlogin
    · exact Or.inl (List.mem_cons_of_mem _ hlocal)
    · exact Or.inr hlogin
  | insert login userName => exact h
  | link _ login userName _ newId hlinks huser =>
    have hrest : ∀ login', login' ≠ login →
        (s.externalLogins.set login newId).lookup login' = s.externalLogins.lookup login' := by
      intro login' hne
      rw [lookup_link, if_neg hne]
    rcases h.other_or_owner login with hother | howner
    · exact hother.hasCredential rfl hrest
    · by_cases hid : userId = newId
      · exact Or.inr ⟨login, by rw [lookup_link, if_pos rfl, hid]⟩
      · -- the login changes hands: its old owner has another credential, by the guard
        have hother := hlink login userName newId userId hlinks huser howner hid
        exact hother.hasCredential rfl hrest
  | delete user login _ hmay =>
    have hrest : ∀ login', login' ≠ login →
        (deleteAccount s login).externalLogins.lookup login' = s.externalLogins.lookup login' := by
      intro login' hne
      rw [lookup_deleteAccount, if_neg hne]
    rcases h.other_or_owner login with hother | howner
    · exact hother.hasCredential rfl hrest
    · -- the count was the owner's own, or the guard speaks for another owner
      have hother : HasOther s login userId := by
        by_cases hid : getUserId ignoreCase s user = some userId
        · exact hasOther_of_mayDisassociate hid hmay login
        · exact hdelete user login userId rfl hmay howner hid
      exact hother.hasCredential rfl hrest

/-! ## The invariant -/

/-- Some confirmation is about to give this user a login. -/
def Pending (ignoreCase : String → String) (pool : Pool (AccountStore Login) (Request Login))
    (userId : ℤ) : Prop :=
  ∃ i login userName, pool.running i = some (.externalLoginConfirmationLink login userName)
    ∧ getUserId ignoreCase pool.shared userName = some userId

/-- Every profile has a credential or is about to get one. -/
def Covered (ignoreCase : String → String) (pool : Pool (AccountStore Login) (Request Login)) :
    Prop :=
  ∀ u ∈ pool.shared.userProfiles.rows,
    HasCredential pool.shared u.userId ∨ Pending ignoreCase pool u.userId

/-- A profile that a sound call brings has a local account, or its confirmation
goes on to the login. -/
theorem turn_new_profile {p : Request Login} {s : AccountStore Login}
    (hinsert : ∀ login userName, p = .externalLoginConfirmationInsert login userName →
      getUserId ignoreCase s userName = none) {u : UserProfile}
    (hu : u ∈ (turn ignoreCase p s).2.userProfiles.rows) (hnew : u ∉ s.userProfiles.rows) :
    HasCredential (turn ignoreCase p s).2 u.userId
      ∨ ∃ login userName,
          (turn ignoreCase p s).1 = some (.externalLoginConfirmationLink login userName)
          ∧ getUserId ignoreCase (turn ignoreCase p s).2 userName = some u.userId := by
  have heffect := turn_effect ignoreCase p s
  generalize hs' : (turn ignoreCase p s).2 = s' at heffect hu ⊢
  cases heffect with
  | unchanged => exact absurd hu hnew
  | register userName =>
    rcases (mem_insertProfile s userName u).mp hu with hold | rfl
    · exact absurd hold hnew
    · exact Or.inl (Or.inl List.mem_cons_self)
  | createAccount => exact absurd hu hnew
  | insert login userName =>
    rcases (mem_insertProfile s userName u).mp hu with hold | rfl
    · exact absurd hold hnew
    · have hfree := hinsert login userName rfl
      exact Or.inr ⟨login, userName, rfl, getUserId_insertProfile_self s hfree⟩
  | link => exact absurd hu hnew
  | delete => exact absurd hu hnew

/-- A confirmation that gives its login leaves the user with it. -/
theorem hasCredential_of_link {s : AccountStore Login} {login : Login} {userName : String}
    {userId : ℤ} (huser : getUserId ignoreCase s userName = some userId) :
    HasCredential (turn ignoreCase (.externalLoginConfirmationLink login userName) s).2 userId := by
  simp only [turn, createOrUpdateAccount, huser]
  exact Or.inr ⟨login, by rw [lookup_link, if_pos rfl]⟩

/-- **One sound event** keeps every profile covered. -/
theorem covered_exec (pool : Pool (AccountStore Login) (Request Login)) (e : Event (Request Login))
    (h : Covered ignoreCase pool) (hsound : Sound ignoreCase pool e) :
    Covered ignoreCase (exec (turn ignoreCase) pool e) := by
  cases e with
  | start i p =>
    unfold Covered
    rw [shared_exec_start]
    intro u hu
    rcases h u hu with hcred | ⟨j, login, userName, hj, hid⟩
    · exact Or.inl hcred
    · refine Or.inr ⟨j, login, userName, running_exec_start p hj, ?_⟩
      rw [shared_exec_start]
      exact hid
  | stop i =>
    intro u hu
    rcases h u hu with hcred | ⟨j, login, userName, hj, hid⟩
    · exact Or.inl hcred
    · -- the confirmation that owes this user a login is not the one that stops
      have hne : j ≠ i := by
        rintro rfl
        exact hsound login userName hj
      refine Or.inr ⟨j, login, userName, ?_, hid⟩
      rw [running_exec_stop hne, hj]
  | advance i =>
    cases hi : pool.running i with
    | none =>
      rw [exec_advance_none hi]
      exact h
    | some p =>
      have hprofiles := (turn_effect ignoreCase p pool.shared).profiles
      have hshared : (exec (turn ignoreCase) pool (.advance i)).shared
          = (turn ignoreCase p pool.shared).2 := by
        rw [exec_advance hi]
      have hrest : (exec (turn ignoreCase) pool (.advance i)).running i
          = (turn ignoreCase p pool.shared).1 := by
        rw [exec_advance hi]
        exact Function.update_self i _ _
      unfold Covered Pending
      rw [hshared]
      intro u hu
      by_cases hold : u ∈ pool.shared.userProfiles.rows
      · rcases h u hold with hcred | ⟨j, login, userName, hj, hid⟩
        · exact Or.inl (hasCredential_turn hi hsound hcred)
        · by_cases hji : j = i
          · -- the confirmation that owes this user a login has the turn
            rw [hji, hi, Option.some.injEq] at hj
            rw [hj]
            exact Or.inl (hasCredential_of_link hid)
          · refine Or.inr ⟨j, login, userName, ?_, hprofiles.1 _ _ hid⟩
            rw [running_exec_advance hji, hj]
      · rcases turn_new_profile (hsound p hi).1 hu hold with hcred | ⟨login, userName, hnext, hid⟩
        · exact Or.inl hcred
        · exact Or.inr ⟨i, login, userName, by rw [hrest, hnext], hid⟩

/-- **Credentials in every sound run.** From tables in which every profile has a
credential, in every state a sound run reaches while no request is in progress,
every profile has one. -/
theorem hasCredential_run (ignoreCase : String → String) (store : AccountStore Login)
    (hstart : ∀ u ∈ store.userProfiles.rows, HasCredential store u.userId)
    (es : List (Event (Request Login)))
    (hsound : Guarded (exec (turn ignoreCase)) (Sound ignoreCase) (idle store) es)
    (pre : List (Event (Request Login))) (hpre : pre <+: es)
    (hquiet : (run (exec (turn ignoreCase)) (idle store) pre).Quiet) :
    ∀ u ∈ (run (exec (turn ignoreCase)) (idle store) pre).shared.userProfiles.rows,
      HasCredential (run (exec (turn ignoreCase)) (idle store) pre).shared u.userId := by
  have hcovered : Covered ignoreCase (run (exec (turn ignoreCase)) (idle store) pre) :=
    invariant_reached covered_exec (fun u hu => Or.inl (hstart u hu)) hsound hpre
  intro u hu
  rcases hcovered u hu with hcred | ⟨i, login, userName, hi, -⟩
  · exact hcred
  · rw [hquiet i] at hi
    exact absurd hi.symm (Option.some_ne_none _)

/-- A user with two external logins who removes one of them. -/
theorem hasCredential_after_disassociate :
    HasCredential (run (exec (turn lowerCase))
      (idle (oneUser "ann" [] ⟨[(7, 1), (8, 1)], by decide⟩))
      [.start 0 (.disassociate "ann" 7), .advance 0, .advance 0]).shared 1 := by
  have hstart : ∀ u ∈ (oneUser "ann" [] ⟨[(7, 1), (8, 1)], by decide⟩).userProfiles.rows,
      HasCredential (oneUser "ann" [] ⟨[(7, 1), (8, 1)], by decide⟩) u.userId := by
    intro u hu
    rw [List.mem_singleton.mp hu]
    exact Or.inr ⟨7, rfl⟩
  refine hasCredential_run lowerCase _ hstart
    [.start 0 (.disassociate "ann" 7), .advance 0, .advance 0] ⟨trivial, ?_, ?_, trivial⟩ _
    (List.prefix_refl _) ?_ ⟨1, "ann"⟩ (by decide)
  · intro p hp
    rw [← Option.some.inj hp]
    exact ⟨fun _ _ h => (nomatch h), fun _ _ _ _ h => (nomatch h), fun _ _ _ h => (nomatch h)⟩
  · intro p hp
    rw [← Option.some.inj (show some (Request.disassociateBody "ann" 7) = some p from hp)]
    refine ⟨fun _ _ h => (nomatch h), fun _ _ _ _ h => (nomatch h), ?_⟩
    rintro user login owner h - howner huser
    obtain ⟨rfl, rfl⟩ := Request.disassociateBody.inj h
    have hone : 1 = owner := Option.some.inj howner
    rw [← hone] at huser
    exact absurd (by decide) huser
  · rintro (_ | i)
    · rfl
    · rfl

/-- A confirmation that stops between the profile and its login leaves a user
without any. -/
theorem stopped_confirmation_leaves_none :
    ¬ ∀ (store : AccountStore ℕ), (∀ u ∈ store.userProfiles.rows, HasCredential store u.userId) →
      ∀ es : List (Event (Request ℕ)),
        Guarded (exec (turn lowerCase)) StartsInitial (idle store) es →
        (run (exec (turn lowerCase)) (idle store) es).Quiet →
        ∀ u ∈ (run (exec (turn lowerCase)) (idle store) es).shared.userProfiles.rows,
          HasCredential (run (exec (turn lowerCase)) (idle store) es).shared u.userId := by
  intro h
  have hann := h ⟨IdentityTable.empty, [], empty⟩ (fun u hu => absurd hu List.not_mem_nil)
    [.start 0 (.externalLoginConfirmation 7 "ann"), .advance 0, .advance 0, .stop 0]
    ⟨trivial, trivial, trivial, trivial, trivial⟩
    (by
      rintro (_ | i)
      · rfl
      · rfl)
    ⟨1, "ann"⟩ (by decide)
  rcases hann with hlocal | ⟨login, hlookup⟩
  · exact absurd hlocal List.not_mem_nil
  · exact absurd hlookup.symm (Option.some_ne_none _)

end CgGuide.LoginCredentials
