/-
Whose login `Disassociate` removes.

The request asks for the owner of the login in one call and deletes the login in
another, without asking again. In between, only one thing can give the login
another owner: a `CreateOrUpdateAccount` of the same login for another user.
`KeepsOwner` forbids that while a tested `Disassociate` waits, and on runs that
respect it every removed login is one of the user who asked.
-/
import CgGuide.Account

set_option autoImplicit false

namespace CgGuide.LoginOwners

open CgGuide.KeyedTable CgGuide.Dictionaries CgGuide.Dictionaries.Dictionary
open CgGuide.Runs CgGuide.Interleaving CgGuide.Interleaving.Pool CgGuide.Account

variable {Login : Type} [DecidableEq Login] {ignoreCase : String → String}

/-! ## What a call does to the owner of a login -/

/-- A login keeps its owner, loses it to a `Disassociate` of that login, or gets
the user of a `CreateOrUpdateAccount`. -/
theorem lookup_turn (ignoreCase : String → String) (p : Request Login) (s : AccountStore Login)
    (login : Login) :
    (turn ignoreCase p s).2.externalLogins.lookup login = s.externalLogins.lookup login
    ∨ (∃ user, p = .disassociateBody user login)
        ∧ (turn ignoreCase p s).2.externalLogins.lookup login = none
    ∨ ∃ userName userId, p.links = some (login, userName)
        ∧ getUserId ignoreCase s userName = some userId
        ∧ (turn ignoreCase p s).2.externalLogins.lookup login = some userId := by
  have heffect := turn_effect ignoreCase p s
  generalize (turn ignoreCase p s).2 = s' at heffect ⊢
  cases heffect with
  | unchanged => exact Or.inl rfl
  | register => exact Or.inl rfl
  | createAccount => exact Or.inl rfl
  | insert => exact Or.inl rfl
  | link _ login' userName _ userId hlinks huser =>
    by_cases hlogin : login = login'
    · subst hlogin
      exact Or.inr (Or.inr ⟨userName, userId, hlinks, huser, by rw [lookup_link, if_pos rfl]⟩)
    · left
      rw [lookup_link, if_neg hlogin]
  | delete user login' _ hmay =>
    by_cases hlogin : login = login'
    · subst hlogin
      exact Or.inr (Or.inl ⟨⟨user, rfl⟩, by rw [lookup_deleteAccount, if_pos rfl]⟩)
    · left
      rw [lookup_deleteAccount, if_neg hlogin]

/-- Whose login it is does not change while the owner's id does not. -/
theorem getUserName_turn {p : Request Login} {s : AccountStore Login} {login : Login}
    {user : String}
    (hsame : (turn ignoreCase p s).2.externalLogins.lookup login = s.externalLogins.lookup login)
    (h : getUserName s login = some user) :
    getUserName (turn ignoreCase p s).2 login = some user := by
  unfold getUserName at h ⊢
  rw [hsame]
  obtain ⟨userId, hlookup, hname⟩ := Option.bind_eq_some_iff.mp h
  obtain ⟨u, hu, rfl⟩ := Option.map_eq_some_iff.mp hname
  have hstays := (turn_effect ignoreCase p s).profiles.2 userId u hu
  rw [hlookup, Option.bind_some, hstays, Option.map_some]

/-! ## The invariant -/

/-- A `Disassociate` that has passed its test waits for a login of its user, or for
one that is gone. -/
def Tested (s : AccountStore Login) : Request Login → Prop
  | .disassociateBody user login =>
    s.externalLogins.lookup login = none ∨ getUserName s login = some user
  | _ => True

/-- No `CreateOrUpdateAccount` gives a login that a tested `Disassociate` waits for
to somebody else. -/
def KeepsOwner (ignoreCase : String → String)
    (pool : Pool (AccountStore Login) (Request Login)) : Event (Request Login) → Prop
  | .start _ p => p.Initial
  | .stop _ => True
  | .advance i => ∀ p login userName userId, pool.running i = some p →
      -- the call is a `CreateOrUpdateAccount` that will find its user
      p.links = some (login, userName) → getUserId ignoreCase pool.shared userName = some userId →
      ∀ j user, pool.running j = some (.disassociateBody user login) →
        (pool.shared.userProfiles.find? userId).map UserProfile.userName = some user

/-- Every `Disassociate` that waits for its body is tested. -/
def AllTested (pool : Pool (AccountStore Login) (Request Login)) : Prop :=
  ∀ i p, pool.running i = some p → Tested pool.shared p

theorem tested_of_initial (s : AccountStore Login) {p : Request Login} (h : p.Initial) :
    Tested s p := by
  cases p with
  | disassociateBody user login => exact absurd h (by simp [Request.Initial])
  | _ => trivial

/-- The request that moves: only the ownership test brings a `Disassociate` to its
body, and it leaves the tables as they are. -/
theorem tested_turn (p p' : Request Login) (s : AccountStore Login)
    (h : (turn ignoreCase p s).1 = some p') : Tested (turn ignoreCase p s).2 p' := by
  cases p' with
  | disassociateBody user login =>
    cases p with
    | disassociate user' login' =>
      simp only [turn] at h ⊢
      split_ifs at h with howner
      obtain ⟨rfl, rfl⟩ := Request.disassociateBody.inj (Option.some.inj h)
      exact Or.inr howner
    | register userName =>
      simp only [turn] at h
      split at h <;> simp at h
    | manageHasLocalAccount user' userId =>
      simp only [turn] at h
      split at h <;> simp at h
    | externalLoginCallback user' login' =>
      simp only [turn] at h
      split at h <;> simp at h
    | externalLoginConfirmation login' userName =>
      simp only [turn] at h
      split at h <;> simp at h
    | externalLoginConfirmationLink login' userName =>
      simp only [turn] at h
      split at h <;> simp at h
    | _ => simp [turn] at h
  | _ => trivial

/-- **One event that keeps owners** keeps every waiting `Disassociate` tested. -/
theorem allTested_exec (pool : Pool (AccountStore Login) (Request Login))
    (e : Event (Request Login)) (h : AllTested pool) (hkeeps : KeepsOwner ignoreCase pool e) :
    AllTested (exec (turn ignoreCase) pool e) := by
  apply forall_running_exec h
  · rintro i p rfl
    exact tested_of_initial _ hkeeps
  · intro i p p' _ _ hp'
    exact tested_turn p p' pool.shared hp'
  · rintro i p j q rfl hi - hj
    cases q with
    | disassociateBody user login =>
      have htested : pool.shared.externalLogins.lookup login = none
          ∨ getUserName pool.shared login = some user := h j _ hj
      rcases lookup_turn ignoreCase p pool.shared login with
        hsame | ⟨-, hgone⟩ | ⟨userName, userId, hlinks, huser, hnew⟩
      · rcases htested with hnone | howner
        · exact Or.inl (hsame.trans hnone)
        · exact Or.inr (getUserName_turn hsame howner)
      · exact Or.inl hgone
      · -- the login is linked again, by the guard to the same user
        right
        have hname := hkeeps p login userName userId hi hlinks huser j user hj
        obtain ⟨u, hu, rfl⟩ := Option.map_eq_some_iff.mp hname
        have hstays := (turn_effect ignoreCase p pool.shared).profiles.2 userId u hu
        show getUserName (turn ignoreCase p pool.shared).2 login = some u.userName
        rw [getUserName, hnew, Option.bind_some, hstays, Option.map_some]
    | _ => trivial

/-- **Removed logins in every run that keeps owners.** Whatever tables the run
starts from, when one of its events removes a login, the event is the body of a
`Disassociate` of that login, and the login's owner is its user. -/
theorem removed_by_owner (ignoreCase : String → String) (store : AccountStore Login)
    (es : List (Event (Request Login))) (e : Event (Request Login))
    (hkeeps : Guarded (exec (turn ignoreCase)) (KeepsOwner ignoreCase) (idle store) (es ++ [e]))
    (login : Login) (owner : ℤ)
    (hbefore : (run (exec (turn ignoreCase)) (idle store) es).shared.externalLogins.lookup login
      = some owner)
    (hafter : (run (exec (turn ignoreCase)) (idle store)
      (es ++ [e])).shared.externalLogins.lookup login = none) :
    ∃ i user, e = .advance i
      ∧ (run (exec (turn ignoreCase)) (idle store) es).running i
          = some (.disassociateBody user login)
      ∧ getUserName (run (exec (turn ignoreCase)) (idle store) es).shared login = some user := by
  obtain ⟨hes, -⟩ := Guarded.append hkeeps
  have htested : AllTested (run (exec (turn ignoreCase)) (idle store) es) :=
    invariant_run allTested_exec (fun _ p hp => absurd hp.symm (Option.some_ne_none p)) hes
  rw [run_append] at hafter
  generalize run (exec (turn ignoreCase)) (idle store) es = pool at *
  have hlast : run (exec (turn ignoreCase)) pool [e] = exec (turn ignoreCase) pool e := rfl
  rw [hlast] at hafter
  cases e with
  | start i p =>
    rw [shared_exec_start, hbefore] at hafter
    exact absurd hafter (Option.some_ne_none owner)
  | stop i =>
    have hsame : (exec (turn ignoreCase) pool (.stop i)).shared = pool.shared := rfl
    rw [hsame, hbefore] at hafter
    exact absurd hafter (Option.some_ne_none owner)
  | advance i =>
    cases hi : pool.running i with
    | none =>
      rw [exec_advance_none hi, hbefore] at hafter
      exact absurd hafter (Option.some_ne_none owner)
    | some p =>
      rw [exec_advance hi] at hafter
      rcases lookup_turn ignoreCase p pool.shared login with
        hsame | ⟨⟨user, rfl⟩, -⟩ | ⟨_, userId, -, -, hnew⟩
      · exact absurd (hsame.symm.trans hafter) (by rw [hbefore]; exact Option.some_ne_none owner)
      · refine ⟨i, user, rfl, hi, ?_⟩
        rcases htested i _ hi with hnone | howner
        · rw [hbefore] at hnone
          exact absurd hnone (Option.some_ne_none owner)
        · exact howner
      · exact absurd (hnew.symm.trans hafter) (Option.some_ne_none userId)

/-- A user with two external logins who removes one of them. -/
theorem removed_by_ann :
    getUserName (run (exec (turn lowerCase)) (idle (oneUser "ann" [] ⟨[(7, 1), (8, 1)], by decide⟩))
      [.start 0 (.disassociate "ann" 7), .advance 0]).shared 7 = some "ann" := by
  have hkeeps : Guarded (exec (turn lowerCase)) (KeepsOwner lowerCase)
      (idle (oneUser "ann" [] ⟨[(7, 1), (8, 1)], by decide⟩))
      ([.start 0 (.disassociate "ann" 7), .advance 0] ++ [.advance 0]) := by
    refine ⟨trivial, ?_, ?_, trivial⟩
    · intro p login userName userId hp hlinks
      rw [← Option.some.inj hp] at hlinks
      exact (nomatch hlinks)
    · intro p login userName userId hp hlinks
      have hbody : some (Request.disassociateBody "ann" 7) = some p := hp
      rw [← Option.some.inj hbody] at hlinks
      exact (nomatch hlinks)
  obtain ⟨i, user, he, hi, howner⟩ := removed_by_owner lowerCase _
    [.start 0 (.disassociate "ann" 7), .advance 0] (.advance 0) hkeeps 7 1 (by decide) (by decide)
  rw [Event.advance.inj he.symm] at hi
  have hbody : some (Request.disassociateBody "ann" 7) = some (.disassociateBody user 7) := hi
  obtain ⟨rfl, -⟩ := Request.disassociateBody.inj (Option.some.inj hbody)
  exact howner

/-- Both users come back from the provider with login 7 while it has no owner. The
first one's callback gives it to `ann`, who then asks to remove it; the second one's
gives it to `bob` after `ann` was found to be its owner. -/
def linkedInBetween : List (Event (Request ℕ)) :=
  [.start 0 (.externalLoginCallback (some "bob") 7), .advance 0,
    .start 1 (.externalLoginCallback (some "ann") 7), .advance 1, .advance 1,
    .start 2 (.disassociate "ann" 7), .advance 2,
    .advance 0]

/-- `ann`'s request then removes `bob`'s login. -/
theorem linkedInBetween_removes_other :
    ¬ ∀ (store : AccountStore ℕ) (es : List (Event (Request ℕ))) (e : Event (Request ℕ)),
      Guarded (exec (turn lowerCase)) StartsInitial (idle store) (es ++ [e]) →
      ∀ login owner,
        (run (exec (turn lowerCase)) (idle store) es).shared.externalLogins.lookup login
          = some owner →
        (run (exec (turn lowerCase)) (idle store) (es ++ [e])).shared.externalLogins.lookup login
          = none →
        ∃ i user, e = .advance i
          ∧ (run (exec (turn lowerCase)) (idle store) es).running i
              = some (.disassociateBody user login)
          ∧ getUserName (run (exec (turn lowerCase)) (idle store) es).shared login
              = some user := by
  intro h
  obtain ⟨i, user, he, hi, howner⟩ :=
    h (insertProfile (oneUser "ann" [1] empty) "bob") linkedInBetween (.advance 2)
      ⟨trivial, trivial, trivial, trivial, trivial, trivial, trivial, trivial, trivial, trivial⟩
      7 2 (by decide) (by decide)
  rw [Event.advance.inj he.symm] at hi
  have hbody : some (Request.disassociateBody "ann" 7) = some (.disassociateBody user 7) := hi
  obtain ⟨rfl, -⟩ := Request.disassociateBody.inj (Option.some.inj hbody)
  exact absurd howner (by decide)

end CgGuide.LoginOwners
