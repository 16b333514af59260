/-
User names that differ in more than their case.

Nothing in the `UserProfile` table makes a name unique: the class declares an
identity key and a plain column. What stands between two confirmations of one name
is the query each makes before it inserts, and the query and the insert are two
calls. `TestedApart` keeps a confirmation from asking for a name while another one
has been told that it is free and has not inserted it yet; on runs that respect it
the names stay distinct.
-/
import CgGuide.Account

set_option autoImplicit false

namespace CgGuide.UserNames

open CgGuide.KeyedTable CgGuide.Dictionaries CgGuide.Account
open CgGuide.Runs CgGuide.Interleaving CgGuide.Interleaving.Pool

variable {Login : Type} [DecidableEq Login] {ignoreCase : String → String}

/-! ## Names in the table -/

/-- No two profiles have one name, ignoring case. -/
def NamesDistinct (ignoreCase : String → String) (s : AccountStore Login) : Prop :=
  (s.userProfiles.rows.map (fun u => ignoreCase u.userName)).Nodup

instance (s : AccountStore Login) : Decidable (NamesDistinct ignoreCase s) :=
  inferInstanceAs (Decidable (List.Nodup _))

/-- The existence query finds nothing when no profile has the name. -/
theorem findProfile_eq_none (s : AccountStore Login) (userName : String) :
    findProfile ignoreCase s userName = none
      ↔ ∀ u ∈ s.userProfiles.rows, ignoreCase u.userName ≠ ignoreCase userName := by
  rw [findProfile, List.find?_eq_none]
  refine forall₂_congr (fun u _ => ?_)
  rw [decide_eq_true_iff]

/-- Inserting a free name keeps the names distinct. -/
theorem namesDistinct_insertProfile {s : AccountStore Login} {userName : String}
    (h : NamesDistinct ignoreCase s) (hfree : findProfile ignoreCase s userName = none) :
    NamesDistinct ignoreCase (insertProfile s userName) := by
  have hrows : (insertProfile s userName).userProfiles.rows
      = s.userProfiles.rows ++ [⟨s.userProfiles.next, userName⟩] := rfl
  rw [NamesDistinct, hrows, List.map_append, List.map_singleton, List.nodup_append]
  refine ⟨h, List.nodup_singleton _, ?_⟩
  intro name hname name' hname' heq
  obtain ⟨u, hu, rfl⟩ := List.mem_map.mp hname
  rw [List.mem_singleton] at hname'
  exact (findProfile_eq_none s userName).mp hfree u hu (heq.trans hname')

/-- Another name stays free. -/
theorem findProfile_insertProfile_of_ne {s : AccountStore Login} {userName userName' : String}
    (hfree : findProfile ignoreCase s userName' = none)
    (hne : ignoreCase userName ≠ ignoreCase userName') :
    findProfile ignoreCase (insertProfile s userName) userName' = none := by
  rw [findProfile_eq_none] at hfree ⊢
  intro u hu
  rcases (mem_insertProfile s userName u).mp hu with hold | rfl
  · exact hfree u hold
  · exact hne

/-! ## The invariant -/

/-- A request somewhere in `ExternalLoginConfirmation`. -/
def Confirms : Request Login → Prop
  | .externalLoginConfirmation _ _ => True
  | .externalLoginConfirmationInsert _ _ => True
  | .externalLoginConfirmationLink _ _ => True
  | .externalLoginConfirmationLogin _ => True
  | _ => False

/-- A confirmation that was told its name is free, and has not inserted it yet. -/
def Waits (pool : Pool (AccountStore Login) (Request Login)) (i : ℕ) (userName : String) : Prop :=
  ∃ login, pool.running i = some (.externalLoginConfirmationInsert login userName)

/-- Only confirmations start, and none asks for a name that another one waits to
insert. -/
def TestedApart (ignoreCase : String → String)
    (pool : Pool (AccountStore Login) (Request Login)) : Event (Request Login) → Prop
  | .start _ p => ∃ login userName, p = .externalLoginConfirmation login userName
  | .stop _ => True
  | .advance i => ∀ login userName,
      pool.running i = some (.externalLoginConfirmation login userName) →
      ∀ j userName', Waits pool j userName' → ignoreCase userName' ≠ ignoreCase userName

/-- The names in the table and the names about to be inserted are all distinct. -/
structure Distinct (ignoreCase : String → String)
    (pool : Pool (AccountStore Login) (Request Login)) : Prop where
  names : NamesDistinct ignoreCase pool.shared
  confirms : ∀ i p, pool.running i = some p → Confirms p
  free : ∀ i userName, Waits pool i userName → findProfile ignoreCase pool.shared userName = none
  apart : ∀ i j userName userName', i ≠ j → Waits pool i userName → Waits pool j userName' →
    ignoreCase userName ≠ ignoreCase userName'

/-- What leaves the profiles alone and lets nobody new wait keeps the invariant. -/
theorem Distinct.of_same_profiles {pool pool' : Pool (AccountStore Login) (Request Login)}
    (h : Distinct ignoreCase pool)
    (hprofiles : pool'.shared.userProfiles = pool.shared.userProfiles)
    (hconfirms : ∀ i p, pool'.running i = some p → Confirms p)
    (hwaits : ∀ i userName, Waits pool' i userName → Waits pool i userName) :
    Distinct ignoreCase pool' where
  names := by
    unfold NamesDistinct
    rw [hprofiles]
    exact h.names
  confirms := hconfirms
  free := by
    intro i userName hi
    rw [findProfile, hprofiles]
    exact h.free i userName (hwaits i userName hi)
  apart := by
    intro i j userName userName' hij hi hj
    exact h.apart i j userName userName' hij (hwaits i userName hi) (hwaits j userName' hj)

/-! ## One turn -/

/-- Who waits after a turn of another slot waited before it. -/
theorem waits_of_advance {pool : Pool (AccountStore Login) (Request Login)} {i j : ℕ}
    {userName : String} (hji : j ≠ i)
    (h : Waits (exec (turn ignoreCase) pool (.advance i)) j userName) : Waits pool j userName := by
  unfold Waits at h ⊢
  rw [running_exec_advance hji] at h
  exact h

/-- A confirmation stays one. -/
theorem confirms_turn {p p' : Request Login} {s : AccountStore Login} (hp : Confirms p)
    (h : (turn ignoreCase p s).1 = some p') : Confirms p' := by
  cases p with
  | externalLoginConfirmation login userName =>
    simp only [turn] at h
    split at h
    · exact absurd h.symm (Option.some_ne_none p')
    · rw [← Option.some.inj h]
      trivial
  | externalLoginConfirmationInsert login userName =>
    rw [← Option.some.inj h]
    trivial
  | externalLoginConfirmationLink login userName =>
    simp only [turn] at h
    split at h
    · exact absurd h.symm (Option.some_ne_none p')
    · rw [← Option.some.inj h]
      trivial
  | externalLoginConfirmationLogin login => exact absurd h.symm (Option.some_ne_none p')
  | _ => exact absurd hp id

/-- Only the query makes a confirmation wait, and it does so for a free name. -/
theorem query_of_waits {p : Request Login} {s : AccountStore Login} {login : Login}
    {userName : String} (hp : Confirms p)
    (h : (turn ignoreCase p s).1 = some (.externalLoginConfirmationInsert login userName)) :
    p = .externalLoginConfirmation login userName ∧ findProfile ignoreCase s userName = none := by
  cases p with
  | externalLoginConfirmation login' userName' =>
    cases hfind : findProfile ignoreCase s userName' with
    | some u =>
      simp only [turn, hfind] at h
      exact absurd h.symm (Option.some_ne_none _)
    | none =>
      simp only [turn, hfind] at h
      obtain ⟨rfl, rfl⟩ := Request.externalLoginConfirmationInsert.inj (Option.some.inj h)
      exact ⟨rfl, hfind⟩
  | externalLoginConfirmationInsert login' userName' =>
    simp [turn] at h
  | externalLoginConfirmationLink login' userName' =>
    simp only [turn] at h
    split at h
    · exact absurd h.symm (Option.some_ne_none _)
    · simp at h
  | externalLoginConfirmationLogin login' => exact absurd h.symm (Option.some_ne_none _)
  | _ => exact absurd hp id

/-- Only the insert of a confirmation writes a profile. -/
theorem profiles_turn (ignoreCase : String → String) {p : Request Login} (s : AccountStore Login)
    (hp : Confirms p)
    (hinsert : ∀ login userName, p ≠ .externalLoginConfirmationInsert login userName) :
    (turn ignoreCase p s).2.userProfiles = s.userProfiles := by
  have heffect := turn_effect ignoreCase p s
  generalize (turn ignoreCase p s).2 = s' at heffect ⊢
  cases heffect with
  | unchanged => rfl
  | register => exact absurd hp id
  | createAccount => exact absurd hp id
  | insert login userName => exact absurd rfl (hinsert login userName)
  | link => rfl
  | delete => rfl

/-- What the slot that took its turn is at. -/
theorem running_advance_self {pool : Pool (AccountStore Login) (Request Login)} {i : ℕ}
    {p : Request Login} (hi : pool.running i = some p) :
    (exec (turn ignoreCase) pool (.advance i)).running i = (turn ignoreCase p pool.shared).1 := by
  rw [exec_advance hi]
  exact Function.update_self i _ _

/-- A name that a turn makes its slot wait for was free, and nobody else waits for it. -/
theorem free_of_waits_advance {pool : Pool (AccountStore Login) (Request Login)} {i : ℕ}
    {p : Request Login} (hp : Confirms p) (hi : pool.running i = some p)
    (hapart : TestedApart ignoreCase pool (.advance i)) {userName : String}
    (h : Waits (exec (turn ignoreCase) pool (.advance i)) i userName) :
    findProfile ignoreCase pool.shared userName = none
      ∧ ∀ j userName', Waits pool j userName' → ignoreCase userName' ≠ ignoreCase userName := by
  obtain ⟨login, hwaits⟩ := h
  rw [running_advance_self hi] at hwaits
  obtain ⟨rfl, hfree⟩ := query_of_waits hp hwaits
  exact ⟨hfree, hapart login userName hi⟩

/-- The names that are waited for stay different. -/
theorem apart_advance {pool : Pool (AccountStore Login) (Request Login)} {i : ℕ}
    {p : Request Login} (h : Distinct ignoreCase pool) (hi : pool.running i = some p)
    (hapart : TestedApart ignoreCase pool (.advance i)) (j k : ℕ) (userName userName' : String)
    (hjk : j ≠ k) (hj : Waits (exec (turn ignoreCase) pool (.advance i)) j userName)
    (hk : Waits (exec (turn ignoreCase) pool (.advance i)) k userName') :
    ignoreCase userName ≠ ignoreCase userName' := by
  have hp : Confirms p := h.confirms i p hi
  by_cases hji : j = i
  · subst hji
    exact ((free_of_waits_advance hp hi hapart hj).2 k userName'
      (waits_of_advance hjk.symm hk)).symm
  · have hj' := waits_of_advance hji hj
    by_cases hki : k = i
    · subst hki
      exact (free_of_waits_advance hp hi hapart hk).2 j userName hj'
    · exact h.apart j k userName userName' hjk hj' (waits_of_advance hki hk)

/-- A turn of a confirmation keeps the invariant. -/
theorem distinct_advance {pool : Pool (AccountStore Login) (Request Login)} {i : ℕ}
    {p : Request Login} (h : Distinct ignoreCase pool) (hi : pool.running i = some p)
    (hapart : TestedApart ignoreCase pool (.advance i)) :
    Distinct ignoreCase (exec (turn ignoreCase) pool (.advance i)) := by
  have hp : Confirms p := h.confirms i p hi
  have hshared : (exec (turn ignoreCase) pool (.advance i)).shared
      = (turn ignoreCase p pool.shared).2 := by
    rw [exec_advance hi]
  have hself : (exec (turn ignoreCase) pool (.advance i)).running i
      = (turn ignoreCase p pool.shared).1 := running_advance_self hi
  have hconfirms : ∀ j q, (exec (turn ignoreCase) pool (.advance i)).running j = some q →
      Confirms q := by
    intro j q hj
    by_cases hji : j = i
    · rw [hji, hself] at hj
      exact confirms_turn hp hj
    · rw [running_exec_advance hji] at hj
      exact h.confirms j q hj
  have hpairs := apart_advance h hi hapart
  by_cases hinsert : ∃ login userName, p = .externalLoginConfirmationInsert login userName
  · -- the waiting name goes into the table, which frees no name and takes one
    obtain ⟨login, userName, rfl⟩ := hinsert
    have hfree := h.free i userName ⟨login, hi⟩
    have hstore : (exec (turn ignoreCase) pool (.advance i)).shared
        = insertProfile pool.shared userName := hshared
    refine ⟨?_, hconfirms, ?_, hpairs⟩
    · rw [hstore]
      exact namesDistinct_insertProfile h.names hfree
    · intro j userName' hj
      have hji : j ≠ i := by
        rintro rfl
        obtain ⟨login', hj⟩ := hj
        rw [hself] at hj
        exact (nomatch Option.some.inj hj)
      have hj' := waits_of_advance hji hj
      rw [hstore]
      exact findProfile_insertProfile_of_ne (h.free j userName' hj')
        (h.apart i j userName userName' hji.symm ⟨login, hi⟩ hj')
  · -- no other call writes a profile
    have hprofiles := profiles_turn ignoreCase pool.shared hp
      (fun login userName hp' => hinsert ⟨login, userName, hp'⟩)
    refine ⟨?_, hconfirms, ?_, hpairs⟩
    · rw [hshared, NamesDistinct, hprofiles]
      exact h.names
    · intro j userName hj
      rw [hshared, findProfile, hprofiles]
      by_cases hji : j = i
      · subst hji
        exact (free_of_waits_advance hp hi hapart hj).1
      · exact h.free j userName (waits_of_advance hji hj)

/-! ## Runs -/

/-- **One event that keeps the tests apart** keeps the invariant. -/
theorem distinct_exec (pool : Pool (AccountStore Login) (Request Login)) (e : Event (Request Login))
    (h : Distinct ignoreCase pool) (hapart : TestedApart ignoreCase pool e) :
    Distinct ignoreCase (exec (turn ignoreCase) pool e) := by
  cases e with
  | start i p =>
    obtain ⟨login, userName, rfl⟩ := hapart
    cases hi : pool.running i with
    | some q =>
      rw [exec_start_taken hi]
      exact h
    | none =>
      rw [exec_start_free hi]
      refine h.of_same_profiles rfl ?_ ?_
      · intro j q hj
        rcases update_eq_some hj with ⟨-, hq⟩ | ⟨-, hq⟩
        · rw [← Option.some.inj hq]
          trivial
        · exact h.confirms j q hq
      · rintro j userName' ⟨login', hj⟩
        rcases update_eq_some hj with ⟨-, hq⟩ | ⟨-, hq⟩
        · exact (nomatch Option.some.inj hq)
        · exact ⟨login', hq⟩
  | stop i =>
    have hrest : ∀ j q, (exec (turn ignoreCase) pool (.stop i)).running j = some q →
        pool.running j = some q := by
      intro j q hj
      rcases update_eq_some hj with ⟨-, hq⟩ | ⟨-, hq⟩
      · exact absurd hq.symm (Option.some_ne_none q)
      · exact hq
    refine h.of_same_profiles rfl ?_ ?_
    · intro j q hj
      exact h.confirms j q (hrest j q hj)
    · rintro j userName ⟨login, hj⟩
      exact ⟨login, hrest j _ hj⟩
  | advance i =>
    cases hi : pool.running i with
    | none =>
      rw [exec_advance_none hi]
      exact h
    | some p => exact distinct_advance h hi hapart

/-- **Names in every run of confirmations whose tests are apart.** From tables in
which the names are distinct, ignoring case, they are distinct in every state the
run reaches. -/
theorem namesDistinct_run (ignoreCase : String → String) (store : AccountStore Login)
    (hstart : NamesDistinct ignoreCase store) (es : List (Event (Request Login)))
    (hapart : Guarded (exec (turn ignoreCase)) (TestedApart ignoreCase) (idle store) es)
    (pre : List (Event (Request Login))) (hpre : pre <+: es) :
    NamesDistinct ignoreCase (run (exec (turn ignoreCase)) (idle store) pre).shared := by
  have hidle : Distinct ignoreCase (idle store) := by
    refine ⟨hstart, ?_, ?_, ?_⟩
    · intro i p hi
      exact absurd hi.symm (Option.some_ne_none p)
    · rintro i userName ⟨login, hi⟩
      exact absurd hi.symm (Option.some_ne_none _)
    · rintro i j userName userName' - ⟨login, hi⟩
      exact absurd hi.symm (Option.some_ne_none _)
  exact (invariant_reached distinct_exec hidle hapart hpre).names

/-- Two confirmations whose names differ in their case only, the second after the
first: the query of the second finds the name. -/
theorem namesDistinct_in_turn :
    NamesDistinct lowerCase (run (exec (turn lowerCase)) (idle (oneUser "ann" [1] Dictionary.empty))
      [.start 0 (.externalLoginConfirmation 7 "bob"), .advance 0, .advance 0,
        .start 1 (.externalLoginConfirmation 8 "Bob"), .advance 1]).shared := by
  have hnone : ∀ {pool : Pool (AccountStore ℕ) (Request ℕ)} (i : ℕ),
      (∀ j login userName,
        pool.running j ≠ some (.externalLoginConfirmationInsert login userName)) →
      TestedApart lowerCase pool (.advance i) := by
    rintro pool i hwaits login userName - j userName' ⟨login', hj⟩
    exact absurd hj (hwaits j login' userName')
  refine namesDistinct_run lowerCase _ (by decide)
    [.start 0 (.externalLoginConfirmation 7 "bob"), .advance 0, .advance 0,
      .start 1 (.externalLoginConfirmation 8 "Bob"), .advance 1]
    ⟨⟨7, "bob", rfl⟩, ?_, ?_, ⟨8, "Bob", rfl⟩, ?_, trivial⟩ _ (List.prefix_refl _)
  · refine hnone 0 ?_
    rintro (_ | j) login userName hj
    · exact (nomatch Option.some.inj hj)
    · exact (nomatch hj)
  · intro login userName hi
    have hinsert : some (Request.externalLoginConfirmationInsert 7 "bob")
        = some (.externalLoginConfirmation login userName) := hi
    exact (nomatch Option.some.inj hinsert)
  · refine hnone 1 ?_
    rintro (_ | _ | j) login userName hj
    · have hlink : some (Request.externalLoginConfirmationLink 7 "bob")
          = some (.externalLoginConfirmationInsert login userName) := hj
      exact (nomatch Option.some.inj hlink)
    · exact (nomatch Option.some.inj hj)
    · exact (nomatch hj)

/-- Two confirmations of one name that both ask before either inserts. -/
theorem both_insert_one_name :
    ¬ ∀ (store : AccountStore ℕ), NamesDistinct lowerCase store →
      ∀ es : List (Event (Request ℕ)),
        (∀ i p, Event.start i p ∈ es →
          ∃ login userName, p = .externalLoginConfirmation login userName) →
        NamesDistinct lowerCase (run (exec (turn lowerCase)) (idle store) es).shared := by
  intro h
  have hbob := h (oneUser "ann" [1] Dictionary.empty) (by decide)
    [.start 0 (.externalLoginConfirmation 7 "bob"), .start 1 (.externalLoginConfirmation 8 "Bob"),
      .advance 0, .advance 1, .advance 0, .advance 1]
    (by
      intro i p hp
      simp only [List.mem_cons, Event.start.injEq, reduceCtorEq, List.not_mem_nil, or_false] at hp
      rcases hp with ⟨-, rfl⟩ | ⟨-, rfl⟩
      · exact ⟨7, "bob", rfl⟩
      · exact ⟨8, "Bob", rfl⟩)
  exact absurd hbob (by decide)

end CgGuide.UserNames
