/-
`GetAllUsers` against the history of creations and deletions.

A user exists when it was created and not deleted since, as long as every `CreateUser`
whose user the provider has created gets to its end; one that fails to assign the role
throws and leaves the user behind (`exists_iff_stands`). The listing shows the first
page of twenty of the provider's list, so it shows every user exactly while there are
no more than twenty (`listing_iff`).
-/
import CgGuide.MembershipRuns

set_option autoImplicit false

namespace CgGuide.MembershipListing

open CgGuide.DotNet CgGuide.KeyedTable CgGuide.Dictionaries CgGuide.Dictionaries.Dictionary
open CgGuide.Program CgGuide.Runs CgGuide.MembershipProviders CgGuide.FormsMembershipService
open CgGuide.MembershipRuns

variable {ignoreCase : String → String}

/-! ## The listing -/

section Listing

-- `le` is the order in which the provider lists the user names
variable (refusals : Refusals) (le : String → String → Bool)

/-- The users in the order of the provider. -/
def inOrder (p : Providers ignoreCase) : List (String × UserRecord) :=
  p.users.rows.mergeSort (fun a b => le a.1 b.1)

/-- `GetAllUsers` of the provider: a page of the users, and how many there are. -/
def providerGetAllUsers (pageIndex pageSize : ℕ) :
    Calling ignoreCase (List MembershipUser × ℕ) :=
  providerCall refusals fun _ p =>
    .ok (((((inOrder le p).drop (pageIndex * pageSize)).take pageSize).map
      (fun a => ⟨a.1, a.2.email⟩), p.users.rows.length), p)

/-- `GetAllUsers`. -/
def getAllUsers : Calling ignoreCase (List MembershipUser) := do
  let (users, _) ← providerGetAllUsers refusals le 0 20
  return users

/-- The user is in a listing. -/
def Listed (ignoreCase : String → String) (users : List MembershipUser) (u : String) : Prop :=
  ∃ x ∈ users, ignoreCase x.userName = ignoreCase u

variable {refusals le}

theorem getAllUsers_answers {w : World ignoreCase} (hthrows : refusals.throws w.calls = none) :
    outcome (getAllUsers refusals le) w
      = (.ok (((inOrder le w.providers).take 20).map (fun a => ⟨a.1, a.2.email⟩)),
          ⟨w.providers, w.calls + 1⟩) := by
  rw [getAllUsers, providerGetAllUsers, outcome_bind_ok (providerCall_done hthrows rfl),
    Nat.zero_mul, List.drop_zero]
  rfl

theorem getAllUsers_returns {w w' : World ignoreCase} {users : List MembershipUser}
    (hrun : outcome (getAllUsers refusals le) w = (.ok users, w')) :
    users = ((inOrder le w.providers).take 20).map (fun a => ⟨a.1, a.2.email⟩) := by
  cases hthrows : refusals.throws w.calls with
  | some e =>
    rw [getAllUsers, providerGetAllUsers,
      outcome_bind_error (providerCall_refused hthrows)] at hrun
    exact (nomatch hrun)
  | none =>
    rw [getAllUsers_answers hthrows] at hrun
    exact (Except.ok.inj (Prod.mk.inj hrun).1).symm

theorem listed_page (page : List (String × UserRecord)) (u : String) :
    Listed ignoreCase (page.map (fun a => ⟨a.1, a.2.email⟩)) u
      ↔ ∃ a ∈ page, ignoreCase a.1 = ignoreCase u := by
  simp only [Listed, List.mem_map, exists_exists_and_eq_and]

/-- A user exists when the provider has a row of its name. -/
theorem userExists_iff (le : String → String → Bool) (p : Providers ignoreCase) (u : String) :
    UserExists p u ↔ ∃ a ∈ inOrder le p, ignoreCase a.1 = ignoreCase u := by
  unfold UserExists inOrder
  rw [Option.isSome_iff_exists]
  constructor
  · rintro ⟨r, hr⟩
    obtain ⟨a, ha, hu, -⟩ := (lookup_eq_some p.users u r).mp hr
    exact ⟨a, List.mem_mergeSort.mpr ha, hu⟩
  · rintro ⟨a, ha, hu⟩
    exact ⟨a.2, (lookup_eq_some p.users u a.2).mpr ⟨a, List.mem_mergeSort.mp ha, hu, rfl⟩⟩

/-- **A page of twenty shows everyone** exactly while there are no more. -/
theorem lists_existing_iff (le : String → String → Bool) (p : Providers ignoreCase) :
    (∀ u, (∃ a ∈ (inOrder le p).take 20, ignoreCase a.1 = ignoreCase u) ↔ UserExists p u)
      ↔ p.users.rows.length ≤ 20 := by
  have hlength : (inOrder le p).length = p.users.rows.length := List.length_mergeSort _
  constructor
  · intro hall
    by_contra hmore
    have hlt : 20 < (inOrder le p).length := by omega
    -- the first user behind the page is on it only under another user's name
    have hnodup : ((inOrder le p).map (fun a => ignoreCase a.1)).Nodup :=
      ((List.mergeSort_perm p.users.rows _).map _).nodup_iff.mpr p.users.keys_nodup
    have hexists := (userExists_iff le p _).mpr
      ⟨(inOrder le p)[20], List.getElem_mem hlt, rfl⟩
    obtain ⟨a, ha, hsame⟩ := (hall _).mpr hexists
    obtain ⟨i, hi, rfl⟩ := List.mem_take_iff_getElem.mp ha
    have hwide : 20 < ((inOrder le p).map (fun a => ignoreCase a.1)).length := by
      rw [List.length_map]
      exact hlt
    have hplace : i = 20 := by
      refine (@List.Nodup.getElem_inj_iff _ _ hnodup i (by omega) 20 hwide).mp ?_
      rw [List.getElem_map, List.getElem_map]
      exact hsame
    omega
  · intro hfew u
    rw [List.take_of_length_le (by omega), ← userExists_iff]

end Listing

/-! ## What a call does to a user -/

section Calls

variable (refusals : Refusals)

/-- A `CreateUser` for the user that returns `Success`. -/
def Creates (u : String) (w : World ignoreCase) (c : MembershipCall) : Prop :=
  (∃ v password email role, c = .createUser (some v) password email role
    ∧ ignoreCase v = ignoreCase u) ∧ (outcome (c.program refusals) w).1 = .ok true

/-- A `DeleteUser` for the user that returns true. -/
def Deletes (u : String) (w : World ignoreCase) (c : MembershipCall) : Prop :=
  (∃ v, c = .deleteUser (some v) ∧ ignoreCase v = ignoreCase u)
    ∧ (outcome (c.program refusals) w).1 = .ok true

/-- The provider creates the user that a `CreateUser` asks for. -/
def ProviderCreates (w : World ignoreCase) (userName password email : Option String) : Prop :=
  (isNullOrEmpty userName || isNullOrEmpty password || isNullOrEmpty email) = false
    ∧ refusals.throws w.calls = none
    ∧ w.providers.users.lookup (userName.getD "") = none
    ∧ refusals.createStatus w.calls = .success

/-- The role exists, and the role provider throws on no call behind the creation. -/
def RoleAssignable (w : World ignoreCase) (u : String) (role : Option String) : Prop :=
  (∃ r ∈ w.providers.roles, role = some r)
    ∧ refusals.Answers (w.calls + 1) (1 + 2 * (w.providers.rolesFor u).length + 1)

instance (w : World ignoreCase) (userName password email : Option String) :
    Decidable (ProviderCreates refusals w userName password email) :=
  inferInstanceAs (Decidable (_ ∧ _ ∧ _ ∧ _))

instance (w : World ignoreCase) (u : String) (role : Option String) :
    Decidable (RoleAssignable refusals w u role) :=
  inferInstanceAs (Decidable ((∃ r ∈ w.providers.roles, role = some r) ∧ ∀ i < _, _ = none))

/-- A `CreateUser` whose user the provider creates gets to its end. -/
def Completes (w : World ignoreCase) : MembershipCall → Prop
  | .createUser userName password email role =>
    ProviderCreates refusals w userName password email →
      RoleAssignable refusals w (userName.getD "") role
  | _ => True

instance (w : World ignoreCase) : ∀ c, Decidable (Completes refusals w c)
  | .createUser _ _ _ _ => inferInstanceAs (Decidable (_ → _))
  | .updateUser _ _ _ _ _ => inferInstanceAs (Decidable True)
  | .changePassword _ _ _ => inferInstanceAs (Decidable True)
  | .deleteUser _ => inferInstanceAs (Decidable True)

variable {refusals}

/-- **Under that condition, a `CreateUser` that throws has created nobody.** -/
theorem providers_of_throws {w w' : World ignoreCase} {e : Exception}
    {userName password email role : Option String}
    (hc : Completes refusals w (.createUser userName password email role))
    (hrun : outcome (createUser refusals userName password email role) w = (.error e, w')) :
    w'.providers = w.providers := by
  unfold createUser at hrun
  rw [outcome_requireText_bind] at hrun
  split_ifs at hrun with huser
  · rw [← (Prod.mk.inj hrun).2]
  rw [outcome_requireText_bind] at hrun
  split_ifs at hrun with hpassword
  · rw [← (Prod.mk.inj hrun).2]
  rw [outcome_requireText_bind] at hrun
  split_ifs at hrun with hemail
  · rw [← (Prod.mk.inj hrun).2]
  cases hthrows : refusals.throws w.calls with
  | some e' =>
    rw [MembershipProvider.createUser, outcome_bind_error (providerCall_refused hthrows)] at hrun
    rw [← (Prod.mk.inj hrun).2]
  | none =>
    exfalso
    -- the provider answers a status, and nothing that follows throws
    obtain ⟨status, p₁, hcall, hroles, hrolesFor, hsuccess⟩ := provider_createUser_answers hthrows
      (userName.getD "") (password.getD "") (email.getD "")
    rw [outcome_bind_ok hcall] at hrun
    by_cases hstatus : status = .success
    · obtain ⟨⟨r, hr, rfl⟩, hanswers⟩ :=
        hc ⟨by simp [huser, hpassword, hemail], hthrows, hsuccess.mp hstatus⟩
      rw [← hroles] at hr
      rw [← hrolesFor] at hanswers
      obtain ⟨w₂, hset⟩ := setRole_returns (w := ⟨p₁, w.calls + 1⟩) hr hanswers
      rw [if_pos hstatus, ← bind_assoc, outcome_bind, hset] at hrun
      exact (nomatch hrun)
    · rw [if_neg hstatus] at hrun
      exact (nomatch hrun)

/-- The same users exist. -/
def Kept (p p' : Providers ignoreCase) : Prop := ∀ u, UserExists p' u ↔ UserExists p u

theorem kept_of_unchanged {p p' : Providers ignoreCase} (h : Unchanged p p') : Kept p p' := by
  intro u
  rw [UserExists, UserExists, h.lookup]

theorem kept_of_record {p p' : Providers ignoreCase} {v : String} {record : Option UserRecord}
    {roles : List String} (h : ChangedOnly p v record roles p')
    (hrecord : record.isSome = (p.users.lookup v).isSome) : Kept p p' := by
  intro u
  unfold UserExists
  rw [h.lookup]
  by_cases hu : ignoreCase u = ignoreCase v
  · rw [if_pos hu, hrecord, lookup_congr p.users hu]
  · rw [if_neg hu]

/-- A failing call keeps the users, unless it is a `CreateUser` that throws too late. -/
theorem kept_of_refused {c : MembershipCall} {p p' : Providers ignoreCase} (h : c.Refused p p') :
    Kept p p' := by
  cases c with
  | createUser userName password email role => exact kept_of_unchanged h
  | updateUser userName password oldPassword email role => exact kept_of_unchanged h
  | changePassword userName oldPassword newPassword => exact kept_of_unchanged h
  | deleteUser userName =>
    obtain ⟨v, -, h⟩ := h
    exact kept_of_record h rfl

theorem kept_of_thrown {c : MembershipCall} {p p' : Providers ignoreCase} (h : c.Thrown p p')
    (hcreate : ∀ userName password email role,
      c = .createUser userName password email role → p' = p) : Kept p p' := by
  cases c with
  | createUser userName password email role =>
    rw [hcreate userName password email role rfl]
    exact fun _ => Iff.rfl
  | updateUser userName password oldPassword email role =>
    rcases h with h | ⟨v, r, -, hr, h⟩
    · exact kept_of_unchanged h
    · split at h
      · rcases h with ⟨rest, -, h⟩ | ⟨role', -, -, h⟩
        · exact kept_of_record h (by rw [hr])
        · exact kept_of_record h (by rw [hr])
      · obtain ⟨old, pw, -, -, -, h⟩ := h
        exact kept_of_record h (by rw [hr, Option.isSome_some, Option.isSome_some])
  | changePassword userName oldPassword newPassword => exact kept_of_unchanged h
  | deleteUser userName =>
    rcases h with h | ⟨v, -, rest, -, h⟩
    · exact kept_of_unchanged h
    · exact kept_of_record h rfl

/-- A call that reports success, seen from any name. -/
theorem exists_of_done {u : String} {w w' : World ignoreCase} {c : MembershipCall}
    (hrun : outcome (c.program refusals) w = (.ok true, w')) (h : c.Done w.providers w'.providers) :
    UserExists w'.providers u
      ↔ Creates refusals u w c ∨ UserExists w.providers u ∧ ¬ Deletes refusals u w c := by
  have hok : (outcome (c.program refusals) w).1 = .ok true := by rw [hrun]
  unfold Creates Deletes
  cases c with
  | createUser userName password email role =>
    obtain ⟨v, pw, e, r, rfl, -, -, -, -, -, h⟩ := h
    unfold UserExists
    rw [h.lookup]
    by_cases hu : ignoreCase u = ignoreCase v
    · rw [if_pos hu, Option.isSome_some]
      exact iff_of_true rfl (Or.inl ⟨⟨v, password, email, role, rfl, hu.symm⟩, hok⟩)
    · rw [if_neg hu]
      simp [Ne.symm hu]
  | deleteUser userName =>
    obtain ⟨v, rfl, h⟩ := h
    unfold UserExists
    rw [h.lookup]
    by_cases hu : ignoreCase u = ignoreCase v
    · simp [hu, hok]
    · simp [Ne.symm hu, if_neg hu]
  | updateUser userName password oldPassword email role =>
    obtain ⟨v, e, r, -, -, hr, h⟩ := h
    have hkept : Kept w.providers w'.providers := by
      split at h
      · obtain ⟨role', -, -, h⟩ := h
        exact kept_of_record h (by rw [hr, Option.isSome_some, Option.isSome_some])
      · obtain ⟨old, pw, -, -, -, h⟩ := h
        exact kept_of_record h (by rw [hr, Option.isSome_some, Option.isSome_some])
    simpa using hkept u
  | changePassword userName oldPassword newPassword =>
    obtain ⟨v, r, old, pw, -, -, -, hr, -, h⟩ := h
    have hkept := kept_of_record h (by rw [hr, Option.isSome_some, Option.isSome_some])
    simpa using hkept u

/-- **One call**, however it ends: who exists afterwards was created by it, or was there
and was not deleted. -/
theorem exists_after (u : String) (w : World ignoreCase) (c : MembershipCall)
    (hc : Completes refusals w c) :
    UserExists (after refusals w c).providers u
      ↔ Creates refusals u w c ∨ UserExists w.providers u ∧ ¬ Deletes refusals u w c := by
  have hspec := c.program_spec refusals w.providers
  -- a call that does not report success is neither
  have hfailed : (outcome (c.program refusals) w).1 ≠ .ok true →
      Kept w.providers (after refusals w c).providers →
      (UserExists (after refusals w c).providers u
        ↔ Creates refusals u w c ∨ UserExists w.providers u ∧ ¬ Deletes refusals u w c) := by
    intro hfail hkept
    rw [hkept u, Creates, Deletes, and_iff_left (fun h => hfail h.2),
      or_iff_right (fun h => hfail h.2)]
  unfold after at hfailed ⊢
  rcases hrun : outcome (c.program refusals) w with ⟨e | answer, w'⟩
  · rw [hrun] at hfailed
    refine hfailed (by simp) (kept_of_thrown (hspec.of_error rfl hrun) ?_)
    rintro userName password email role rfl
    apply providers_of_throws hc (e := e)
    unfold MembershipCall.program at hrun
    rw [outcome_bind] at hrun
    rcases hcreate : outcome (createUser refusals userName password email role) w
      with ⟨e' | status, w''⟩
    · rw [hcreate] at hrun
      obtain ⟨herror, hstate⟩ := Prod.mk.inj hrun
      rw [Except.error.inj herror, hstate]
    · rw [hcreate] at hrun
      exact (nomatch hrun)
  · rcases hspec.of_ok rfl hrun with ⟨rfl, h⟩ | ⟨rfl, h⟩
    · exact exists_of_done hrun h
    · rw [hrun] at hfailed
      exact hfailed (by simp) (kept_of_refused h)

end Calls

/-! ## Runs -/

variable {refusals : Refusals}

/-- The user was created and not deleted since. -/
def Stands (refusals : Refusals) (start : World ignoreCase) (cs : List MembershipCall)
    (u : String) : Prop :=
  Since (after refusals) (Creates refusals u) (Deletes refusals u) start cs

/-- **Who exists**, from a start without users. -/
theorem exists_iff_stands {start : World ignoreCase}
    (hstart : ∀ u, ¬ UserExists start.providers u) {cs : List MembershipCall}
    (hcs : Guarded (after refusals) (Completes refusals) start cs) (u : String) :
    UserExists (run (after refusals) start cs).providers u ↔ Stands refusals start cs u :=
  iff_since (P := fun w : World ignoreCase => UserExists w.providers u) (hstart u)
    (exists_after u) hcs

/-- **The listing against the history.** After any run in which every `CreateUser` whose
user the provider creates gets to its end, `GetAllUsers` shows exactly the users that
were created and not deleted since, if and only if there are no more than twenty. -/
theorem listing_iff (refusals : Refusals) (le : String → String → Bool)
    {start : World ignoreCase} (hstart : ∀ u, ¬ UserExists start.providers u)
    {cs : List MembershipCall}
    (hcs : Guarded (after refusals) (Completes refusals) start cs)
    {users : List MembershipUser} {w' : World ignoreCase}
    (hlist : outcome (getAllUsers refusals le) (run (after refusals) start cs) = (.ok users, w')) :
    (∀ u, Listed ignoreCase users u ↔ Stands refusals start cs u)
      ↔ (run (after refusals) start cs).providers.users.rows.length ≤ 20 := by
  rw [getAllUsers_returns hlist, ← lists_existing_iff le]
  refine forall_congr' (fun u => ?_)
  rw [listed_page, exists_iff_stands hstart hcs]

/-- A `CreateUser` for an administrator. -/
def createAdmin (userName : String) : MembershipCall :=
  .createUser (some userName) (some "secret") (some "mail@example.com") (some "Admin")

/-- The provider lists the users by name. -/
def byName (a b : String) : Bool := decide (a ≤ b)

/-- Two users are created, and the first one is deleted. -/
def bobRemains : List MembershipCall :=
  [createAdmin "ann", createAdmin "bob", .deleteUser (some "ann")]

theorem listing_of_bob :
    (∀ u, Listed id [⟨"bob", some "mail@example.com"⟩] u
      ↔ Stands Refusals.never (noUsers ["Admin"]) bobRemains u)
    ∧ Stands Refusals.never (noUsers ["Admin"]) bobRemains "bob" := by
  have hlist : ∃ w', outcome (getAllUsers Refusals.never byName)
      (run (after Refusals.never) (noUsers ["Admin"]) bobRemains)
        = (.ok [⟨"bob", some "mail@example.com"⟩], w') := by
    rw [getAllUsers_answers rfl, inOrder,
      show (run (after Refusals.never) (noUsers ["Admin"]) bobRemains).providers.users.rows
        = [("bob", ⟨"secret", some "mail@example.com"⟩)] by decide, List.mergeSort_singleton]
    exact ⟨_, rfl⟩
  obtain ⟨w', hlist⟩ := hlist
  have hall := (listing_iff Refusals.never byName (noUsers_empty ["Admin"]) (by decide) hlist).mpr
    (by decide)
  exact ⟨hall, (hall "bob").mp ⟨_, List.mem_singleton_self _, rfl⟩⟩

/-- Twenty-one users are created. -/
def twentyOne : List MembershipCall :=
  (List.range 21).map (fun n => createAdmin (String.ofList (List.replicate (n + 1) 'a')))

/-- One of twenty-one users is missing. -/
theorem twentyOne_not_listed :
    ∃ users, (outcome (getAllUsers Refusals.never byName)
        (run (after Refusals.never) (noUsers ["Admin"]) twentyOne)).1 = .ok users
      ∧ ¬ ∀ u, Listed id users u ↔ Stands Refusals.never (noUsers ["Admin"]) twentyOne u := by
  refine ⟨_, congrArg Prod.fst (getAllUsers_answers rfl), fun hall => ?_⟩
  have hcompletes : Guarded (after Refusals.never) (Completes Refusals.never)
      (noUsers ["Admin"]) twentyOne := by decide +kernel
  have hfew := (lists_existing_iff byName
    (run (after Refusals.never) (noUsers ["Admin"]) twentyOne).providers).mp (by
      intro u
      rw [← listed_page, hall]
      exact (exists_iff_stands (noUsers_empty ["Admin"]) hcompletes u).symm)
  exact absurd hfew (by decide +kernel)

end CgGuide.MembershipListing
