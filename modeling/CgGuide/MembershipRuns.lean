/-
One role for each user, in every run of `FormsMembershipService`.

A call on one user touches nobody else. On its own user, a call that reports success
leaves a user with one role, or no user and no roles, or the roles as they were;
`Step` says so of every name, and it is all that a run needs. The calls of a run may
fail, as long as they then leave the providers as they were.
-/
import CgGuide.FormsMembershipService
import CgGuide.Runs

set_option autoImplicit false

namespace CgGuide.MembershipRuns

open CgGuide.DotNet CgGuide.KeyedTable CgGuide.Dictionaries CgGuide.Dictionaries.Dictionary
open CgGuide.Program CgGuide.Runs CgGuide.MembershipProviders CgGuide.FormsMembershipService

variable {ignoreCase : String → String}

/-! ## Other users -/

/-- At most the call's own user has another record or other roles. -/
def ChangesOwn (c : MembershipCall) (p p' : Providers ignoreCase) : Prop :=
  Unchanged p p' ∨ ∃ u record roles, c.userName = some u ∧ ChangedOnly p u record roles p'

theorem done_changesOwn {c : MembershipCall} {p p' : Providers ignoreCase} (h : c.Done p p') :
    ChangesOwn c p p' := by
  right
  cases c with
  | createUser userName password email role =>
    obtain ⟨u, pw, e, r, hu, -, -, -, -, -, h⟩ := h
    exact ⟨u, _, _, hu, h⟩
  | updateUser userName password oldPassword email role =>
    obtain ⟨u, e, r, hu, -, -, h⟩ := h
    split at h
    · obtain ⟨role', -, -, h⟩ := h
      exact ⟨u, _, _, hu, h⟩
    · obtain ⟨old, pw, -, -, -, h⟩ := h
      exact ⟨u, _, _, hu, h⟩
  | changePassword userName oldPassword newPassword =>
    obtain ⟨u, r, old, pw, hu, -, -, -, -, h⟩ := h
    exact ⟨u, _, _, hu, h⟩
  | deleteUser userName =>
    obtain ⟨u, hu, h⟩ := h
    exact ⟨u, _, _, hu, h⟩

theorem refused_changesOwn {c : MembershipCall} {p p' : Providers ignoreCase}
    (h : c.Refused p p') : ChangesOwn c p p' := by
  cases c with
  | createUser userName password email role => exact Or.inl h
  | updateUser userName password oldPassword email role => exact Or.inl h
  | changePassword userName oldPassword newPassword => exact Or.inl h
  | deleteUser userName =>
    obtain ⟨u, hu, h⟩ := h
    exact Or.inr ⟨u, _, _, hu, h⟩

theorem thrown_changesOwn {c : MembershipCall} {p p' : Providers ignoreCase} (h : c.Thrown p p') :
    ChangesOwn c p p' := by
  cases c with
  | createUser userName password email role =>
    rcases h with h | ⟨u, pw, e, hu, -, -, -, rest, -, h⟩
    · exact Or.inl h
    · exact Or.inr ⟨u, _, _, hu, h⟩
  | updateUser userName password oldPassword email role =>
    rcases h with h | ⟨u, r, hu, -, h⟩
    · exact Or.inl h
    · right
      split at h
      · rcases h with ⟨rest, -, h⟩ | ⟨role', -, -, h⟩
        · exact ⟨u, _, _, hu, h⟩
        · exact ⟨u, _, _, hu, h⟩
      · obtain ⟨old, pw, -, -, -, h⟩ := h
        exact ⟨u, _, _, hu, h⟩
  | changePassword userName oldPassword newPassword => exact Or.inl h
  | deleteUser userName =>
    rcases h with h | ⟨u, hu, rest, -, h⟩
    · exact Or.inl h
    · exact Or.inr ⟨u, _, _, hu, h⟩

/-- The state after a call. -/
def after (refusals : Refusals) (w : World ignoreCase) (c : MembershipCall) : World ignoreCase :=
  (outcome (c.program refusals) w).2

/-- **However a call ends**, it changes at most its own user. -/
theorem changesOwn_after (refusals : Refusals) (w : World ignoreCase) (c : MembershipCall) :
    ChangesOwn c w.providers (after refusals w c).providers := by
  have hspec := c.program_spec refusals w.providers
  unfold after
  rcases hrun : outcome (c.program refusals) w with ⟨e | answer, w'⟩
  · exact thrown_changesOwn (hspec.of_error rfl hrun)
  · rcases hspec.of_ok rfl hrun with ⟨-, h⟩ | ⟨-, h⟩
    · exact done_changesOwn h
    · exact refused_changesOwn h

/-- The roles of another user stay. -/
theorem mem_rolesFor_after (refusals : Refusals) (w : World ignoreCase) (c : MembershipCall)
    {v : String} (hv : ∀ u, c.userName = some u → ignoreCase v ≠ ignoreCase u) (role : String) :
    role ∈ (after refusals w c).providers.rolesFor v ↔ role ∈ w.providers.rolesFor v := by
  rcases changesOwn_after refusals w c with h | ⟨u, record, roles, hu, h⟩
  · exact h.mem_rolesFor v role
  · rw [h.rolesFor_other v (hv u hu)]

/-! ## One call of a run -/

/-- There is a user of this name. -/
def UserExists (p : Providers ignoreCase) (u : String) : Prop := (p.users.lookup u).isSome = true

instance (p : Providers ignoreCase) (u : String) : Decidable (UserExists p u) :=
  inferInstanceAs (Decidable (_ = true))

/-- What happens to one name: nothing that matters here, or the user has one role,
or neither user nor roles are left. -/
def Step (p p' : Providers ignoreCase) (v : String) : Prop :=
  ((UserExists p' v ↔ UserExists p v) ∧ ∀ role, role ∈ p'.rolesFor v ↔ role ∈ p.rolesFor v)
  ∨ (∃ role, p'.rolesFor v = [role]) ∧ UserExists p' v
  ∨ ¬ UserExists p' v ∧ p'.rolesFor v = []

theorem step_of_unchanged {p p' : Providers ignoreCase} (h : Unchanged p p') (v : String) :
    Step p p' v := by
  refine Or.inl ⟨?_, h.mem_rolesFor v⟩
  rw [UserExists, UserExists, h.lookup]

/-- What happens to a user happens under every spelling of the name, and nothing
happens under others. -/
theorem step_of_own {p p' : Providers ignoreCase} {u : String} {record : Option UserRecord}
    {roles : List String} (h : ChangedOnly p u record roles p') (hu : Step p p' u) (v : String) :
    Step p p' v := by
  by_cases hv : ignoreCase v = ignoreCase u
  · unfold Step UserExists at hu ⊢
    rw [lookup_congr p'.users hv, lookup_congr p.users hv, Providers.rolesFor_congr p' hv,
      Providers.rolesFor_congr p hv]
    exact hu
  · left
    rw [UserExists, UserExists, h.lookup_other v hv, h.rolesFor_other v hv]
    exact ⟨Iff.rfl, fun _ => Iff.rfl⟩

/-- **A call that reports success**, seen from any name. -/
theorem step_of_done {c : MembershipCall} {p p' : Providers ignoreCase} (h : c.Done p p')
    (v : String) : Step p p' v := by
  cases c with
  | createUser userName password email role =>
    obtain ⟨u, pw, e, r, -, -, -, -, -, -, h⟩ := h
    refine step_of_own h (Or.inr (Or.inl ⟨⟨r, h.rolesFor_self⟩, ?_⟩)) v
    rw [UserExists, h.lookup_self, Option.isSome_some]
  | updateUser userName password oldPassword email role =>
    obtain ⟨u, e, r, -, -, hr, h⟩ := h
    split at h
    · obtain ⟨role', -, -, h⟩ := h
      refine step_of_own h (Or.inr (Or.inl ⟨⟨role', h.rolesFor_self⟩, ?_⟩)) v
      rw [UserExists, h.lookup_self, Option.isSome_some]
    · obtain ⟨old, pw, -, -, -, h⟩ := h
      refine step_of_own h (Or.inl ⟨?_, fun _ => by rw [h.rolesFor_self]⟩) v
      rw [UserExists, UserExists, h.lookup_self, hr, Option.isSome_some, Option.isSome_some]
  | changePassword userName oldPassword newPassword =>
    obtain ⟨u, r, old, pw, -, -, -, hr, -, h⟩ := h
    refine step_of_own h (Or.inl ⟨?_, fun _ => by rw [h.rolesFor_self]⟩) v
    rw [UserExists, UserExists, h.lookup_self, hr, Option.isSome_some, Option.isSome_some]
  | deleteUser userName =>
    obtain ⟨u, -, h⟩ := h
    refine step_of_own h (Or.inr (Or.inr ⟨?_, h.rolesFor_self⟩)) v
    rw [UserExists, h.lookup_self, Option.isSome_none]
    exact Bool.false_ne_true

/-! ## Runs -/

/-- The call reports success or leaves the providers untouched. -/
def Settles (refusals : Refusals) (w : World ignoreCase) (c : MembershipCall) : Prop :=
  (outcome (c.program refusals) w).1 = .ok true
    ∨ Unchanged w.providers (after refusals w c).providers

theorem step_of_settles {refusals : Refusals} {w : World ignoreCase} {c : MembershipCall}
    (h : Settles refusals w c) (v : String) :
    Step w.providers (after refusals w c).providers v := by
  rcases h with hok | hsame
  · have hspec := c.program_spec refusals w.providers
    unfold after
    rcases hrun : outcome (c.program refusals) w with ⟨e | answer, w'⟩
    · rw [hrun] at hok
      exact absurd hok.symm (by simp)
    · rw [hrun] at hok
      rcases hspec.of_ok rfl hrun with ⟨-, h⟩ | ⟨hanswer, -⟩
      · exact step_of_done h v
      · rw [hanswer] at hok
        exact absurd hok (by simp)
  · exact step_of_unchanged hsame v

/-- Every user has one role. -/
def OneRole (w : World ignoreCase) : Prop :=
  ∀ u, UserExists w.providers u → ∃ role, w.providers.rolesFor u = [role]

theorem oneRole_after {refusals : Refusals} (w : World ignoreCase) (c : MembershipCall)
    (h : OneRole w) (hc : Settles refusals w c) : OneRole (after refusals w c) := by
  intro u hu
  rcases step_of_settles hc u with ⟨hexists, hroles⟩ | ⟨hone, -⟩ | ⟨hgone, -⟩
  · obtain ⟨role, hrole⟩ := h u (hexists.mp hu)
    refine ⟨role, List.perm_singleton.mp ?_⟩
    rw [List.perm_ext_iff_of_nodup (Providers.rolesFor_nodup _ u) (List.nodup_singleton role)]
    intro r
    rw [hroles r, hrole]
  · exact hone
  · exact absurd hu hgone

/-- A user, or roles from `allowed` only. -/
def Assigned (allowed : String → Prop) (u : String) (w : World ignoreCase) : Prop :=
  UserExists w.providers u ∨ ∀ role ∈ w.providers.rolesFor u, allowed role

theorem assigned_after {refusals : Refusals} {allowed : String → Prop} {u : String}
    (w : World ignoreCase) (c : MembershipCall) (h : Assigned allowed u w)
    (hc : Settles refusals w c) : Assigned allowed u (after refusals w c) := by
  rcases step_of_settles hc u with ⟨hexists, hroles⟩ | ⟨-, hexists⟩ | ⟨-, hnone⟩
  · rcases h with h | h
    · exact Or.inl (hexists.mpr h)
    · exact Or.inr (fun role hrole => h role ((hroles role).mp hrole))
  · exact Or.inl hexists
  · right
    intro role hrole
    rw [hnone] at hrole
    exact absurd hrole List.not_mem_nil

/-- **Roles in every settled run**, from a state without users. In each state the run
reaches, every user has one role, which `GetUserRole` answers unless the provider
throws; a role that is assigned to no user was so from the start, and there never was
such a user; and a call changes the roles of no other user than its own. -/
theorem oneRole_run (refusals : Refusals) (start : World ignoreCase)
    (hstart : ∀ u, ¬ UserExists start.providers u) (cs : List MembershipCall)
    (hcs : Guarded (after refusals) (Settles refusals) start cs)
    (pre : List MembershipCall) (hpre : pre <+: cs) :
    (∀ u, UserExists (run (after refusals) start pre).providers u →
      ∃ role, (run (after refusals) start pre).providers.rolesFor u = [role]
        ∧ (outcome (getUserRole refusals u) (run (after refusals) start pre)).1
            = match refusals.throws (run (after refusals) start pre).calls with
              | some e => .error e
              | none => .ok role)
    ∧ (∀ u, ¬ UserExists (run (after refusals) start pre).providers u →
        ∀ role ∈ (run (after refusals) start pre).providers.rolesFor u,
          role ∈ start.providers.rolesFor u
          ∧ ∀ earlier, earlier <+: pre →
              ¬ UserExists (run (after refusals) start earlier).providers u)
    ∧ ∀ c v, (∀ u, c.userName = some u → ignoreCase v ≠ ignoreCase u) → ∀ role,
        role ∈ (after refusals (run (after refusals) start pre) c).providers.rolesFor v
          ↔ role ∈ (run (after refusals) start pre).providers.rolesFor v := by
  refine ⟨?_, ?_, ?_⟩
  · intro u hu
    have hone : OneRole (run (after refusals) start pre) :=
      invariant_reached oneRole_after (fun u hu => absurd hu (hstart u)) hcs hpre
    obtain ⟨role, hrole⟩ := hone u hu
    exact ⟨role, hrole, getUserRole_eq refusals hrole⟩
  · intro u hu role hrole
    refine ⟨?_, ?_⟩
    · have hfrom : Assigned (fun r => r ∈ start.providers.rolesFor u) u
          (run (after refusals) start pre) :=
        invariant_reached assigned_after (Or.inr (fun _ hr => hr)) hcs hpre
      rcases hfrom with hexists | hroles
      · exact absurd hexists hu
      · exact hroles role hrole
    · rintro earlier ⟨later, rfl⟩ hexists
      -- from where the user was there, a name without user has no roles
      obtain ⟨rest, rfl⟩ := hpre
      obtain ⟨-, hlater⟩ := Guarded.append (Guarded.append hcs).1
      have hnone : Assigned (fun _ => False) u (run (after refusals) start (earlier ++ later)) := by
        rw [run_append]
        exact invariant_run assigned_after (Or.inl hexists) hlater
      rcases hnone with hexists' | hroles
      · exact absurd hexists' hu
      · exact hroles role hrole
  · intro c v hv role
    exact mem_rolesFor_after refusals _ c hv role

theorem noUsers_empty (roles : List String) (u : String) :
    ¬ UserExists (noUsers roles).providers u :=
  fun h => absurd h Bool.false_ne_true

/-- Two users are created, the first one is deleted, and the second one has a role. -/
theorem oneRole_of_bob :
    ∃ role, (run (after Refusals.never) (noUsers ["Admin"])
      [.createUser (some "ann") (some "secret") (some "ann@example.com") (some "Admin"),
        .createUser (some "bob") (some "secret") (some "bob@example.com") (some "Admin"),
        .deleteUser (some "ann")]).providers.rolesFor "bob" = [role] := by
  obtain ⟨hroles, -, -⟩ := oneRole_run Refusals.never (noUsers ["Admin"])
    (noUsers_empty ["Admin"])
    [.createUser (some "ann") (some "secret") (some "ann@example.com") (some "Admin"),
      .createUser (some "bob") (some "secret") (some "bob@example.com") (some "Admin"),
      .deleteUser (some "ann")]
    ⟨Or.inl (by decide), Or.inl (by decide), Or.inl (by decide), trivial⟩ _ (List.prefix_refl _)
  obtain ⟨role, hrole, -⟩ := hroles "bob" (by decide)
  exact ⟨role, hrole⟩

end CgGuide.MembershipRuns
