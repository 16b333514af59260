/-
`InitializeSimpleMembership`: how the site gets its membership database.

The filter stands before every action of `AccountController` and lets a request go on when
`LazyInitializer.EnsureInitialized` returns. The constructor of `SimpleMembershipInitializer`
is modelled call by call: each is a turn of its own, and may throw. The flag, the lock and
the connection of the providers belong to a process; the database belongs to all of them
and is used by the rest of the site meanwhile.

`WebSecurity.InitializeDatabaseConnection` can be called only once in a process: a second
call throws. What follows from that for a site that failed to start is in
`MembershipStarts`.
-/
import CgGuide.LazyInitialization
import CgGuide.MembershipPasswords

set_option autoImplicit false

namespace CgGuide.SimpleMembershipInitializer

open CgGuide.Dictionaries CgGuide.Dictionaries.Dictionary CgGuide.Runs
open CgGuide.LazyInitialization CgGuide.MembershipProviders CgGuide.MembershipPasswords

variable {ignoreCase : String → String}

/-! ## The database -/

/-- The database, if it exists. -/
abbrev Database (ignoreCase : String → String) : Type := Option (Providers ignoreCase)

theorem nodup_noRoles (ignoreCase : String → String) :
    (([] : List (String × String)).map (fun x => (ignoreCase x.1, x.2))).Nodup :=
  List.nodup_nil

/-- A database that has just been created. -/
def emptyDatabase : Providers ignoreCase where
  users := Dictionary.empty
  roles := []
  usersInRoles := ⟨[], nodup_noRoles ignoreCase⟩
  roles_exist := fun _ h => absurd h List.not_mem_nil

/-- The password of a user, if there is one. -/
def passwordIn (db : Database ignoreCase) (u : String) : Option String :=
  db.bind (fun p => passwordOf p u)

/-- `CreateRole`; it throws when there is such a role. -/
def createRole (p : Providers ignoreCase) (role : String) : Option (Providers ignoreCase) :=
  if role ∈ p.roles then none
  else some { p with
    roles := p.roles ++ [role]
    roles_exist := fun a ha => List.mem_append_left [role] (p.roles_exist a ha) }

/-- `CreateUserAndAccount`; it throws when there is such a user. -/
def createUserAndAccount (p : Providers ignoreCase) (userName password : String) :
    Option (Providers ignoreCase) :=
  match p.users.lookup userName with
  | some _ => none
  | none => some { p with users := p.users.set userName ⟨password, none⟩ }

/-- `ChangePassword`; with a wrong password it does nothing. -/
def changePassword (p : Providers ignoreCase) (userName oldPassword newPassword : String) :
    Providers ignoreCase :=
  match p.users.lookup userName with
  | none => p
  | some r =>
    if r.password = oldPassword then
      { p with users := p.users.set userName { r with password := newPassword } }
    else p

/-- What the rest of the site does to the users meanwhile, call by call. -/
inductive AccountCall
  | createUserAndAccount (userName password : String)
  | changePassword (userName oldPassword newPassword : String)
  | deleteUser (userName : String)

/-- The database after a call; one that fails changes nothing. -/
def AccountCall.exec (c : AccountCall) (p : Providers ignoreCase) : Providers ignoreCase :=
  match c with
  | .createUserAndAccount userName password =>
    (SimpleMembershipInitializer.createUserAndAccount p userName password).getD p
  | .changePassword userName oldPassword newPassword =>
    SimpleMembershipInitializer.changePassword p userName oldPassword newPassword
  | .deleteUser userName => { p with users := p.users.remove userName }

/-! ## The constructor -/

/-- The constructor at the call it makes next. -/
inductive Call
  | databaseExists
  | createDatabase
  | initializeDatabaseConnection
  | roleExists
  | createRole
  | getUser
  | createUserAndAccount
deriving DecidableEq

/-- `InitializeCalled` of the providers of a process. -/
structure WebSecurity where
  initializeCalled : Bool

/-- A call of the constructor. That a call which throws has no effect, and that a user's
profile and account are there together, is assumed of the library: a profile without its
account, as a failed `CreateUserAndAccount` could leave, is not among the states. -/
def turn : Call → WebSecurity → Database ignoreCase →
    Stage Call × WebSecurity × Database ignoreCase
  | .databaseExists, l, db =>
    (.more (if db.isSome then .initializeDatabaseConnection else .createDatabase), l, db)
  | .createDatabase, l, none => (.more .initializeDatabaseConnection, l, some emptyDatabase)
  -- another process has created it meanwhile
  | .createDatabase, l, some p => (.failed, l, some p)
  | .initializeDatabaseConnection, l, none => (.failed, l, none)
  | .initializeDatabaseConnection, l, some p =>
    -- the providers of a process can be connected once
    if l.initializeCalled then (.failed, l, some p) else (.more .roleExists, ⟨true⟩, some p)
  | .roleExists, l, none => (.failed, l, none)
  | .roleExists, l, some p =>
    (.more (if "Admin" ∈ p.roles then .getUser else .createRole), l, some p)
  | .createRole, l, none => (.failed, l, none)
  | .createRole, l, some p =>
    match createRole p "Admin" with
    -- another process has created the role meanwhile
    | none => (.failed, l, some p)
    | some p' => (.more .getUser, l, some p')
  | .getUser, l, none => (.failed, l, none)
  | .getUser, l, some p =>
    (if (p.users.lookup "admin").isSome then .done else .more .createUserAndAccount, l, some p)
  | .createUserAndAccount, l, none => (.failed, l, none)
  | .createUserAndAccount, l, some p =>
    match createUserAndAccount p "admin" "Passw0rd" with
    | none => (.failed, l, some p)
    | some p' => (.done, l, some p')

section Turns

variable {l : WebSecurity} {p p' : Providers ignoreCase}

theorem turn_connect_again (h : l.initializeCalled = true) :
    turn .initializeDatabaseConnection l (some p) = (.failed, l, some p) := by
  simp only [turn, h, if_true]

theorem turn_connect (h : l.initializeCalled = false) :
    turn .initializeDatabaseConnection l (some p) = (.more .roleExists, ⟨true⟩, some p) := by
  simp only [turn, h, Bool.false_eq_true, if_false]

theorem turn_roleExists (h : "Admin" ∈ p.roles) :
    turn .roleExists l (some p) = (.more .getUser, l, some p) := by
  simp only [turn, h, if_true]

theorem turn_roleExists_not (h : "Admin" ∉ p.roles) :
    turn .roleExists l (some p) = (.more .createRole, l, some p) := by
  simp only [turn, h, if_false]

theorem turn_createRole (h : createRole p "Admin" = some p') :
    turn .createRole l (some p) = (.more .getUser, l, some p') := by
  simp only [turn, h]

theorem turn_createRole_again (h : createRole p "Admin" = none) :
    turn .createRole l (some p) = (.failed, l, some p) := by
  simp only [turn, h]

theorem turn_getUser (h : (p.users.lookup "admin").isSome = true) :
    turn .getUser l (some p) = (.done, l, some p) := by
  simp only [turn, h, if_true]

theorem turn_getUser_not (h : ¬ (p.users.lookup "admin").isSome = true) :
    turn .getUser l (some p) = (.more .createUserAndAccount, l, some p) := by
  rw [turn, if_neg h]

theorem turn_createUser (h : createUserAndAccount p "admin" "Passw0rd" = some p') :
    turn .createUserAndAccount l (some p) = (.done, l, some p') := by
  simp only [turn, h]

theorem turn_createUser_again (h : createUserAndAccount p "admin" "Passw0rd" = none) :
    turn .createUserAndAccount l (some p) = (.failed, l, some p) := by
  simp only [turn, h]

end Turns

/-- `SimpleMembershipInitializer`, and the rest of the site. -/
def initializer (ignoreCase : String → String) :
    Construction WebSecurity (Database ignoreCase) Call AccountCall where
  fresh := ⟨false⟩
  start := .databaseExists
  turn := turn
  other := fun c db => db.map c.exec

/-- The processes of the site and their database. -/
abbrev Site (ignoreCase : String → String) : Type :=
  System WebSecurity (Database ignoreCase) Call

abbrev Happening : Type := Event AccountCall

/-- The site after one event. -/
abbrev after : Site ignoreCase → Happening → Site ignoreCase := step (initializer ignoreCase)

/-- All processes have just started. -/
abbrev start (db : Database ignoreCase) : Site ignoreCase := System.cold (initializer ignoreCase) db

/-! ## What the calls do to the database -/

/-- The database keeps its roles and the passwords of its users. -/
def Grows (db db' : Database ignoreCase) : Prop :=
  ∀ p, db = some p → ∃ p', db' = some p' ∧ p.roles ⊆ p'.roles
    ∧ ∀ u, (passwordOf p u).isSome → passwordOf p' u = passwordOf p u

theorem Grows.refl (db : Database ignoreCase) : Grows db db :=
  fun p h => ⟨p, h, List.Subset.refl p.roles, fun _ _ => rfl⟩

theorem passwordOf_set (p : Providers ignoreCase) (userName : String) (r : UserRecord)
    (u : String) : passwordOf { p with users := p.users.set userName r } u
      = if ignoreCase u = ignoreCase userName then some r.password else passwordOf p u := by
  unfold passwordOf
  rw [lookup_set]
  split_ifs
  · rfl
  · rfl

theorem passwordOf_remove (p : Providers ignoreCase) (userName u : String) :
    passwordOf { p with users := p.users.remove userName } u
      = if ignoreCase u = ignoreCase userName then none else passwordOf p u := by
  unfold passwordOf
  rw [lookup_remove]
  split_ifs
  · rfl
  · rfl

theorem passwordOf_eq_none (p : Providers ignoreCase) (u : String) :
    passwordOf p u = none ↔ p.users.lookup u = none := Option.map_eq_none_iff

theorem createUserAndAccount_eq_some {p p' : Providers ignoreCase} {userName password : String} :
    createUserAndAccount p userName password = some p' ↔ passwordOf p userName = none
      ∧ p' = { p with users := p.users.set userName ⟨password, none⟩ } := by
  rw [passwordOf_eq_none]
  unfold createUserAndAccount
  cases hu : p.users.lookup userName with
  | some r => simp
  | none => simp [eq_comm]

theorem createRole_eq_some {p p' : Providers ignoreCase} {role : String}
    (h : createRole p role = some p') :
    role ∉ p.roles ∧ p'.users = p.users ∧ p'.roles = p.roles ++ [role] := by
  unfold createRole at h
  split_ifs at h with hrole
  rw [← Option.some.inj h]
  exact ⟨hrole, rfl, rfl⟩

/-- **What a call of the constructor does to the database.** -/
theorem turn_cases (w : Call) (l : WebSecurity) (db : Database ignoreCase) :
    (turn w l db).2.2 = db
    ∨ (w = .createDatabase ∧ db = none ∧ (turn w l db).2.2 = some emptyDatabase)
    ∨ (∃ p p', w = .createRole ∧ db = some p ∧ createRole p "Admin" = some p'
        ∧ (turn w l db).2.2 = some p')
    ∨ ∃ p p', w = .createUserAndAccount ∧ db = some p
        ∧ createUserAndAccount p "admin" "Passw0rd" = some p' ∧ (turn w l db).2.2 = some p' := by
  -- without a database only its creation does something
  cases db with
  | none =>
    cases w with
    | createDatabase => exact Or.inr (Or.inl ⟨rfl, rfl, rfl⟩)
    | _ => exact Or.inl rfl
  | some p =>
    cases w with
    | initializeDatabaseConnection =>
      left
      cases hcalled : l.initializeCalled with
      | true => rw [turn_connect_again hcalled]
      | false => rw [turn_connect hcalled]
    | createRole =>
      cases hcreate : createRole p "Admin" with
      | none => rw [turn_createRole_again hcreate]; exact Or.inl rfl
      | some p' =>
        rw [turn_createRole hcreate]
        exact Or.inr (Or.inr (Or.inl ⟨p, p', rfl, rfl, hcreate, rfl⟩))
    | createUserAndAccount =>
      cases hcreate : createUserAndAccount p "admin" "Passw0rd" with
      | none => rw [turn_createUser_again hcreate]; exact Or.inl rfl
      | some p' =>
        rw [turn_createUser hcreate]
        exact Or.inr (Or.inr (Or.inr ⟨p, p', rfl, rfl, hcreate, rfl⟩))
    | _ => exact Or.inl rfl

/-- Only the connection changes the statics. -/
theorem turn_statics {w : Call} (hw : w ≠ .initializeDatabaseConnection) (l : WebSecurity)
    (db : Database ignoreCase) : (turn w l db).2.1 = l := by
  cases db with
  | none =>
    cases w with
    | initializeDatabaseConnection => exact absurd rfl hw
    | _ => rfl
  | some p =>
    cases w with
    | initializeDatabaseConnection => exact absurd rfl hw
    | createRole =>
      cases hcreate : createRole p "Admin" with
      | none => rw [turn_createRole_again hcreate]
      | some p' => rw [turn_createRole hcreate]
    | createUserAndAccount =>
      cases hcreate : createUserAndAccount p "admin" "Passw0rd" with
      | none => rw [turn_createUser_again hcreate]
      | some p' => rw [turn_createUser hcreate]
    | _ => rfl

/-- The constructor takes nothing away. -/
theorem turn_grows (w : Call) (l : WebSecurity) (db : Database ignoreCase) :
    Grows db (turn w l db).2.2 := by
  rcases turn_cases w l db with h | ⟨-, rfl, -⟩ | ⟨p, p', -, rfl, hcreate, h⟩
    | ⟨p, p', -, rfl, hcreate, h⟩
  · rw [h]
    exact Grows.refl db
  · exact fun p hp => absurd hp.symm (Option.some_ne_none p)
  · intro q hq
    obtain rfl := Option.some.inj hq
    obtain ⟨-, husers, hroles⟩ := createRole_eq_some hcreate
    refine ⟨p', h, ?_, fun u _ => by rw [passwordOf, passwordOf, husers]⟩
    rw [hroles]
    exact List.subset_append_left p.roles ["Admin"]
  · intro q hq
    obtain rfl := Option.some.inj hq
    obtain ⟨hnone, rfl⟩ := createUserAndAccount_eq_some.mp hcreate
    refine ⟨_, h, List.Subset.refl p.roles, fun u hu => ?_⟩
    -- the new user had no password, so nobody loses one
    rw [passwordOf_set, if_neg]
    intro hsame
    rw [passwordOf_congr p hsame, hnone] at hu
    exact absurd hu Bool.false_ne_true

/-- **What the rest of the site does to the users**: nothing, or one gets a password, a
new user or one that has presented the old password, or one is deleted. -/
theorem exec_cases (c : AccountCall) (p : Providers ignoreCase) :
    c.exec p = p
    ∨ (∃ v r, c.exec p = { p with users := p.users.set v r }
        ∧ (c = .createUserAndAccount v r.password ∧ passwordOf p v = none
          ∨ ∃ old, c = .changePassword v old r.password ∧ passwordOf p v = some old))
    ∨ ∃ v, c = .deleteUser v ∧ c.exec p = { p with users := p.users.remove v } := by
  cases c with
  | createUserAndAccount v password =>
    have hexec : (AccountCall.createUserAndAccount v password).exec p
        = (createUserAndAccount p v password).getD p := rfl
    cases hcreate : createUserAndAccount p v password with
    | none => exact Or.inl (by rw [hexec, hcreate, Option.getD_none])
    | some p' =>
      obtain ⟨hnone, rfl⟩ := createUserAndAccount_eq_some.mp hcreate
      refine Or.inr (Or.inl ⟨v, ⟨password, none⟩, ?_, Or.inl ⟨rfl, hnone⟩⟩)
      rw [hexec, hcreate, Option.getD_some]
  | changePassword v old password =>
    show changePassword p v old password = p ∨ _ ∨ _
    unfold changePassword
    cases huser : p.users.lookup v with
    | none => exact Or.inl rfl
    | some r =>
      by_cases hold : r.password = old
      · refine Or.inr (Or.inl ⟨v, { r with password := password }, ?_, Or.inr ⟨old, rfl, ?_⟩⟩)
        · show changePassword p v old password = _
          simp only [changePassword, huser, hold, if_true]
        · rw [passwordOf, huser, Option.map_some, hold]
      · exact Or.inl (if_neg hold)
  | deleteUser v => exact Or.inr (Or.inr ⟨v, rfl, rfl⟩)

theorem roles_exec (c : AccountCall) (p : Providers ignoreCase) : (c.exec p).roles = p.roles := by
  rcases exec_cases c p with h | ⟨v, r, h, -⟩ | ⟨v, -, h⟩
  · rw [h]
  · rw [h]
  · rw [h]

/-- No other call than the deletion of a user takes a password away. -/
theorem isSome_passwordOf_exec {c : AccountCall} {u : String}
    (hc : ∀ v, c = .deleteUser v → ignoreCase v ≠ ignoreCase u) {p : Providers ignoreCase}
    (hu : (passwordOf p u).isSome) : (passwordOf (c.exec p) u).isSome := by
  rcases exec_cases c p with h | ⟨v, r, h, -⟩ | ⟨v, hdelete, h⟩
  · rwa [h]
  · rw [h, passwordOf_set]
    split_ifs
    · rfl
    · exact hu
  · rwa [h, passwordOf_remove, if_neg (hc v hdelete).symm]

/-! ## What a request finds behind the filter -/

/-- The role and the account that the site needs. -/
def Ready (db : Database ignoreCase) : Prop :=
  ∃ p, db = some p ∧ "Admin" ∈ p.roles ∧ (passwordOf p "admin").isSome

/-- What holds before each call of the constructor. -/
def Before : Call → WebSecurity → Database ignoreCase → Prop
  | .databaseExists, _, _ | .createDatabase, _, _ => True
  | .initializeDatabaseConnection, _, db => db.isSome
  | .roleExists, l, db | .createRole, l, db => l.initializeCalled = true ∧ db.isSome
  | .getUser, l, db | .createUserAndAccount, l, db =>
    l.initializeCalled = true ∧ ∃ p, db = some p ∧ "Admin" ∈ p.roles

/-- What holds when it returns. -/
def After (l : WebSecurity) (db : Database ignoreCase) : Prop :=
  l.initializeCalled = true ∧ Ready db

/-- The rest of the site does not delete `admin`. -/
def KeepsAdmin (ignoreCase : String → String) (c : AccountCall) : Prop :=
  ∀ v, c = .deleteUser v → ignoreCase v ≠ ignoreCase "admin"

/-- A database that still has what it had meets the assertions as before. -/
theorem before_mono {db db' : Database ignoreCase}
    (h : ∀ p, db = some p → ∃ p', db' = some p' ∧ p.roles ⊆ p'.roles) (w : Call)
    (l : WebSecurity) (hw : Before w l db) : Before w l db' := by
  -- what is asserted of the database is that it exists and what its roles are
  have hsome : db.isSome → db'.isSome := by
    intro hdb
    obtain ⟨p, rfl⟩ := Option.isSome_iff_exists.mp hdb
    obtain ⟨p', rfl, -⟩ := h p rfl
    rfl
  cases w with
  | databaseExists => trivial
  | createDatabase => trivial
  | initializeDatabaseConnection => exact hsome hw
  | roleExists => exact ⟨hw.1, hsome hw.2⟩
  | createRole => exact ⟨hw.1, hsome hw.2⟩
  | getUser =>
    obtain ⟨hl, p, hp, hrole⟩ := hw
    obtain ⟨p', hp', hroles⟩ := h p hp
    exact ⟨hl, p', hp', hroles hrole⟩
  | createUserAndAccount =>
    obtain ⟨hl, p, hp, hrole⟩ := hw
    obtain ⟨p', hp', hroles⟩ := h p hp
    exact ⟨hl, p', hp', hroles hrole⟩

/-- **A call of the constructor**, from one assertion to the next, or to the end. -/
theorem turn_meets {w : Call} {l : WebSecurity} {db : Database ignoreCase} (hw : Before w l db) :
    (∃ w', (turn w l db).1 = .more w' ∧ Before w' (turn w l db).2.1 (turn w l db).2.2)
    ∨ ((turn w l db).1 = .done ∧ After (turn w l db).2.1 (turn w l db).2.2)
    ∨ (turn w l db).1 = .failed := by
  cases db with
  | none =>
    cases w with
    | databaseExists => exact Or.inl ⟨.createDatabase, rfl, trivial⟩
    | createDatabase => exact Or.inl ⟨.initializeDatabaseConnection, rfl, rfl⟩
    | _ => exact Or.inr (Or.inr rfl)
  | some p =>
    cases w with
    | databaseExists => exact Or.inl ⟨.initializeDatabaseConnection, rfl, rfl⟩
    -- it exists by now, and creating it again throws
    | createDatabase => exact Or.inr (Or.inr rfl)
    | initializeDatabaseConnection =>
      cases hcalled : l.initializeCalled with
      | true =>
        rw [turn_connect_again hcalled]
        exact Or.inr (Or.inr rfl)
      | false =>
        rw [turn_connect hcalled]
        exact Or.inl ⟨.roleExists, rfl, rfl, rfl⟩
    | roleExists =>
      by_cases hrole : "Admin" ∈ p.roles
      · rw [turn_roleExists hrole]
        exact Or.inl ⟨.getUser, rfl, hw.1, p, rfl, hrole⟩
      · rw [turn_roleExists_not hrole]
        exact Or.inl ⟨.createRole, rfl, hw⟩
    | createRole =>
      cases hcreate : createRole p "Admin" with
      | none =>
        rw [turn_createRole_again hcreate]
        exact Or.inr (Or.inr rfl)
      | some p' =>
        obtain ⟨-, -, hroles⟩ := createRole_eq_some hcreate
        rw [turn_createRole hcreate]
        exact Or.inl ⟨.getUser, rfl, hw.1, p', rfl, by simp [hroles]⟩
    | getUser =>
      obtain ⟨hl, q, hq, hrole⟩ := hw
      obtain rfl := Option.some.inj hq
      by_cases huser : (p.users.lookup "admin").isSome = true
      · rw [turn_getUser huser]
        exact Or.inr (Or.inl ⟨rfl, hl, p, rfl, hrole, by rw [passwordOf, Option.isSome_map, huser]⟩)
      · rw [turn_getUser_not huser]
        exact Or.inl ⟨.createUserAndAccount, rfl, hl, p, rfl, hrole⟩
    | createUserAndAccount =>
      obtain ⟨hl, q, hq, hrole⟩ := hw
      obtain rfl := Option.some.inj hq
      cases hcreate : createUserAndAccount p "admin" "Passw0rd" with
      | none =>
        rw [turn_createUser_again hcreate]
        exact Or.inr (Or.inr rfl)
      | some p' =>
        obtain ⟨-, rfl⟩ := createUserAndAccount_eq_some.mp hcreate
        rw [turn_createUser hcreate]
        refine Or.inr (Or.inl ⟨rfl, hl, _, rfl, hrole, ?_⟩)
        rw [passwordOf_set, if_pos rfl]
        rfl

theorem ready_grows {db db' : Database ignoreCase} (h : Grows db db') (hdb : Ready db) :
    Ready db' := by
  obtain ⟨p, hp, hrole, huser⟩ := hdb
  obtain ⟨p', hp', hroles, hpasswords⟩ := h p hp
  exact ⟨p', hp', hroles hrole, by rwa [hpasswords "admin" huser]⟩

/-- **The constructor meets its assertions**, whoever else creates the database, the role
or the account meanwhile. -/
theorem initializer_outline :
    Outline (initializer ignoreCase) (KeepsAdmin ignoreCase) Before After where
  start := fun _ _ => trivial
  more := by
    intro w l db w' l' db' hw h
    have hmeets := turn_meets hw
    rw [show turn w l db = (.more w', l', db') from h] at hmeets
    simpa using hmeets
  done := by
    intro w l db l' db' hw h
    have hmeets := turn_meets hw
    rw [show turn w l db = (.done, l', db') from h] at hmeets
    simpa using hmeets
  turn_before := fun {v m db} _ w l =>
    before_mono (fun p hp => (turn_grows v m db p hp).imp (fun _ h => ⟨h.1, h.2.1⟩)) w l
  turn_after := fun {v m db} _ _ h => ⟨h.1, ready_grows (turn_grows v m db) h.2⟩
  other_before := by
    intro c hc w l db
    refine before_mono (fun p hp => ⟨c.exec p, ?_, ?_⟩) w l
    · rw [hp]
      rfl
    · rw [roles_exec]
      exact List.Subset.refl p.roles
  other_after := by
    rintro c hc l db ⟨hl, p, rfl, hrole, huser⟩
    exact ⟨hl, c.exec p, rfl, by rwa [roles_exec], isSome_passwordOf_exec hc huser⟩

/-- **Whoever is let through finds the site ready.** In every run of any number of
processes, with exceptions and restarts anywhere and whatever the rest of the site does
except deleting `admin`, a request passes the filter only when the database exists with the
role and the account, and the providers of its process are connected. -/
theorem ready_of_passes (db : Database ignoreCase) {es : List Happening}
    (hes : Guarded after (Permits (KeepsAdmin ignoreCase)) (start db) es) {p : ℕ} {e : Happening}
    (he : Passes p (run after (start db) es) e) :
    ((run after (start db) es).processes p).statics.initializeCalled = true
      ∧ Ready (run after (start db) es).shared :=
  after_of_passes (outline_reached initializer_outline db hes p) he

/-- A request that arrives at a process and has `n` turns. -/
def request (p n : ℕ) : List Happening :=
  .arrive p 0 :: List.replicate n (.advance p 0 false)

/-- Before there is a database, with names compared as they are written. -/
abbrev nothing : Database id := none

/-- **`ready_of_passes`, of the first request**: its eleventh turn lets it through. -/
theorem ready_of_first_request :
    ((run after (start nothing) (request 0 10)).processes 0).statics.initializeCalled = true
      ∧ Ready (run after (start nothing) (request 0 10)).shared := by
  have hes : Guarded after (Permits (KeepsAdmin id)) (start nothing) (request 0 10) := by
    refine guarded_of_reached (fun pre e post hes c hc => ?_)
    have hmem : e ∈ request 0 10 := hes ▸ List.mem_append_right pre List.mem_cons_self
    rcases List.mem_cons.mp hmem with harrive | hturn
    · exact absurd (hc.symm.trans harrive) (by simp)
    · exact absurd (hc.symm.trans (List.eq_of_mem_replicate hturn)) (by simp)
  exact ready_of_passes nothing hes ⟨0, .publish, rfl, rfl, Or.inl rfl⟩

end CgGuide.SimpleMembershipInitializer
