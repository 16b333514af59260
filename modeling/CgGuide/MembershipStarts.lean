/-
The starts of the site, over any run of its processes.

A process connects once and completes its constructor once in each start
(`once_per_start`). A constructor that fails before it has connected is made up for by the
next request; one that fails afterwards is not, as no later one can connect again, and the
process lets no request through until it restarts (`recovers_iff`). No start takes the
password of `admin` back to the first one (`password_origin`).
-/
import CgGuide.SimpleMembershipInitializer

set_option autoImplicit false

namespace CgGuide.MembershipStarts

open CgGuide.Dictionaries CgGuide.Dictionaries.Dictionary CgGuide.Runs
open CgGuide.LazyInitialization CgGuide.MembershipProviders CgGuide.MembershipPasswords
open CgGuide.SimpleMembershipInitializer

variable {ignoreCase : String → String}

/-! ## Once in every start of a process -/

/-- The event connects the providers of the process to the database. -/
def Connects (p : ℕ) (site : Site ignoreCase) (e : Happening) : Prop :=
  ∃ i, e = .advance p i false
    ∧ (site.processes p).threads i = some (.build .initializeDatabaseConnection)
    ∧ site.shared.isSome = true ∧ (site.processes p).statics.initializeCalled = false

/-- A call of the constructor connects, or it leaves the statics alone. -/
theorem turn_initializeCalled (w : Call) (l : WebSecurity) (db : Database ignoreCase) :
    (turn w l db).2.1.initializeCalled = true
      ↔ (w = .initializeDatabaseConnection ∧ db.isSome = true ∧ l.initializeCalled = false)
        ∨ l.initializeCalled = true := by
  by_cases hw : w = .initializeDatabaseConnection
  · rw [hw]
    cases db with
    | none => simp [turn]
    | some p =>
      cases hcalled : l.initializeCalled with
      | true => simp [turn_connect_again hcalled, hcalled]
      | false => simp [turn_connect hcalled]
  · rw [turn_statics hw]
    simp [hw]

/-- **The connection** is made by an event that connects, and lost in a restart. -/
theorem initializeCalled_after (site : Site ignoreCase) (e : Happening) (p : ℕ) :
    ((after site e).processes p).statics.initializeCalled = true
      ↔ Connects p site e
        ∨ (site.processes p).statics.initializeCalled = true ∧ ¬ Recycles p site e := by
  rcases processes_step (C := initializer ignoreCase) site e p with
    ⟨rfl, h⟩ | ⟨i, rfl, -, h⟩ | ⟨i, throws, rfl, h⟩ | ⟨⟨hrecycle, hadvance⟩, h⟩
  · simp [h, Process.cold, initializer, Connects, Recycles]
  · simp [h, Process.goto, Connects, Recycles]
  · rw [h]
    have hrecycle : ¬ Recycles p site (.advance p i throws : Happening) := by simp [Recycles]
    rcases exec_turn (C := initializer ignoreCase) (site.processes p) i throws site.shared with
      ⟨hnone, hsame, -⟩ | ⟨w, rfl, hi, hturn, -⟩
    -- a thread that makes no call of the constructor cannot be the one that connects
    · rw [hsame, and_iff_left hrecycle]
      refine (or_iff_right ?_).symm
      rintro ⟨j, he, hj, -⟩
      obtain ⟨-, rfl, rfl⟩ := Event.advance.inj he
      exact hnone rfl _ hj
    · rw [hturn, show (initializer ignoreCase).turn = turn from rfl, turn_initializeCalled]
      simp [Connects, hi, hrecycle]
  · simp [h, Connects, Recycles, hrecycle, hadvance]

/-- **Only once per app start.** In every run, a process has at most one thread in the
constructor, and between two events that connect its providers, or two that complete the
constructor, it restarts. -/
theorem once_per_start (db : Database ignoreCase) (es : List Happening) (p : ℕ) :
    (∀ i j w w', ((run after (start db) es).processes p).threads i = some (.build w) →
      ((run after (start db) es).processes p).threads j = some (.build w') → i = j)
    ∧ ∀ pre e mid e', es = pre ++ e :: mid ++ [e'] →
      Connects p (run after (start db) pre) e
          ∧ Connects p (run after (start db) (pre ++ e :: mid)) e'
        ∨ Publishes p (run after (start db) pre) e
          ∧ Publishes p (run after (start db) (pre ++ e :: mid)) e' →
      Event.recycle p ∈ mid := by
  refine ⟨fun i j w w' hi hj => ?_, ?_⟩
  · exact ((sound_reached db es p).alone hj trivial hi trivial)
  · rintro pre e mid e' rfl htwice
    -- the first event sets what the second finds unset, and only a restart unsets it
    have hmem : (∃ mid₁ f mid₂, mid = mid₁ ++ f :: mid₂
        ∧ Recycles p (run after (start db) (pre ++ e :: mid₁)) f) → Event.recycle p ∈ mid := by
      rintro ⟨mid₁, f, mid₂, rfl, rfl⟩
      exact List.mem_append_right mid₁ List.mem_cons_self
    apply hmem
    rcases htwice with ⟨he, he'⟩ | ⟨he, he'⟩
    · refine off_between
        (P := fun site : Site ignoreCase => (site.processes p).statics.initializeCalled = true)
        Bool.false_ne_true (fun site e (_ : True) => initializeCalled_after site e p) ?_
        (guarded_true _ _) he he'
      rintro site e - ⟨i, -, -, -, hfresh⟩
      exact Bool.eq_false_iff.mp hfresh
    · refine off_between
        (P := fun site : Site ignoreCase => (site.processes p).initialized = true)
        Bool.false_ne_true (fun site e (_ : AllSound site) => initialized_step site e p) ?_
        (guarded_of_reached (fun pre' _ _ _ => sound_reached db pre')) he he'
      rintro site e hsound ⟨i, -, hi⟩
      exact Bool.eq_false_iff.mp ((hsound p).unset i _ hi trivial)

/-- Two starts of a process, and the restart between them. -/
theorem once_per_start_twice : Event.recycle 0 ∈ ([.recycle 0] ++ request 0 4 : List Happening) :=
  (once_per_start nothing (request 0 5 ++ .advance 0 0 false
    :: ([.recycle 0] ++ request 0 4) ++ [.advance 0 0 false]) 0).2
    (request 0 5) (.advance 0 0 false) ([.recycle 0] ++ request 0 4) (.advance 0 0 false) rfl
    (Or.inl ⟨⟨0, rfl, rfl, rfl, rfl⟩, ⟨0, rfl, rfl, rfl, rfl⟩⟩)

/-! ## A start that fails -/

/-- The call comes after the connection. -/
def AfterConnection : Call → Prop
  | .databaseExists | .createDatabase | .initializeDatabaseConnection => False
  | .roleExists | .createRole | .getUser | .createUserAndAccount => True

/-- The thread is in the constructor past its connection. -/
def Late : Phase Call → Prop
  | .build w => AfterConnection w
  | .publish => True
  | .read | .lock | .check => False

theorem Late.inside {ph : Phase Call} (h : Late ph) : ph.Inside := by
  cases ph with
  | build w => trivial
  | publish => trivial
  | _ => exact h.elim

/-- A thread that is past the connection is gone, and the flag is not set. -/
def FailsConnected (p : ℕ) (site : Site ignoreCase) (e : Happening) : Prop :=
  ∃ i throws ph, e = .advance p i throws ∧ (site.processes p).threads i = some ph ∧ Late ph
    ∧ ((after site e).processes p).threads i = none
    ∧ ((after site e).processes p).initialized = false

/-- Connected, with the flag unset and nobody left to set it. -/
structure Stuck (P : Process WebSecurity Call) : Prop where
  called : P.statics.initializeCalled = true
  unset : P.initialized = false
  gone : ∀ i ph, P.threads i = some ph → ¬ Late ph

variable {P : Process WebSecurity Call} {i : ℕ}

theorem not_stuck_of_late {ph : Phase Call} (hi : P.threads i = some ph) (hph : Late ph) :
    ¬ Stuck P :=
  fun h => h.gone i ph hi hph

/-- The calls after the connection come one after the other. -/
theorem afterConnection_more {w w' : Call} {l l' : WebSecurity} {db db' : Database ignoreCase}
    (hw : AfterConnection w) (h : turn w l db = (.more w', l', db')) : AfterConnection w' := by
  have hmore : (turn w l db).1 = .more w' := by rw [h]
  cases db with
  | none =>
    cases w with
    | databaseExists => exact hw.elim
    | createDatabase => exact hw.elim
    | _ => exact absurd hmore (by simp [turn])
  | some p =>
    cases w with
    | databaseExists => exact hw.elim
    | createDatabase => exact hw.elim
    | initializeDatabaseConnection => exact hw.elim
    | roleExists =>
      by_cases hrole : "Admin" ∈ p.roles
      · rw [turn_roleExists hrole] at hmore
        exact Stage.more.inj hmore ▸ trivial
      · rw [turn_roleExists_not hrole] at hmore
        exact Stage.more.inj hmore ▸ trivial
    | createRole =>
      cases hcreate : createRole p "Admin" with
      | none =>
        rw [turn_createRole_again hcreate] at hmore
        exact absurd hmore (by simp)
      | some p' =>
        rw [turn_createRole hcreate] at hmore
        exact Stage.more.inj hmore ▸ trivial
    | getUser =>
      by_cases huser : (p.users.lookup "admin").isSome = true
      · rw [turn_getUser huser] at hmore
        exact absurd hmore (by simp)
      · rw [turn_getUser_not huser] at hmore
        exact Stage.more.inj hmore ▸ trivial
    | createUserAndAccount =>
      cases hcreate : createUserAndAccount p "admin" "Passw0rd" with
      | none =>
        rw [turn_createUser_again hcreate] at hmore
        exact absurd hmore (by simp)
      | some p' =>
        rw [turn_createUser hcreate] at hmore
        exact absurd hmore (by simp)

/-- The calls before it do not get past it, unless by connecting. -/
theorem before_connection {w : Call} (hw : ¬ AfterConnection w) (l : WebSecurity)
    (db : Database ignoreCase) :
    ((turn w l db).2.1 = l ∧ (turn w l db).1 ≠ .done
        ∧ ∀ w', (turn w l db).1 = .more w' → ¬ AfterConnection w')
    ∨ l.initializeCalled = false ∧ (turn w l db).2.1.initializeCalled = true
      ∧ (turn w l db).1 = .more .roleExists := by
  cases db with
  | none =>
    cases w with
    | databaseExists =>
      exact Or.inl ⟨rfl, by simp [turn], fun w' h => Stage.more.inj h ▸ not_false⟩
    | createDatabase =>
      exact Or.inl ⟨rfl, by simp [turn], fun w' h => Stage.more.inj h ▸ not_false⟩
    | initializeDatabaseConnection =>
      exact Or.inl ⟨rfl, by simp [turn], fun w' h => absurd h (by simp [turn])⟩
    | _ => exact absurd trivial hw
  | some p =>
    cases w with
    | databaseExists =>
      exact Or.inl ⟨rfl, by simp [turn], fun w' h => Stage.more.inj h ▸ not_false⟩
    | createDatabase =>
      exact Or.inl ⟨rfl, by simp [turn], fun w' h => absurd h (by simp [turn])⟩
    | initializeDatabaseConnection =>
      cases hcalled : l.initializeCalled with
      | true =>
        rw [turn_connect_again hcalled]
        exact Or.inl ⟨rfl, by simp, fun w' h => absurd h (by simp)⟩
      | false =>
        rw [turn_connect hcalled]
        exact Or.inr ⟨rfl, rfl, rfl⟩
    | _ => exact absurd trivial hw

theorem early_of_turn {w : Call} {l l' : WebSecurity} {stage : Stage Call}
    {db db' : Database ignoreCase} (hw : ¬ AfterConnection w)
    (h : turn w l db = (stage, l', db')) :
    (l' = l ∧ stage ≠ .done ∧ ∀ w', stage = .more w' → ¬ AfterConnection w')
    ∨ l.initializeCalled = false ∧ l'.initializeCalled = true ∧ stage = .more .roleExists := by
  have hcall := before_connection hw l db
  rwa [h] at hcall

theorem statics_of_turn {w : Call} {l l' : WebSecurity} {stage : Stage Call}
    {db db' : Database ignoreCase} (hw : AfterConnection w)
    (h : turn w l db = (stage, l', db')) :
    l' = l := by
  have hne : w ≠ .initializeDatabaseConnection := by
    rintro rfl
    exact hw
  have hstatics := turn_statics hne l db
  rwa [h] at hstatics

/-- A thread past the connection stays past it, or is gone. -/
theorem late_exec {ph : Phase Call} (hi : P.threads i = some ph) (hph : Late ph) (throws : Bool)
    (db : Database ignoreCase) :
    (P.exec (initializer ignoreCase) i throws db).1.statics = P.statics
    ∧ ∀ ph', (P.exec (initializer ignoreCase) i throws db).1.threads i = some ph' →
      Late ph' := by
  have hmove := move_exec (initializer ignoreCase) P i throws db
  generalize P.exec (initializer ignoreCase) i throws db = r at hmove ⊢
  have hhere : ∀ {ph'}, P.threads i = some ph' → Late ph' :=
    fun hi' => Option.some.inj (hi.symm.trans hi') ▸ hph
  cases hmove with
  | stays h => exact absurd hph.inside (h ph hi)
  | throws => exact ⟨rfl, fun ph' h => by simp [threads_leave] at h⟩
  | passes => exact ⟨rfl, fun ph' h => by simp [threads_leave] at h⟩
  | publishes => exact ⟨rfl, fun ph' h => by simp [threads_leave] at h⟩
  -- the phases before the construction are not past the connection
  | reads hi' => exact (hhere hi').elim
  | takes hi' => exact (hhere hi').elim
  | checks hi' => exact (hhere hi').elim
  | more hi' hturn =>
    refine ⟨statics_of_turn (hhere hi') hturn, fun ph' h => ?_⟩
    rw [threads_goto, if_pos rfl] at h
    rw [← Option.some.inj h]
    exact afterConnection_more (hhere hi') hturn
  | done hi' hturn =>
    refine ⟨statics_of_turn (hhere hi') hturn, fun ph' h => ?_⟩
    rw [threads_goto, if_pos rfl] at h
    rw [← Option.some.inj h]
    trivial
  | failed hi' hturn =>
    exact ⟨statics_of_turn (hhere hi') hturn, fun ph' h => by simp [threads_leave] at h⟩

/-- A thread that is not past the connection only gets past it by connecting. -/
theorem early_exec (hi : ∀ ph, P.threads i = some ph → ¬ Late ph) (throws : Bool)
    (db : Database ignoreCase) :
    ((P.exec (initializer ignoreCase) i throws db).1.statics = P.statics
      ∧ (P.exec (initializer ignoreCase) i throws db).1.initialized = P.initialized
      ∧ ∀ ph', (P.exec (initializer ignoreCase) i throws db).1.threads i = some ph' → ¬ Late ph')
    ∨ P.statics.initializeCalled = false
      ∧ ∃ ph', (P.exec (initializer ignoreCase) i throws db).1.threads i = some ph'
        ∧ Late ph' := by
  have hmove := move_exec (initializer ignoreCase) P i throws db
  generalize P.exec (initializer ignoreCase) i throws db = r at hmove ⊢
  cases hmove with
  | stays => exact Or.inl ⟨rfl, rfl, hi⟩
  | throws => exact Or.inl ⟨rfl, rfl, fun ph' h => by simp [threads_leave] at h⟩
  | passes => exact Or.inl ⟨rfl, rfl, fun ph' h => by simp [threads_leave] at h⟩
  | publishes hi' => exact absurd trivial (hi _ hi')
  | reads =>
    refine Or.inl ⟨rfl, rfl, fun ph' h => ?_⟩
    rw [threads_goto, if_pos rfl] at h
    exact Option.some.inj h ▸ not_false
  | takes =>
    refine Or.inl ⟨rfl, rfl, fun ph' h => ?_⟩
    rw [threads_goto, if_pos rfl] at h
    exact Option.some.inj h ▸ not_false
  | checks =>
    refine Or.inl ⟨rfl, rfl, fun ph' h => ?_⟩
    rw [threads_goto, if_pos rfl] at h
    exact Option.some.inj h ▸ not_false
  | @more w w' l db' hi' hturn =>
    -- connecting is the one way past the connection, and it needs providers not yet connected
    rcases early_of_turn (hi _ hi') hturn with ⟨hl, -, hw'⟩ | ⟨hfresh, -, hw'⟩
    · refine Or.inl ⟨hl, rfl, fun ph' h => ?_⟩
      rw [threads_goto, if_pos rfl] at h
      exact Option.some.inj h ▸ hw' w' rfl
    · refine Or.inr ⟨hfresh, .build w', by rw [threads_goto, if_pos rfl], ?_⟩
      rw [Stage.more.inj hw']
      trivial
  | @done w l db' hi' hturn =>
    rcases early_of_turn (hi _ hi') hturn with ⟨-, hdone, -⟩ | ⟨-, -, hw'⟩
    · exact absurd rfl hdone
    · exact absurd hw' (by simp)
  | @failed w l db' hi' hturn =>
    rcases early_of_turn (hi _ hi') hturn with ⟨hl, -, -⟩ | ⟨-, -, hw'⟩
    · exact Or.inl ⟨hl, rfl, fun ph' h => by simp [threads_leave] at h⟩
    · exact absurd hw' (by simp)

/-- Who is past the connection is so on an outline that permits everything. -/
theorem connection_outline : Outline (initializer ignoreCase) (fun _ => True)
    (fun w l _ => AfterConnection w → l.initializeCalled = true)
    (fun l _ => l.initializeCalled = true) where
  start := fun _ _ h => h.elim
  more := by
    intro w l db w' l' db' hw h hw'
    by_cases hlate : AfterConnection w
    · rw [statics_of_turn hlate h]
      exact hw hlate
    · rcases early_of_turn hlate h with ⟨-, -, hearly⟩ | ⟨-, hcalled, -⟩
      · exact absurd hw' (hearly w' rfl)
      · exact hcalled
  done := by
    intro w l db l' db' hw h
    by_cases hlate : AfterConnection w
    · rw [statics_of_turn hlate h]
      exact hw hlate
    · rcases early_of_turn hlate h with ⟨-, hdone, -⟩ | ⟨-, -, hw'⟩
      · exact absurd rfl hdone
      · exact absurd hw' (by simp)
  turn_before := fun _ _ _ h => h
  turn_after := fun _ _ h => h
  other_before := fun _ _ _ _ h => h
  other_after := fun _ _ _ h => h

/-- **A process gets stuck** by a thread that fails past the connection. -/
theorem stuck_exec (hsound : Sound P)
    (hcalled : ∀ ph, P.threads i = some ph → Late ph → P.statics.initializeCalled = true)
    (throws : Bool) (db : Database ignoreCase) :
    Stuck (P.exec (initializer ignoreCase) i throws db).1
      ↔ (∃ ph, P.threads i = some ph ∧ Late ph
          ∧ (P.exec (initializer ignoreCase) i throws db).1.threads i = none
          ∧ (P.exec (initializer ignoreCase) i throws db).1.initialized = false) ∨ Stuck P := by
  have hothers : ∀ {j}, j ≠ i →
      (P.exec (initializer ignoreCase) i throws db).1.threads j = P.threads j :=
    fun hji => threads_exec_of_ne hji throws db
  by_cases hlate : ∃ ph, P.threads i = some ph ∧ Late ph
  -- the thread is past the connection: the process is stuck if it goes without the flag set
  · obtain ⟨ph, hi, hph⟩ := hlate
    obtain ⟨hstatics, hafter⟩ := late_exec hi hph throws db
    rw [or_iff_left (not_stuck_of_late hi hph)]
    constructor
    · intro h
      refine ⟨ph, hi, hph, Option.eq_none_iff_forall_ne_some.mpr (fun ph' h' => ?_), h.unset⟩
      exact h.gone i ph' h' (hafter ph' h')
    · rintro ⟨-, -, -, hgone, hunset⟩
      refine ⟨by rw [hstatics]; exact hcalled ph hi hph, hunset, fun j ph' hj hph' => ?_⟩
      by_cases hji : j = i
      · rw [hji, hgone] at hj
        exact absurd hj.symm (Option.some_ne_none ph')
      · rw [hothers hji] at hj
        -- two threads past the connection would both hold the lock
        exact hji (hsound.alone hi hph.inside.critical hj hph'.inside.critical)
  · have hearly : ∀ ph, P.threads i = some ph → ¬ Late ph := fun ph hi hph => hlate ⟨ph, hi, hph⟩
    rw [or_iff_right (fun ⟨ph, hi, hph, _⟩ => hlate ⟨ph, hi, hph⟩)]
    rcases early_exec hearly throws db with
      ⟨hstatics, hflag, hafter⟩ | ⟨hfresh, ph', hi', hph'⟩
    · constructor
      · rintro ⟨hcalled', hunset, hgone⟩
        refine ⟨by rwa [← hstatics], by rwa [← hflag], fun j ph hj => ?_⟩
        by_cases hji : j = i
        · exact hearly ph (hji ▸ hj)
        · exact hgone j ph ((hothers hji).trans hj)
      · rintro ⟨hcalled', hunset, hgone⟩
        refine ⟨by rwa [hstatics], by rwa [hflag], fun j ph hj => ?_⟩
        by_cases hji : j = i
        · exact hafter ph (hji ▸ hj)
        · exact hgone j ph ((hothers hji).symm.trans hj)
    · refine iff_of_false (not_stuck_of_late hi' hph') (fun h => ?_)
      rw [h.called] at hfresh
      exact absurd hfresh (by simp)

/-- What every state reached has: the lock works, and who is past the connection is
connected. -/
def Reached (site : Site ignoreCase) : Prop :=
  AllSound site ∧ ∀ p, Meets (fun w l _ => AfterConnection w → l.initializeCalled = true)
    (fun l _ => l.initializeCalled = true) (site.processes p) site.shared

theorem reached_run (db : Database ignoreCase) (es : List Happening) :
    Reached (run after (start db) es) := by
  refine ⟨sound_reached db es, outline_reached connection_outline db ?_⟩
  exact (guarded_true _ es).mono (fun _ _ _ _ _ => trivial)

theorem Reached.called {site : Site ignoreCase} (h : Reached site) {p : ℕ} {ph : Phase Call}
    (hi : (site.processes p).threads i = some ph) (hph : Late ph) :
    (site.processes p).statics.initializeCalled = true := by
  have hasserts := (h.2 p).threads i ph hi
  cases ph with
  | build w => exact hasserts hph
  | publish => exact hasserts
  | _ => exact hph.elim

/-- **One event.** A process is stuck after a failure past the connection, until it
restarts. -/
theorem stuck_after {site : Site ignoreCase} (hsite : Reached site) (e : Happening) (p : ℕ) :
    Stuck ((after site e).processes p)
      ↔ FailsConnected p site e ∨ Stuck (site.processes p) ∧ ¬ Recycles p site e := by
  rcases processes_step (C := initializer ignoreCase) site e p with
    ⟨rfl, h⟩ | ⟨i, rfl, hi, h⟩ | ⟨i, throws, rfl, h⟩ | ⟨⟨hrecycle, hadvance⟩, h⟩
  · have hcold : ¬ Stuck ((after site (.recycle p)).processes p) := by
      rw [show (after site (.recycle p)).processes p = _ from h]
      exact fun hstuck => absurd hstuck.called Bool.false_ne_true
    refine iff_of_false hcold ?_
    rintro (⟨i, throws, ph, he, -⟩ | ⟨-, hrecycle⟩)
    · simp at he
    · exact hrecycle rfl
  · have hfails : ¬ FailsConnected p site (.arrive p i) := by
      rintro ⟨j, throws, ph, he, -⟩
      simp at he
    have hrecycle : ¬ Recycles p site (.arrive p i : Happening) := by simp [Recycles]
    rw [or_iff_right hfails, and_iff_left hrecycle,
      show (after site (.arrive p i)).processes p = _ from h]
    -- a thread that has only arrived is not past the connection
    constructor
    · refine fun hstuck => ⟨hstuck.called, hstuck.unset, fun j ph hj => ?_⟩
      refine hstuck.gone j ph ?_
      rw [threads_goto, if_neg, hj]
      rintro rfl
      exact absurd (hi.symm.trans hj).symm (Option.some_ne_none ph)
    · refine fun hstuck => ⟨hstuck.called, hstuck.unset, fun j ph hj => ?_⟩
      rw [threads_goto] at hj
      split_ifs at hj with hji
      · exact Option.some.inj hj ▸ not_false
      · exact hstuck.gone j ph hj
  · have hrecycle : ¬ Recycles p site (.advance p i throws : Happening) := by simp [Recycles]
    have hfails : FailsConnected p site (.advance p i throws)
        ↔ ∃ ph, (site.processes p).threads i = some ph ∧ Late ph
          ∧ ((after site (.advance p i throws)).processes p).threads i = none
          ∧ ((after site (.advance p i throws)).processes p).initialized = false := by
      constructor
      · rintro ⟨j, t, ph, he, hrest⟩
        obtain ⟨-, rfl, rfl⟩ := Event.advance.inj he
        exact ⟨ph, hrest⟩
      · rintro ⟨ph, hrest⟩
        exact ⟨i, throws, ph, rfl, hrest⟩
    rw [hfails, and_iff_left hrecycle,
      show (after site (.advance p i throws)).processes p = _ from h]
    exact stuck_exec (hsite.1 p) (fun ph hi hph => hsite.called hi hph) throws site.shared
  · have hfails : ¬ FailsConnected p site e := by
      rintro ⟨j, throws, ph, he, -⟩
      exact hadvance j throws he
    rw [or_iff_right hfails, and_iff_left (show ¬ Recycles p site e from hrecycle),
      show (after site e).processes p = _ from h]

/-- **A process is stuck** exactly when a thread has failed past the connection since the
last restart. -/
theorem stuck_iff (db : Database ignoreCase) (es : List Happening) (p : ℕ) :
    Stuck ((run after (start db) es).processes p)
      ↔ Since after (FailsConnected p) (Recycles p) (start db) es :=
  iff_since (P := fun site : Site ignoreCase => Stuck (site.processes p))
    (fun h => absurd h.called Bool.false_ne_true)
    (fun site e (hsite : Reached site) => stuck_after hsite e p)
    (guarded_of_reached (fun pre _ _ _ => reached_run db pre))

theorem not_passes_of_stuck {site : Site ignoreCase} {p : ℕ} (h : Stuck (site.processes p))
    (e : Happening) : ¬ Passes p site e := by
  rintro ⟨i, ph, -, hi, rfl | ⟨hset, -⟩⟩
  · exact h.gone i _ hi trivial
  · rw [h.unset] at hset
    exact absurd hset Bool.false_ne_true

/-! ## A start that is left alone -/

section Alone

variable {site : Site ignoreCase} {p : ℕ} {q : Providers ignoreCase}

theorem getsThrough_createUser
    (hi : (site.processes p).threads i = some (.build .createUserAndAccount))
    (hdb : site.shared = some q) (hnone : q.users.lookup "admin" = none) :
    GetsThrough (initializer ignoreCase) p i site := by
  have hcreate : createUserAndAccount q "admin" "Passw0rd"
      = some { q with users := q.users.set "admin" ⟨"Passw0rd", none⟩ } := by
    simp only [createUserAndAccount, hnone]
  exact getsThrough_done hi hdb (turn_createUser hcreate)

theorem getsThrough_getUser (hi : (site.processes p).threads i = some (.build .getUser))
    (hdb : site.shared = some q) : GetsThrough (initializer ignoreCase) p i site := by
  by_cases huser : (q.users.lookup "admin").isSome = true
  · exact getsThrough_done hi hdb (turn_getUser huser)
  · refine getsThrough_more hi hdb (turn_getUser_not huser) (fun site' hi' _ hdb' => ?_)
    exact getsThrough_createUser hi' hdb' (Option.not_isSome_iff_eq_none.mp huser)

theorem getsThrough_createRole (hi : (site.processes p).threads i = some (.build .createRole))
    (hdb : site.shared = some q) (hrole : "Admin" ∉ q.roles) :
    GetsThrough (initializer ignoreCase) p i site := by
  cases hcreate : createRole q "Admin" with
  | none =>
    rw [createRole, if_neg hrole] at hcreate
    exact absurd hcreate (by simp)
  | some q' =>
    refine getsThrough_more hi hdb (turn_createRole hcreate) (fun site' hi' _ hdb' => ?_)
    exact getsThrough_getUser hi' hdb'

theorem getsThrough_roleExists (hi : (site.processes p).threads i = some (.build .roleExists))
    (hdb : site.shared = some q) : GetsThrough (initializer ignoreCase) p i site := by
  by_cases hrole : "Admin" ∈ q.roles
  · refine getsThrough_more hi hdb (turn_roleExists hrole) (fun site' hi' _ hdb' => ?_)
    exact getsThrough_getUser hi' hdb'
  · refine getsThrough_more hi hdb (turn_roleExists_not hrole) (fun site' hi' _ hdb' => ?_)
    exact getsThrough_createRole hi' hdb' hrole

theorem getsThrough_connect
    (hi : (site.processes p).threads i = some (.build .initializeDatabaseConnection))
    (hdb : site.shared = some q) (hfresh : (site.processes p).statics.initializeCalled = false) :
    GetsThrough (initializer ignoreCase) p i site := by
  refine getsThrough_more hi hdb (turn_connect hfresh) (fun site' hi' _ hdb' => ?_)
  exact getsThrough_roleExists hi' hdb'

/-- **The constructor on its own** succeeds on any database, when nobody has connected. -/
theorem getsThrough_start (hi : (site.processes p).threads i = some (.build .databaseExists))
    (hfresh : (site.processes p).statics.initializeCalled = false) :
    GetsThrough (initializer ignoreCase) p i site := by
  cases hdb : site.shared with
  | some q =>
    have hturn : turn .databaseExists (site.processes p).statics (some q)
        = (.more .initializeDatabaseConnection, (site.processes p).statics, some q) := rfl
    refine getsThrough_more hi hdb hturn (fun site' hi' hl' hdb' => ?_)
    exact getsThrough_connect hi' hdb' (by rw [hl', hfresh])
  | none =>
    have hexists : turn .databaseExists (site.processes p).statics (none : Database ignoreCase)
        = (.more .createDatabase, (site.processes p).statics, none) := rfl
    refine getsThrough_more hi hdb hexists (fun site₁ hi₁ hl₁ hdb₁ => ?_)
    have hcreate : turn .createDatabase (site₁.processes p).statics (none : Database ignoreCase)
        = (.more .initializeDatabaseConnection, (site₁.processes p).statics,
          some emptyDatabase) := rfl
    refine getsThrough_more hi₁ hdb₁ hcreate (fun site₂ hi₂ hl₂ hdb₂ => ?_)
    exact getsThrough_connect hi₂ hdb₂ (by rw [hl₂, hl₁, hfresh])

/-- In a process where nothing goes on, a request gets through unless the process is stuck. -/
theorem passes_of_quiet (hsound : Sound (site.processes p))
    (hquiet : ∀ i, (site.processes p).threads i = none) (hstuck : ¬ Stuck (site.processes p)) :
    ∃ es e, (∀ e' ∈ es ++ [e], e' ≠ .recycle p) ∧ Passes p (run after site es) e := by
  -- the lock is free, as its holder would be a thread
  have hfree : (site.processes p).holder = none := by
    refine Option.eq_none_iff_forall_ne_some.mpr (fun i hi => ?_)
    obtain ⟨ph, hthread, -⟩ := hsound.present i hi
    exact absurd ((hquiet i).symm.trans hthread).symm (Option.some_ne_none ph)
  -- the request arrives
  have hself : (after site (.arrive p 0)).processes p = (site.processes p).goto 0 .read := by
    rw [show after site (.arrive p 0) = _ from step_arrive_free (hquiet 0)]
    exact Function.update_self p _ site.processes
  have hread : ((after site (.arrive p 0)).processes p).threads 0 = some .read := by
    rw [hself, threads_goto, if_pos rfl]
  have hthrough : GetsThrough (initializer ignoreCase) p 0 (after site (.arrive p 0)) := by
    -- with the flag set it goes on at once; unset, nobody has connected and the start succeeds
    by_cases hset : (site.processes p).initialized = true
    · exact getsThrough_set (by rw [hself]; exact hset) hread
    · have hunset : (site.processes p).initialized = false := Bool.eq_false_iff.mpr hset
      have hfresh : (site.processes p).statics.initializeCalled = false := by
        refine Bool.eq_false_iff.mpr (fun hcalled => hstuck ⟨hcalled, hunset, fun i ph hi => ?_⟩)
        exact absurd ((hquiet i).symm.trans hi).symm (Option.some_ne_none ph)
      refine getsThrough_unset (by rw [hself]; exact hunset) (by rw [hself]; exact hfree) hread
        (fun site' hi' hl' _ => getsThrough_start hi' ?_)
      rw [hl', hself]
      exact hfresh
  obtain ⟨n, hn⟩ := hthrough
  refine ⟨.arrive p 0 :: List.replicate n (.advance p 0 false), .advance p 0 false, ?_, hn⟩
  intro e' he'
  rcases List.mem_append.mp he' with h | h
  · rcases List.mem_cons.mp h with rfl | h
    · simp
    · rw [List.eq_of_mem_replicate h]
      simp
  · rw [List.mem_singleton.mp h]
    simp

end Alone

/-- **When a failed start is made up for.** After any run that leaves nothing going on in a
process, that process can let a request through without a restart if and only if, since its
last restart, no constructor has failed there after it had connected the providers. -/
theorem recovers_iff (db : Database ignoreCase) (es : List Happening) (p : ℕ)
    (hquiet : ∀ i, ((run after (start db) es).processes p).threads i = none) :
    (∃ es' e, (∀ e' ∈ es' ++ [e], e' ≠ .recycle p)
        ∧ Passes p (run after (run after (start db) es) es') e)
      ↔ ¬ Since after (FailsConnected p) (Recycles p) (start db) es := by
  -- being stuck is what cannot be told from the outside; it outlasts everything but a restart
  constructor
  · rintro ⟨es', e, hes', he⟩ hsince
    have hstill : Since after (FailsConnected p) (Recycles p) (start db) (es ++ es') :=
      hsince.append (fun e' he' _ => hes' e' (List.mem_append_left [e] he'))
    rw [← stuck_iff, run_append] at hstill
    exact not_passes_of_stuck hstill e he
  · intro hsince
    rw [← stuck_iff] at hsince
    exact passes_of_quiet (sound_reached db es p) hquiet hsince

/-- A start that throws right after it has connected. -/
def failedStart : List Happening := request 0 6 ++ [.advance 0 0 true]

theorem failedStart_quiet (i : ℕ) :
    ((run after (start nothing) failedStart).processes 0).threads i = none := by
  cases i with
  | zero => rfl
  | succ n => rfl

theorem failedStart_fails :
    Since after (FailsConnected 0) (Recycles 0) (start nothing) failedStart := by
  rw [failedStart, since_concat]
  exact Or.inl ⟨0, true, .build .roleExists, rfl, rfl, trivial, rfl, rfl⟩

/-- No request gets through again after it. -/
theorem recovers_not : ¬ ∃ es' e, (∀ e' ∈ es' ++ [e], e' ≠ .recycle 0)
    ∧ Passes 0 (run after (run after (start nothing) failedStart) es') e :=
  (recovers_iff nothing failedStart 0 failedStart_quiet).not.mpr (not_not.mpr failedStart_fails)

/-! ## The passwords -/

/-- A start gives `admin` the first password, as there is no such user. -/
def GivesFirst (u pw : String) (site : Site ignoreCase) (e : Happening) : Prop :=
  ∃ p i, e = .advance p i false
    ∧ (site.processes p).threads i = some (.build .createUserAndAccount)
    ∧ ignoreCase u = ignoreCase "admin" ∧ pw = "Passw0rd" ∧ passwordIn site.shared u = none

/-- The rest of the site gives a user a password: there is no such user yet, or the call
presents the password in force. -/
def GivesLater (u pw : String) (site : Site ignoreCase) (e : Happening) : Prop :=
  ∃ v, ignoreCase u = ignoreCase v
    ∧ (e = .other (.createUserAndAccount v pw) ∧ passwordIn site.shared u = none
      ∨ ∃ old, e = .other (.changePassword v old pw) ∧ passwordIn site.shared u = some old)

theorem passwordIn_some (p : Providers ignoreCase) (u : String) :
    passwordIn (some p) u = passwordOf p u := rfl

/-- A call of the constructor gives no other password than the first one of `admin`. -/
theorem passwordIn_turn {w : Call} {l : WebSecurity} {db : Database ignoreCase} {u pw : String}
    (h : passwordIn (turn w l db).2.2 u = some pw) :
    passwordIn db u = some pw
    ∨ w = .createUserAndAccount ∧ ignoreCase u = ignoreCase "admin" ∧ pw = "Passw0rd"
      ∧ passwordIn db u = none := by
  -- of the four things a call does to the database, one gives a password
  rcases turn_cases w l db with hsame | ⟨-, -, hnew⟩ | ⟨p, p', -, rfl, hcreate, hnew⟩
    | ⟨p, p', rfl, rfl, hcreate, hnew⟩
  · rw [hsame] at h
    exact Or.inl h
  · rw [hnew] at h
    have hempty : passwordIn (some (emptyDatabase : Providers ignoreCase)) u = none := rfl
    rw [hempty] at h
    exact absurd h.symm (Option.some_ne_none pw)
  · obtain ⟨-, husers, -⟩ := createRole_eq_some hcreate
    rw [hnew, passwordIn_some, passwordOf, husers] at h
    exact Or.inl h
  · obtain ⟨hnone, rfl⟩ := createUserAndAccount_eq_some.mp hcreate
    rw [hnew, passwordIn_some, passwordOf_set] at h
    split_ifs at h with hu
    · refine Or.inr ⟨rfl, hu, (Option.some.inj h).symm, ?_⟩
      rw [passwordIn_some, passwordOf_congr p hu, hnone]
    · exact Or.inl h

/-- One of the rest of the site gives a password that it may give. -/
theorem passwordIn_exec {c : AccountCall} {p : Providers ignoreCase} {u pw : String}
    (h : passwordOf (c.exec p) u = some pw) :
    passwordOf p u = some pw
    ∨ ∃ v, ignoreCase u = ignoreCase v
      ∧ (c = .createUserAndAccount v pw ∧ passwordOf p u = none
        ∨ ∃ old, c = .changePassword v old pw ∧ passwordOf p u = some old) := by
  rcases exec_cases c p with hsame | ⟨v, r, hset, hgives⟩ | ⟨v, -, hgone⟩
  · rw [hsame] at h
    exact Or.inl h
  · rw [hset, passwordOf_set] at h
    split_ifs at h with hu
    · obtain rfl := Option.some.inj h
      refine Or.inr ⟨v, hu, ?_⟩
      rw [passwordOf_congr p hu]
      exact hgives
    · exact Or.inl h
  · rw [hgone, passwordOf_remove] at h
    split_ifs at h with hu
    exact Or.inl h

/-- **One event.** -/
theorem passwordIn_after {site : Site ignoreCase} {e : Happening} {u pw : String}
    (h : passwordIn (after site e).shared u = some pw) :
    (GivesFirst u pw site e ∨ GivesLater u pw site e) ∨ passwordIn site.shared u = some pw := by
  cases e with
  | arrive p i =>
    right
    cases hi : (site.processes p).threads i with
    | none => rwa [show after site (.arrive p i) = _ from step_arrive_free hi] at h
    | some ph => rwa [show after site (.arrive p i) = _ from step_arrive_taken hi] at h
  | recycle p => exact Or.inr h
  | advance p i throws =>
    have hshared : (after site (.advance p i throws)).shared
        = ((site.processes p).exec (initializer ignoreCase) i throws site.shared).2 := rfl
    rw [hshared] at h
    -- a thread changes the database in a call of the constructor only
    rcases exec_turn (C := initializer ignoreCase) (site.processes p) i throws site.shared with
      ⟨-, -, hsame⟩ | ⟨w, rfl, hi, -, hturn⟩
    · rw [hsame] at h
      exact Or.inr h
    · rw [hturn] at h
      rcases passwordIn_turn h with hold | ⟨rfl, hu, hpw, hnone⟩
      · exact Or.inr hold
      · exact Or.inl (Or.inl ⟨p, i, rfl, hi, hu, hpw, hnone⟩)
  | other c =>
    have hshared : (after site (.other c)).shared = site.shared.map c.exec := rfl
    cases hdb : site.shared with
    | none =>
      rw [hshared, hdb] at h
      exact absurd h.symm (Option.some_ne_none pw)
    | some q =>
      rw [hshared, hdb] at h
      rcases passwordIn_exec h with hold | ⟨v, hu, hgives⟩
      · exact Or.inr hold
      · refine Or.inl (Or.inr ⟨v, hu, ?_⟩)
        rw [hdb]
        rcases hgives with ⟨rfl, hnone⟩ | ⟨old, rfl, hold⟩
        · exact Or.inl ⟨rfl, hnone⟩
        · exact Or.inr ⟨old, rfl, hold⟩

/-- **Where a password comes from**, with any number of starts in between. In every run
from a database without the user, the password that a user has goes back to an event that
gave it: a start, for `admin` while there was none, or a call that created the user with it
or presented the one before; and it has been the user's password ever since. A restart
gives no password to a user who has one. -/
theorem password_origin (db : Database ignoreCase) {u pw : String} (hdb : passwordIn db u = none)
    (es : List Happening) (h : passwordIn (run after (start db) es).shared u = some pw) :
    Since after
      (fun site e => (GivesFirst u pw site e ∨ GivesLater u pw site e)
        ∧ passwordIn (after site e).shared u = some pw)
      (fun site e => ¬ passwordIn (after site e).shared u = some pw) (start db) es := by
  refine since_of_step (P := fun site : Site ignoreCase => passwordIn site.shared u = some pw)
    ?_ (fun site e _ hstep => passwordIn_after hstep) (guarded_true (start db) es) h
  intro hstart
  exact absurd (hdb.symm.trans hstart).symm (Option.some_ne_none pw)

/-- The password of `admin` after the first request. -/
theorem password_origin_admin :
    Since after
      (fun site e => (GivesFirst "admin" "Passw0rd" site e ∨ GivesLater "admin" "Passw0rd" site e)
        ∧ passwordIn (after site e).shared "admin" = some "Passw0rd")
      (fun site e => ¬ passwordIn (after site e).shared "admin" = some "Passw0rd")
      (start nothing) (request 0 10) :=
  password_origin nothing rfl (request 0 10) (by decide +kernel)

end CgGuide.MembershipStarts
