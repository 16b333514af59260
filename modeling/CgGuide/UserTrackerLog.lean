/-
The line `UserTrackerLogAttribute` writes for a request.

The filter puts the fields of the request behind each other, each with its name before it
and a bar behind it, and nothing is escaped. Between the user name and the route id, which
are free texts, stand the fields that hold no bar. So two requests have one line where the
text of a user name goes on as the other request's line does, through its fields and into
its route id, and nowhere else (`determined_iff`).
-/
import CgGuide.DotNet
import CgGuide.Languages

set_option autoImplicit false

namespace CgGuide.UserTrackerLog

open CgGuide.DotNet CgGuide.Languages

/-! ## The filter -/

/-- What the filter reads of its `ActionExecutedContext`: two names, the name of the user,
the time as text, and the route value `id` as text, if there is one. -/
structure ActionExecutedContext where
  controllerName : String
  actionName : String
  userName : String
  timeStamp : String
  id : Option String

/-- The text of the route value; empty without one. -/
def ActionExecutedContext.routeId (filterContext : ActionExecutedContext) : String :=
  match filterContext.id with
  | none => ""
  | some id => id

/-- The text that `OnActionExecuted` gives to the logger. -/
def message (filterContext : ActionExecutedContext) : String :=
  let message := "UserName=" ++ (filterContext.userName ++ "|")
    ++ "Controller=" ++ (filterContext.controllerName ++ "|")
    ++ "Action=" ++ (filterContext.actionName ++ "|")
    ++ "TimeStamp=" ++ (filterContext.timeStamp ++ "|")
  if !isNullOrEmpty (some filterContext.routeId) then
    message ++ "RouteId=" ++ filterContext.routeId
  else message

/-- The names of a controller and an action are identifiers, and times have no bar. -/
structure Plain (a : ActionExecutedContext) : Prop where
  controllerName : '|' ∉ a.controllerName.toList
  actionName : '|' ∉ a.actionName.toList
  timeStamp : '|' ∉ a.timeStamp.toList

/-- The fields that the line is about. -/
structure SameFields (a b : ActionExecutedContext) : Prop where
  userName : a.userName = b.userName
  controllerName : a.controllerName = b.controllerName
  actionName : a.actionName = b.actionName
  timeStamp : a.timeStamp = b.timeStamp
  routeId : a.routeId = b.routeId

/-! ## The parts of a line -/

/-- What stands between the user name and the route id. -/
def marks (a : ActionExecutedContext) : String :=
  "|Controller=" ++ a.controllerName ++ "|Action=" ++ a.actionName ++ "|TimeStamp=" ++ a.timeStamp
    ++ "|"

/-- The end of the line. -/
def routePart (a : ActionExecutedContext) : String :=
  if a.routeId = "" then "" else "RouteId=" ++ a.routeId

theorem message_eq (a : ActionExecutedContext) :
    message a = "UserName=" ++ a.userName ++ marks a ++ routePart a := by
  have hcontroller : "|Controller=" = "|" ++ "Controller=" := by decide
  have haction : "|Action=" = "|" ++ "Action=" := by decide
  have htime : "|TimeStamp=" = "|" ++ "TimeStamp=" := by decide
  unfold message marks routePart
  simp only [isNullOrEmpty_some, hcontroller, haction, htime, String.append_assoc]
  by_cases hid : a.routeId = ""
  · simp only [hid, beq_self_eq_true, Bool.not_true, Bool.false_eq_true, if_false, if_true,
      String.append_empty]
  · simp only [hid, Bool.not_eq_true', beq_eq_false_iff_ne, ne_eq, not_false_eq_true, if_true,
      if_false]

/-- The line behind the user name, field by field. -/
theorem toList_marks (a : ActionExecutedContext) (rest : List Char) :
    (marks a).toList ++ rest
      = '|' :: (("Controller=".toList ++ a.controllerName.toList) ++
          '|' :: (("Action=".toList ++ a.actionName.toList) ++
            '|' :: (("TimeStamp=".toList ++ a.timeStamp.toList) ++ '|' :: rest))) := by
  have hcontroller : "|Controller=".toList = '|' :: "Controller=".toList := by decide
  have haction : "|Action=".toList = '|' :: "Action=".toList := by decide
  have htime : "|TimeStamp=".toList = '|' :: "TimeStamp=".toList := by decide
  have hend : "|".toList = ['|'] := by decide
  unfold marks
  simp only [String.toList_append, hcontroller, haction, htime, hend, List.append_assoc,
    List.cons_append, List.nil_append]

/-- Fields with their names hold no bar. -/
structure Barless (a : ActionExecutedContext) : Prop where
  controllerName : '|' ∉ "Controller=".toList ++ a.controllerName.toList
  actionName : '|' ∉ "Action=".toList ++ a.actionName.toList
  timeStamp : '|' ∉ "TimeStamp=".toList ++ a.timeStamp.toList

theorem barless_of_plain {a : ActionExecutedContext} (h : Plain a) : Barless a := by
  refine ⟨?_, ?_, ?_⟩
  · rw [List.mem_append]
    exact not_or.mpr ⟨by decide, h.controllerName⟩
  · rw [List.mem_append]
    exact not_or.mpr ⟨by decide, h.actionName⟩
  · rw [List.mem_append]
    exact not_or.mpr ⟨by decide, h.timeStamp⟩

theorem routePart_inj {a b : ActionExecutedContext} (h : routePart a = routePart b) :
    a.routeId = b.routeId := by
  unfold routePart at h
  rw [← String.toList_inj] at h
  by_cases ha : a.routeId = ""
  · by_cases hb : b.routeId = ""
    · rw [ha, hb]
    · simp [ha, hb] at h
  · by_cases hb : b.routeId = ""
    · simp [ha, hb] at h
    · rw [if_neg ha, if_neg hb, String.toList_append, String.toList_append] at h
      exact String.toList_injective (List.append_cancel_left h)

/-! ## Two lines that are one -/

/-- The user name of `b` goes on as the line of `a` does, into the route id of `a`, which
ends as the line of `b` does. -/
def Imitates (a b : ActionExecutedContext) : Prop :=
  ∃ x : String, b.userName = a.userName ++ marks a ++ "RouteId=" ++ x
    ∧ a.routeId = x ++ marks b ++ routePart b

/-- With one user name the lines are read field by field. -/
theorem sameFields_of_userName {a b : ActionExecutedContext} (ha : Plain a) (hb : Plain b)
    (hname : a.userName = b.userName)
    (hline : (marks a).toList ++ (routePart a).toList
      = (marks b).toList ++ (routePart b).toList) : SameFields a b := by
  have ha' := barless_of_plain ha
  have hb' := barless_of_plain hb
  rw [toList_marks, toList_marks] at hline
  obtain ⟨hcontroller, hline⟩ := field_inj ha'.controllerName hb'.controllerName
    (List.cons.inj hline).2
  obtain ⟨haction, hline⟩ := field_inj ha'.actionName hb'.actionName hline
  obtain ⟨htime, hline⟩ := field_inj ha'.timeStamp hb'.timeStamp hline
  exact ⟨hname, String.toList_injective (List.append_cancel_left hcontroller),
    String.toList_injective (List.append_cancel_left haction),
    String.toList_injective (List.append_cancel_left htime),
    routePart_inj (String.toList_injective hline)⟩

/-- A route part with a bar in it is the mark and the route id, and the bar is in the id. -/
theorem routePart_cases {a : ActionExecutedContext} {r t : List Char}
    (h : (routePart a).toList = r ++ '|' :: t) :
    ∃ x : List Char, r = "RouteId=".toList ++ x ∧ a.routeId.toList = x ++ '|' :: t := by
  unfold routePart at h
  by_cases hid : a.routeId = ""
  · simp [hid] at h
  rw [if_neg hid, String.toList_append] at h
  rcases List.append_eq_append_iff.mp h with ⟨x, hr, hx⟩ | ⟨l, hmark, hl⟩
  · exact ⟨x, hr, hx⟩
  · rcases List.cons_eq_append_iff.mp hl with ⟨rfl, ht⟩ | ⟨l', rfl, -⟩
    · rw [List.append_nil] at hmark
      exact ⟨[], by rw [hmark, List.append_nil], ht⟩
    · -- the mark holds no bar
      have hbar : '|' ∈ "RouteId=".toList := by
        rw [hmark]
        exact List.mem_append_right r List.mem_cons_self
      exact absurd hbar (by decide)

/-- **A longer user name** has taken all the fields of the other line in. -/
theorem imitates_of_longer {a b : ActionExecutedContext} (ha : Plain a)
    {r : List Char} (hr : r ≠ []) (hname : b.userName.toList = a.userName.toList ++ r)
    (hline : (marks a).toList ++ (routePart a).toList
      = r ++ ((marks b).toList ++ (routePart b).toList)) : Imitates a b := by
  have ha' := barless_of_plain ha
  have hline' := hline
  rw [toList_marks, toList_marks] at hline'
  rcases List.cons_eq_append_iff.mp hline' with ⟨hnil, -⟩ | ⟨r₀, rfl, hline₀⟩
  · exact absurd hnil hr
  -- each field in turn: what begins behind it in the line of `b` is not what does in that of `a`
  rcases field_cases ha'.controllerName hline₀ with ⟨-, hnext⟩ | ⟨r₁, rfl, hline₁⟩
  · simp at hnext
  rcases field_cases ha'.actionName hline₁ with ⟨-, hnext⟩ | ⟨r₂, rfl, hline₂⟩
  · simp at hnext
  rcases field_cases ha'.timeStamp hline₂ with ⟨-, hnext⟩ | ⟨r₃, rfl, hline₃⟩
  · unfold routePart at hnext
    split at hnext
    · simp at hnext
    · simp at hnext
  obtain ⟨x, rfl, hid⟩ := routePart_cases hline₃
  refine ⟨String.ofList x, ?_, ?_⟩
  · apply String.toList_injective
    rw [hname]
    simp only [String.toList_append, String.toList_ofList, List.append_assoc, toList_marks,
      List.cons_append]
  · apply String.toList_injective
    rw [hid, ← toList_marks, String.toList_append, String.toList_append, String.toList_ofList,
      List.append_assoc]

/-- Where one imitates the other, the lines are one. -/
theorem message_eq_of_imitates {a b : ActionExecutedContext} (h : Imitates a b) :
    message a = message b := by
  obtain ⟨x, hname, hid⟩ := h
  have hne : a.routeId ≠ "" := by
    intro hempty
    rw [hempty, ← String.toList_inj] at hid
    simp only [String.toList_append, List.append_assoc, toList_marks] at hid
    simp at hid
  rw [message_eq, message_eq, hname, routePart, if_neg hne, hid]
  simp only [String.append_assoc]

/-- A name that goes on is longer. -/
theorem not_imitates_of_userName {a b : ActionExecutedContext} (h : a.userName = b.userName) :
    ¬ Imitates a b := by
  rintro ⟨x, hname, -⟩
  have hlength := congrArg (fun s : String => s.toList.length) (h.trans hname)
  simp only [String.toList_append, List.append_assoc, toList_marks, List.length_append,
    List.length_cons] at hlength
  omega

/-- **Two requests with one line** have the same fields, or one imitates the other. -/
theorem sameFields_or_imitates {a b : ActionExecutedContext} (ha : Plain a) (hb : Plain b)
    (h : message a = message b) : SameFields a b ∨ Imitates a b ∨ Imitates b a := by
  rw [message_eq, message_eq, ← String.toList_inj] at h
  simp only [String.toList_append, List.append_assoc] at h
  have hline := List.append_cancel_left h
  rcases List.append_eq_append_iff.mp hline with ⟨r, hname, hrest⟩ | ⟨r, hname, hrest⟩
  · by_cases hr : r = []
    · subst hr
      rw [List.append_nil] at hname
      rw [List.nil_append] at hrest
      exact Or.inl (sameFields_of_userName ha hb (String.toList_injective hname.symm) hrest)
    · exact Or.inr (Or.inl (imitates_of_longer ha hr hname hrest))
  · by_cases hr : r = []
    · subst hr
      rw [List.append_nil] at hname
      rw [List.nil_append] at hrest
      exact Or.inl (sameFields_of_userName ha hb (String.toList_injective hname) hrest.symm)
    · exact Or.inr (Or.inr (imitates_of_longer hb hr hname hrest))

/-- **The line determines the fields** exactly where neither request imitates the other. -/
theorem determined_iff {a b : ActionExecutedContext} (ha : Plain a) (hb : Plain b) :
    (message a = message b → SameFields a b) ↔ ¬ Imitates a b ∧ ¬ Imitates b a := by
  constructor
  · intro h
    refine ⟨fun himitates => ?_, fun himitates => ?_⟩
    · have hsame := h (message_eq_of_imitates himitates)
      exact not_imitates_of_userName hsame.userName himitates
    · have hsame := h (message_eq_of_imitates himitates).symm
      exact not_imitates_of_userName hsame.userName.symm himitates
  · rintro ⟨hab, hba⟩ h
    exact (sameFields_or_imitates ha hb h).resolve_right (not_or.mpr ⟨hab, hba⟩)

/-- A request of the home page. -/
def homeIndex (userName : String) (id : Option String) : ActionExecutedContext where
  controllerName := "Home"
  actionName := "Index"
  userName := userName
  timeStamp := "01/02/2013 10:00:00"
  id := id

theorem plain_homeIndex (userName : String) (id : Option String) :
    Plain (homeIndex userName id) where
  controllerName := by
    show '|' ∉ "Home".toList
    decide
  actionName := by
    show '|' ∉ "Index".toList
    decide
  timeStamp := by
    show '|' ∉ "01/02/2013 10:00:00".toList
    decide

/-- A route id that is not there and an empty one are one to the line. -/
theorem determined_without_id :
    SameFields (homeIndex "ana" none) (homeIndex "ana" (some "")) :=
  (determined_iff (plain_homeIndex "ana" none) (plain_homeIndex "ana" (some ""))).mpr
    ⟨not_imitates_of_userName rfl, not_imitates_of_userName rfl⟩ rfl

/-- A user whose name is the beginning of another user's line. -/
theorem name_imitates_line :
    ¬ ∀ a b : ActionExecutedContext, Plain a → Plain b → message a = message b →
      SameFields a b := by
  intro h
  have hsame := h
    (homeIndex "ana" (some "1|Controller=Home|Action=Index|TimeStamp=01/02/2013 10:00:00|"))
    (homeIndex "ana|Controller=Home|Action=Index|TimeStamp=01/02/2013 10:00:00|RouteId=1" none)
    (plain_homeIndex _ _) (plain_homeIndex _ _) (by decide +kernel)
  exact absurd hsame.userName (by decide)

end CgGuide.UserTrackerLog
