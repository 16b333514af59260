/-
What happens to an exception that an action throws.

Two places answer and log it: the `HandleAndLogError` filters of the action, which ASP.NET
asks one after the other, and `Application_Error`, which gets what they leave, what they
throw themselves, or what their own error page throws. The filters share one context and
each of them looks at it first, so the first one that takes the exception is the only one
that does anything (`invokeExceptionFilters_eq`).

What it does depends on its `Logger`, which Autofac sets if the container has a
registration for it. There is one for the `ILog` of log4net, and the filters have that of
Common.Logging: so the first one that takes an exception throws another, and everything
ends in `Application_Error` (`answer_webModule`).

`Application_Error` shows its page through `ErrorController`, which is behind the global
`Authorize` filter like any other controller.
-/
import Mathlib.Data.Int.Notation
import Mathlib.Data.List.Basic

set_option autoImplicit false

namespace CgGuide.ErrorHandling

/-! ## Exceptions and their codes -/

/-- What `GetHttpCode` and the handlers look at in the type of an exception. -/
inductive ExceptionKind
  | http (httpCode : ℤ)
  | unauthorizedAccess
  | pathTooLong
  | other (typeName : String)
deriving DecidableEq

/-- An exception with its message and its `InnerException`, if it has one. -/
inductive Exception
  | root (kind : ExceptionKind) (message : String)
  | wrapping (kind : ExceptionKind) (message : String) (innerException : Exception)
deriving DecidableEq

namespace Exception

def kind : Exception → ExceptionKind
  | root kind _ => kind
  | wrapping kind _ _ => kind

def message : Exception → String
  | root _ message => message
  | wrapping _ message _ => message

/-- The code of a kind of exception, where it has one of its own. -/
def ownCode : ExceptionKind → Option ℤ
  | .http httpCode => if 0 < httpCode then some httpCode else none
  | .unauthorizedAccess => some 401
  | .pathTooLong => some 414
  | .other _ => none

/-- `HttpException.GetHttpCode`: the code of the first exception that has one, from the
outside in. -/
def getHttpCode : Exception → ℤ
  | root kind _ => (ownCode kind).getD 500
  | wrapping kind _ innerException => (ownCode kind).getD innerException.getHttpCode

/-- `ex is HttpException`. -/
def isHttpException (e : Exception) : Bool :=
  match e.kind with
  | .http _ => true
  | _ => false

/-- An `HttpException` without a code has that of what it wraps. -/
theorem getHttpCode_wrapping_http (message : String) (e : Exception) :
    (wrapping (.http 0) message e).getHttpCode = e.getHttpCode := rfl

/-- What the runtime throws for a call on null; the text is its own. -/
def nullReference (text : String) : Exception := root (.other "NullReferenceException") text

end Exception

/-! ## The loggers -/

/-- The two interfaces of the name `ILog`. -/
inductive LogInterface
  | commonLogging
  | log4net
deriving DecidableEq

/-- The registrations of `WebModule`. -/
def webModule : List LogInterface := [.log4net]

/-- Whether the `Logger` of a filter is set: Autofac sets a property whose type is registered,
and leaves the others null. -/
def hasLogger (registrations : List LogInterface) : Bool :=
  decide (.commonLogging ∈ registrations)

/-! ## Error pages -/

/-- `HandleErrorInfo`, whose constructor throws on an empty name. -/
structure HandleErrorInfo where
  exception : Exception
  controllerName : String
  actionName : String
  controllerName_ne : controllerName ≠ ""
  actionName_ne : actionName ≠ ""

/-- What is sent instead of the result of the action. -/
inductive Page
  | json (error : Bool) (message : String)
  | view (viewName masterName : String) (model : HandleErrorInfo)
  | login

/-- A request that an action answers; its route has a controller and an action. -/
structure Request where
  user : Option String
  isCustomErrorEnabled : Bool
  xRequestedWith : Option String
  controllerName : String
  actionName : String
  controllerName_ne : controllerName ≠ ""
  actionName_ne : actionName ≠ ""

structure Response where
  statusCode : ℤ
  page : Page

/-! ## The filter -/

/-- A `HandleAndLogError` attribute: its `ExceptionType`, by what is an instance of it, and
its view. -/
structure HandleAndLogError where
  isInstanceOfType : Exception → Bool
  view : String
  master : String

/-- `ExceptionContext`, with the log. -/
structure ExceptionContext where
  request : Request
  exception : Exception
  exceptionHandled : Bool
  result : Option Page
  statusCode : ℤ
  log : List String

/-- The result that a filter puts in the place of the action's. -/
def HandleAndLogError.resultOf (f : HandleAndLogError) (r : Request) (e : Exception) : Page :=
  if r.xRequestedWith = some "XMLHttpRequest" then .json true e.message
  else .view f.view f.master
    ⟨e, r.controllerName, r.actionName, r.controllerName_ne, r.actionName_ne⟩

section Filters

variable (registrations : List LogInterface) (nullText : String)

/-- `OnException`: what it makes of the context, and what it throws. -/
def HandleAndLogError.onException (f : HandleAndLogError) (filterContext : ExceptionContext) :
    ExceptionContext × Option Exception :=
  if filterContext.exceptionHandled || !filterContext.request.isCustomErrorEnabled then
    (filterContext, none)
  else if (Exception.wrapping (.http 0) "" filterContext.exception).getHttpCode ≠ 500 then
    (filterContext, none)
  else if !f.isInstanceOfType filterContext.exception then (filterContext, none)
  else
    let answered := { filterContext with
      result := some (f.resultOf filterContext.request filterContext.exception) }
    -- `Logger.Error` comes before the exception counts as handled
    if hasLogger registrations then
      ({ answered with
        log := answered.log ++ [answered.exception.message]
        exceptionHandled := true
        statusCode := 500 }, none)
    else (answered, some (.nullReference nullText))

/-- The filters, one after the other; what one of them throws ends it. -/
def runFilters : List HandleAndLogError → ExceptionContext → ExceptionContext × Option Exception
  | [], filterContext => (filterContext, none)
  | f :: filters, filterContext =>
    match f.onException registrations nullText filterContext with
    | (filterContext, none) => runFilters filters filterContext
    | (filterContext, some thrown) => (filterContext, some thrown)

/-- The filters of an action, in the order in which ASP.NET asks them. -/
def invokeExceptionFilters (filters : List HandleAndLogError) (r : Request) (e : Exception) :
    ExceptionContext × Option Exception :=
  runFilters registrations nullText filters ⟨r, e, false, none, 200, []⟩

end Filters

/-! ## The application -/

/-- The name that `Application_Error` shows; a blank where the route has none. -/
def currentName (value : Option String) : String :=
  match value with
  | none => " "
  | some name => if name = "" then " " else name

/-- `HandleErrorInfo` is never given an empty name. -/
theorem currentName_ne (value : Option String) : currentName value ≠ "" := by
  cases value with
  | none => decide
  | some name =>
    by_cases h : name = ""
    · rw [currentName, if_pos h]
      decide
    · rw [currentName, if_neg h]
      exact h

/-- The action of `ErrorController` that `Application_Error` runs. -/
def errorAction (e : Exception) : String :=
  if e.isHttpException then
    if e.getHttpCode = 404 then "NotFound" else "Index"
  else "Index"

/-- The views of the actions of `ErrorController`. -/
def errorView (action : String) : String := if action = "Index" then "Error" else action

/-- `Application_Error`: its answer, and what it logs, by the logger of log4net. Nobody who is
not signed in gets past the `Authorize` filter: they are sent to the login page. -/
def applicationError (user : Option String) (routeData : Option (Option String × Option String))
    (e : Exception) : Response × List String :=
  let model : HandleErrorInfo := ⟨e, currentName (routeData.bind Prod.fst),
    currentName (routeData.bind Prod.snd), currentName_ne _, currentName_ne _⟩
  let statusCode := if e.isHttpException then e.getHttpCode else 500
  (if user.isNone then ⟨302, .login⟩
    else ⟨statusCode, .view (errorView (errorAction e)) "" model⟩, [e.message])

/-- The page of `Application_Error`. -/
def errorPage (r : Request) (e : Exception) : Response :=
  (applicationError r.user (some (some r.controllerName, some r.actionName)) e).1

section Answers

variable (registrations : List LogInterface) (nullText : String)

/-- The answer to a request whose action throws, and all that is logged. `render` is what
executing a result may throw in its turn. -/
def answer (filters : List HandleAndLogError) (render : Page → Option Exception) (r : Request)
    (e : Exception) : Response × List String :=
  let (filterContext, thrown) := invokeExceptionFilters registrations nullText filters r e
  let unhandled (e : Exception) : Response × List String :=
    let (response, log) :=
      applicationError r.user (some (some r.controllerName, some r.actionName)) e
    (response, filterContext.log ++ log)
  match thrown with
  -- what a filter throws takes the place of the exception
  | some e' => unhandled e'
  | none =>
    -- a handled exception is answered with the result, which is executed after the filters
    match filterContext.exceptionHandled, filterContext.result with
    | true, some result =>
      match render result with
      | none => (⟨filterContext.statusCode, result⟩, filterContext.log)
      | some e' => unhandled e'
    | _, _ => unhandled e

/-! ## The first filter that applies -/

/-- A filter takes an exception. -/
def HandleAndLogError.applies (f : HandleAndLogError) (r : Request) (e : Exception) : Bool :=
  r.isCustomErrorEnabled && decide (e.getHttpCode = 500) && f.isInstanceOfType e

/-- What the filter that takes an exception does: it handles it, or it throws. -/
def HandleAndLogError.taken (f : HandleAndLogError) (r : Request) (e : Exception) :
    ExceptionContext × Option Exception :=
  if hasLogger registrations then
    (⟨r, e, true, some (f.resultOf r e), 500, [e.message]⟩, none)
  else (⟨r, e, false, some (f.resultOf r e), 200, []⟩, some (.nullReference nullText))

theorem onException_handled (f : HandleAndLogError) {filterContext : ExceptionContext}
    (h : filterContext.exceptionHandled = true) :
    f.onException registrations nullText filterContext = (filterContext, none) := by
  rw [HandleAndLogError.onException, h, Bool.true_or, if_pos rfl]

/-- One filter that finds the exception unhandled. -/
theorem onException_unhandled (f : HandleAndLogError) (r : Request) (e : Exception) :
    f.onException registrations nullText ⟨r, e, false, none, 200, []⟩
      = if f.applies r e = true then f.taken registrations nullText r e
        else (⟨r, e, false, none, 200, []⟩, none) := by
  unfold HandleAndLogError.onException HandleAndLogError.applies HandleAndLogError.taken
  dsimp only
  rw [Exception.getHttpCode_wrapping_http, Bool.false_or]
  -- by the three tests of the filter, in its order
  by_cases hcustom : r.isCustomErrorEnabled = true
  · by_cases hcode : e.getHttpCode = 500
    · by_cases htype : f.isInstanceOfType e = true
      · simp [hcustom, hcode, htype]
      · simp [hcustom, hcode, htype]
    · simp [hcustom, hcode]
  · simp [hcustom]

theorem runFilters_handled (filters : List HandleAndLogError) {filterContext : ExceptionContext}
    (h : filterContext.exceptionHandled = true) :
    runFilters registrations nullText filters filterContext = (filterContext, none) := by
  induction filters with
  | nil => rfl
  | cons f filters ih =>
    rw [runFilters, onException_handled registrations nullText f h]
    exact ih

/-- **The first filter that applies does everything**, the others nothing. -/
theorem invokeExceptionFilters_eq (filters : List HandleAndLogError) (r : Request)
    (e : Exception) :
    invokeExceptionFilters registrations nullText filters r e
      = match filters.find? (fun f => f.applies r e) with
        | some f => f.taken registrations nullText r e
        | none => (⟨r, e, false, none, 200, []⟩, none) := by
  unfold invokeExceptionFilters
  induction filters with
  | nil => rfl
  | cons f filters ih =>
    rw [runFilters, onException_unhandled, List.find?_cons]
    by_cases happlies : f.applies r e = true
    · rw [if_pos happlies, happlies]
      dsimp only
      unfold HandleAndLogError.taken
      -- it marks the context, and the rest find it handled, or it throws past them
      by_cases hlogger : hasLogger registrations = true
      · rw [if_pos hlogger]
        dsimp only
        rw [runFilters_handled]
        rfl
      · rw [if_neg hlogger]
    · rw [if_neg happlies, eq_false_of_ne_true happlies]
      exact ih

/-! ## What is logged and answered -/

/-- **The answer, in one place.** -/
theorem answer_eq (filters : List HandleAndLogError) (render : Page → Option Exception)
    (r : Request) (e : Exception) :
    answer registrations nullText filters render r e
      = match filters.find? (fun f => f.applies r e) with
        | none => (errorPage r e, [e.message])
        | some f =>
          if hasLogger registrations then
            match render (f.resultOf r e) with
            | none => (⟨500, f.resultOf r e⟩, [e.message])
            | some e' => (errorPage r e', [e.message, e'.message])
          else (errorPage r (.nullReference nullText), [nullText]) := by
  unfold answer
  rw [invokeExceptionFilters_eq]
  cases filters.find? (fun f => f.applies r e) with
  | none => rfl
  | some f =>
    dsimp only
    rw [HandleAndLogError.taken]
    by_cases hlogger : hasLogger registrations = true
    · rw [if_pos hlogger, if_pos hlogger]
      dsimp only
      cases render (f.resultOf r e) with
      | none => rfl
      | some e' => rfl
    · rw [if_neg hlogger, if_neg hlogger]
      rfl

end Answers

/-- What comes out of the action as the container is: the exception, or what the filter that
takes it throws. -/
def escaping (nullText : String) (filters : List HandleAndLogError) (r : Request)
    (e : Exception) : Exception :=
  if filters.any (fun f => f.applies r e) then .nullReference nullText else e

/-- As the container is, `Application_Error` answers whatever the action and its filters leave. -/
theorem answer_webModule (nullText : String) (filters : List HandleAndLogError)
    (render : Page → Option Exception) (r : Request) (e : Exception) :
    answer webModule nullText filters render r e
      = (errorPage r (escaping nullText filters r e),
          [(escaping nullText filters r e).message]) := by
  have hlogger : hasLogger webModule = false := rfl
  rw [answer_eq, escaping, hlogger]
  cases hfind : filters.find? (fun f => f.applies r e) with
  | none =>
    have hany : filters.any (fun f => f.applies r e) = false := by
      rw [List.any_eq_false]
      exact List.find?_eq_none.mp hfind
    rw [hany]
    rfl
  | some f =>
    have hany : filters.any (fun f => f.applies r e) = true :=
      List.any_eq_true.mpr ⟨f, List.mem_of_find?_eq_some hfind, by
        have h := List.find?_some hfind
        exact h⟩
    rw [hany]
    rfl

/-- **One message for each exception**, whatever filters an action has: that of the exception
if no filter takes it, and else that of the call on the missing logger. -/
theorem logged_once (nullText : String) (filters : List HandleAndLogError)
    (render : Page → Option Exception) (r : Request) (e : Exception) :
    (answer webModule nullText filters render r e).2
      = [if filters.any (fun f => f.applies r e) then nullText else e.message] := by
  rw [answer_webModule, escaping]
  split_ifs
  · rfl
  · rfl

/-- The status that `Application_Error` gives an exception. -/
def statusOf (e : Exception) : ℤ := if e.isHttpException then e.getHttpCode else 500

/-- The page of `Application_Error` for somebody who is signed in. -/
theorem errorPage_signedIn {r : Request} (huser : r.user.isSome = true) (e : Exception) :
    ∃ model, errorPage r e = ⟨statusOf e, .view (errorView (errorAction e)) "" model⟩ := by
  unfold errorPage applicationError
  rw [Option.isNone_eq_false_iff.mpr huser]
  exact ⟨_, rfl⟩

theorem errorView_eq_notFound (e : Exception) :
    errorView (errorAction e) = "NotFound" ↔ e.isHttpException = true ∧ e.getHttpCode = 404 := by
  unfold errorAction
  -- `Index` is shown as `Error`
  by_cases hhttp : e.isHttpException = true
  · by_cases hcode : e.getHttpCode = 404
    · rw [if_pos hhttp, if_pos hcode]
      exact iff_of_true rfl ⟨hhttp, hcode⟩
    · rw [if_pos hhttp, if_neg hcode]
      exact iff_of_false (by decide) (fun h => hcode h.2)
  · rw [if_neg hhttp]
    exact iff_of_false (by decide) (fun h => hhttp h.1)

/-- A filter that applies gives the status of the exception too. -/
theorem code_of_applies {f : HandleAndLogError} {r : Request} {e : Exception}
    (h : f.applies r e = true) : e.getHttpCode = 500 ∧ statusOf e = 500 := by
  rw [HandleAndLogError.applies, Bool.and_eq_true, Bool.and_eq_true, decide_eq_true_iff] at h
  refine ⟨h.1.2, ?_⟩
  rw [statusOf, h.1.2, ite_self]

/-- **The answer does not depend on the filters.** A user who is signed in gets the status of
the exception, and the page `NotFound` for an `HttpException` 404 and for nothing else. -/
theorem answered (nullText : String) (filters : List HandleAndLogError)
    (render : Page → Option Exception) (r : Request) (huser : r.user.isSome = true)
    (e : Exception) :
    (answer webModule nullText filters render r e).1.statusCode = statusOf e
    ∧ ((∃ masterName model, (answer webModule nullText filters render r e).1.page
          = .view "NotFound" masterName model)
      ↔ e.isHttpException = true ∧ e.getHttpCode = 404) := by
  -- a filter takes only exceptions with the code of the one that it throws
  have hescaping : statusOf (escaping nullText filters r e) = statusOf e
      ∧ (errorView (errorAction (escaping nullText filters r e)) = "NotFound"
        ↔ errorView (errorAction e) = "NotFound") := by
    unfold escaping
    by_cases hany : filters.any (fun f => f.applies r e) = true
    · rw [if_pos hany]
      obtain ⟨f, -, happlies⟩ := List.any_eq_true.mp hany
      obtain ⟨hcode, hstatus⟩ := code_of_applies happlies
      rw [hstatus, errorView_eq_notFound e]
      have hpage : errorView (errorAction (.nullReference nullText)) = "Error" := rfl
      rw [hpage]
      exact ⟨rfl, iff_of_false (by decide) (fun h => by omega)⟩
    · rw [if_neg hany]
      exact ⟨rfl, Iff.rfl⟩
  obtain ⟨model, hpage⟩ := errorPage_signedIn huser (escaping nullText filters r e)
  rw [answer_webModule, hpage, ← errorView_eq_notFound, ← hescaping.2]
  refine ⟨hescaping.1, ?_⟩
  constructor
  · rintro ⟨masterName, model', h⟩
    exact (Page.view.inj h).1
  · intro h
    exact ⟨"", model, by rw [h]⟩

/-- A filter with the default view, and an exception that wraps an `HttpException`. -/
theorem answered_wrapped :
    (answer webModule "Object reference not set" [⟨fun _ => true, "Error", ""⟩] (fun _ => none)
      ⟨some "ann", true, none, "Routes", "Index", by decide, by decide⟩
      (.wrapping (.other "Exception") "lost" (.root (.http 404) "gone"))).1.statusCode = 500 :=
  (answered "Object reference not set" [⟨fun _ => true, "Error", ""⟩] (fun _ => none)
    ⟨some "ann", true, none, "Routes", "Index", by decide, by decide⟩ rfl
    (.wrapping (.other "Exception") "lost" (.root (.http 404) "gone"))).1.trans (by decide)

end CgGuide.ErrorHandling
