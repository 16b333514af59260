/-
A client and a server with messages under way.

The client sends requests; the server takes one of those under way, whichever it is,
and answers it; the client takes one of the answers under way, again whichever it is.
No message is lost and none is doubled, but nothing is said of the order, neither of
the requests nor of the answers.

What is known of such a run is what the server has answered so far and what of it has
arrived: the second is a part of the first, the rest is under way. `invariant_exchange`
is the induction a proof about a run uses; its three cases are the three kinds of
event, each with those two lists.
-/
import CgGuide.Runs
import Mathlib.Data.List.Perm.Basic

set_option autoImplicit false

namespace CgGuide.Exchange

open CgGuide.Runs

variable {Server Client Request Response : Type*}

/-- How the server answers a request and the client takes an answer. -/
structure Protocol (Server Client Request Response : Type*) where
  handle : Server → Request → Server × Response
  receive : Client → Response → Client

/-- The two parties and the messages under way. -/
structure State (Server Client Request Response : Type*) where
  server : Server
  client : Client
  requests : List Request
  responses : List Response

/-- A message is sent, or one of those under way reaches its end. -/
inductive Event (Request : Type*)
  | send (request : Request)
  | handle (i : ℕ)
  | receive (i : ℕ)

variable (p : Protocol Server Client Request Response)

/-- One event. A message that is not there is not taken. -/
def step (s : State Server Client Request Response) :
    Event Request → State Server Client Request Response
  | .send request => { s with requests := s.requests ++ [request] }
  | .handle i =>
    match s.requests[i]? with
    | none => s
    | some request =>
      { s with
        server := (p.handle s.server request).1
        requests := s.requests.eraseIdx i
        responses := s.responses ++ [(p.handle s.server request).2] }
  | .receive i =>
    match s.responses[i]? with
    | none => s
    | some response =>
      { s with
        client := p.receive s.client response
        responses := s.responses.eraseIdx i }

/-- What the server answers in an event. -/
def answered (s : State Server Client Request Response) : Event Request → List Response
  | .handle i => (s.requests[i]?.map (fun request => (p.handle s.server request).2)).toList
  | _ => []

/-- What arrives in an event. -/
def taken (s : State Server Client Request Response) : Event Request → List Response
  | .receive i => s.responses[i]?.toList
  | _ => []

/-- All answers of a run. -/
def answers (s : State Server Client Request Response) (es : List (Event Request)) :
    List Response :=
  emitted (step p) (answered p) s es

/-- All answers that have arrived. -/
def arrived (s : State Server Client Request Response) (es : List (Event Request)) :
    List Response :=
  emitted (step p) taken s es

/-- What a client may send in the state it is in. -/
def Sends (may : Client → Request → Prop) (s : State Server Client Request Response) :
    Event Request → Prop
  | .send request => may s.client request
  | _ => True

instance (may : Client → Request → Prop) [∀ v request, Decidable (may v request)]
    (s : State Server Client Request Response) : ∀ e, Decidable (Sends may s e)
  | .send request => inferInstanceAs (Decidable (may s.client request))
  | .handle _ => .isTrue trivial
  | .receive _ => .isTrue trivial

variable {p} {may : Client → Request → Prop} {s : State Server Client Request Response}

/-- The event that takes a message which is there takes it from the others. -/
theorem perm_of_getElem? {α : Type*} {l : List α} {i : ℕ} {a : α} (h : l[i]? = some a) :
    (a :: l.eraseIdx i).Perm l := by
  obtain ⟨hi, ha⟩ := List.getElem?_eq_some_iff.mp h
  rw [← ha]
  exact List.getElem_cons_eraseIdx_perm hi

/-- What holds at the start, and is kept when a request is sent, when one is answered and
when an answer arrives, holds after every run. -/
theorem exchange_induction {I : State Server Client Request Response → List Response →
      List Response → Prop}
    (hstart : I s [] [])
    (hsend : ∀ s sent got request, I s sent got → may s.client request →
      I { s with requests := s.requests ++ [request] } sent got)
    (hhandle : ∀ s sent got request rest, I s sent got → s.requests.Perm (request :: rest) →
      I { s with
        server := (p.handle s.server request).1
        requests := rest
        responses := s.responses ++ [(p.handle s.server request).2] }
        (sent ++ [(p.handle s.server request).2]) got)
    (hreceive : ∀ s sent got response rest, I s sent got → s.responses.Perm (response :: rest) →
      I { s with client := p.receive s.client response, responses := rest }
        sent (got ++ [response]))
    {es : List (Event Request)} (hguarded : Guarded (step p) (Sends may) s es) :
    I (run (step p) s es) (answers p s es) (arrived p s es) := by
  refine run_induction (P := fun es => I (run (step p) s es) (answers p s es) (arrived p s es))
    hstart (fun es e ih hmay => ?_) hguarded
  have hanswers : answers p s (es ++ [e]) = answers p s es ++ answered p (run (step p) s es) e := by
    rw [answers, emitted_append, emitted, emitted, List.append_nil, answers]
  have harrived : arrived p s (es ++ [e]) = arrived p s es ++ taken (run (step p) s es) e := by
    rw [arrived, emitted_append, emitted, emitted, List.append_nil, arrived]
  rw [hanswers, harrived, run_append, run_cons]
  generalize run (step p) s es = s' at ih hmay ⊢
  -- a message that is not there is not taken, and nothing changes
  cases e with
  | send request =>
      simp only [answered, taken, List.append_nil]
      exact hsend s' _ _ request ih hmay
  | handle i =>
      simp only [answered, taken, List.append_nil]
      cases hi : s'.requests[i]? with
      | none => simpa [run, step, hi] using ih
      | some request =>
        have hcase := hhandle s' _ _ request (s'.requests.eraseIdx i) ih (perm_of_getElem? hi).symm
        simpa [run, step, hi] using hcase
  | receive i =>
      simp only [answered, taken, List.append_nil]
      cases hi : s'.responses[i]? with
      | none => simpa [run, step, hi] using ih
      | some response =>
        have hcase := hreceive s' _ _ response (s'.responses.eraseIdx i) ih
          (perm_of_getElem? hi).symm
        simpa [run, step, hi] using hcase

/-- **The invariant rule.** Nothing is lost or doubled, so each case may account for the
messages: the answers are those that have arrived and those under way. -/
theorem invariant_exchange {I : State Server Client Request Response → List Response →
      List Response → Prop} (hnone : s.responses = [])
    (hstart : I s [] [])
    (hsend : ∀ s sent got request, sent.Perm (got ++ s.responses) → I s sent got →
      may s.client request → I { s with requests := s.requests ++ [request] } sent got)
    (hhandle : ∀ s sent got request rest, sent.Perm (got ++ s.responses) → I s sent got →
      s.requests.Perm (request :: rest) →
      I { s with
        server := (p.handle s.server request).1
        requests := rest
        responses := s.responses ++ [(p.handle s.server request).2] }
        (sent ++ [(p.handle s.server request).2]) got)
    (hreceive : ∀ s sent got response rest, sent.Perm (got ++ response :: rest) → I s sent got →
      I { s with client := p.receive s.client response, responses := rest }
        sent (got ++ [response]))
    {es : List (Event Request)} (hguarded : Guarded (step p) (Sends may) s es) :
    (answers p s es).Perm (arrived p s es ++ (run (step p) s es).responses)
      ∧ I (run (step p) s es) (answers p s es) (arrived p s es) := by
  refine exchange_induction (I := fun s sent got => sent.Perm (got ++ s.responses) ∧ I s sent got)
    ?_ ?_ ?_ ?_ hguarded
  · rw [hnone]
    exact ⟨List.Perm.refl _, hstart⟩
  · exact fun s sent got request ih hmay => ⟨ih.1, hsend s sent got request ih.1 ih.2 hmay⟩
  · intro s sent got request rest ih hperm
    refine ⟨?_, hhandle s sent got request rest ih.1 ih.2 hperm⟩
    rw [← List.append_assoc]
    exact ih.1.append_right _
  · intro s sent got response rest ih hperm
    have hsent := ih.1.trans (hperm.append_left got)
    refine ⟨?_, hreceive s sent got response rest hsent ih.2⟩
    rw [List.append_assoc, List.singleton_append]
    exact hsent

end CgGuide.Exchange
