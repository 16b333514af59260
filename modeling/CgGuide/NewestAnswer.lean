/-
A client that numbers its requests and takes the answer to the newest one only.

The client acts, and some of its actions send a request. Requests are handled in any
order, each against the server as it is by then, and may be refused; answers arrive in
any order or never. What the server does besides is open: it may change at any time.

The client repeats in every request a number that the answer has to carry back, and
drops an answer whose number is not that of its newest request. `Stage` says where the
newest request has got to, `newest_rule` is the induction over a run that comes with it:
the client shows an answer only when it is the one to what it asked last.
-/
import CgGuide.Exchange

set_option autoImplicit false

namespace CgGuide.NewestAnswer

open CgGuide.Runs CgGuide.Exchange

variable {Server Choice Client Action Request Response : Type*}

/-- What the client does, how the server answers, and how the client takes an answer.
The choice is what the server is free in. -/
structure Protocol (Server Choice Client Action Request Response : Type*) where
  act : Client → Action → Client × Option Request
  handle : Server → Choice → Request → Option Response
  receive : Client → Response → Client

/-- The two parties and the messages under way. -/
structure State (Server Client Request Response : Type*) where
  server : Server
  client : Client
  requests : List Request
  responses : List Response

inductive Event (Server Choice Action : Type*)
  | act (a : Action)
  | store (server : Server)
  | handle (choice : Choice) (i : ℕ)
  | receive (i : ℕ)

/-- A request that was handled, by which server and with which choice. -/
structure Handling (Server Choice Request : Type*) where
  server : Server
  choice : Choice
  request : Request

variable (p : Protocol Server Choice Client Action Request Response)

/-- What came of it. -/
def Handling.result (h : Handling Server Choice Request) : Option Response :=
  p.handle h.server h.choice h.request

/-- One event. A message that is not there is not taken. -/
def step (s : State Server Client Request Response) :
    Event Server Choice Action → State Server Client Request Response
  | .act a =>
    { s with
      client := (p.act s.client a).1
      requests := s.requests ++ (p.act s.client a).2.toList }
  | .store server => { s with server := server }
  | .handle choice i =>
    match s.requests[i]? with
    | none => s
    | some request =>
      { s with
        requests := s.requests.eraseIdx i
        responses := s.responses ++ (p.handle s.server choice request).toList }
  | .receive i =>
    match s.responses[i]? with
    | none => s
    | some response =>
      { s with
        client := p.receive s.client response
        responses := s.responses.eraseIdx i }

/-- What is handled in an event. -/
def handling (s : State Server Client Request Response) :
    Event Server Choice Action → List (Handling Server Choice Request)
  | .handle choice i => (s.requests[i]?.map (fun request => ⟨s.server, choice, request⟩)).toList
  | _ => []

/-- All that was handled in a run. -/
def handled (s : State Server Client Request Response) (es : List (Event Server Choice Action)) :
    List (Handling Server Choice Request) :=
  emitted (step p) handling s es

/-- The numbers of a protocol. `query` is the request the client has sent last: the action
that sends one makes it the query and counts up, no other changes it, and an answer
carries the number of its request back. -/
structure Numbering where
  query : Client → Request
  number : Request → ℕ
  echo : Response → ℕ
  act_some : ∀ v a r, (p.act v a).2 = some r →
    query (p.act v a).1 = r ∧ number r = number (query v) + 1
  act_none : ∀ v a, (p.act v a).2 = none → query (p.act v a).1 = query v
  echo_handle : ∀ σ o r x, p.handle σ o r = some x → echo x = number r
  receive_older : ∀ v x, echo x < number (query v) → p.receive v x = v
  receive_newest : ∀ v x, echo x = number (query v) → query (p.receive v x) = query v

section Numbered

variable {p} (N : Numbering p)

/-- The messages of a list that have the number `n`. -/
def numbered {Message : Type*} (number : Message → ℕ) (n : ℕ) (l : List Message) :
    List Message :=
  l.filter (fun m => number m = n)

/-- The number of what was handled. -/
def Numbering.handling (h : Handling Server Choice Request) : ℕ := N.number h.request

/-- Where the newest request has got to, with the answer to it if that has arrived. -/
inductive Stage (q : Request) (requests : List Request) (responses : List Response)
    (hs : List (Handling Server Choice Request)) : Option Response → Prop
  | asked (hrequests : numbered N.number (N.number q) requests = [q])
      (hhandled : numbered N.handling (N.number q) hs = [])
      (hresponses : numbered N.echo (N.number q) responses = []) :
      Stage q requests responses hs none
  | refused (h : Handling Server Choice Request) (hquery : h.request = q)
      (hresult : h.result p = none)
      (hrequests : numbered N.number (N.number q) requests = [])
      (hhandled : numbered N.handling (N.number q) hs = [h])
      (hresponses : numbered N.echo (N.number q) responses = []) :
      Stage q requests responses hs none
  | underWay (h : Handling Server Choice Request) (hquery : h.request = q)
      (x : Response) (hresult : h.result p = some x)
      (hrequests : numbered N.number (N.number q) requests = [])
      (hhandled : numbered N.handling (N.number q) hs = [h])
      (hresponses : numbered N.echo (N.number q) responses = [x]) :
      Stage q requests responses hs none
  | taken (h : Handling Server Choice Request) (hquery : h.request = q)
      (x : Response) (hresult : h.result p = some x)
      (hrequests : numbered N.number (N.number q) requests = [])
      (hhandled : numbered N.handling (N.number q) hs = [h])
      (hresponses : numbered N.echo (N.number q) responses = []) :
      Stage q requests responses hs (some x)

/-- No message has a number above `n`. -/
structure Bounded (n : ℕ) (requests : List Request) (responses : List Response)
    (hs : List (Handling Server Choice Request)) : Prop where
  requests : ∀ r ∈ requests, N.number r ≤ n
  responses : ∀ x ∈ responses, N.echo x ≤ n
  handled : ∀ h ∈ hs, N.handling h ≤ n

variable {N} {q : Request} {requests : List Request} {responses : List Response}
  {hs : List (Handling Server Choice Request)} {a : Option Response}

theorem numbered_eq_nil {Message : Type*} {number : Message → ℕ} {n : ℕ} {l : List Message}
    (h : ∀ m ∈ l, number m < n) : numbered number n l = [] := by
  unfold numbered
  rw [List.filter_eq_nil_iff]
  intro m hm hn
  have hlt := h m hm
  rw [of_decide_eq_true hn] at hlt
  omega

/-- What is left of the messages with the number `n` when one is taken away. -/
theorem numbered_of_perm {Message : Type*} (number : Message → ℕ) (n : ℕ) {l rest : List Message}
    {m : Message} (h : l.Perm (m :: rest)) :
    (numbered number n l).Perm
      (if number m = n then m :: numbered number n rest else numbered number n rest) := by
  have hfilter := h.filter (fun m => decide (number m = n))
  rw [List.filter_cons] at hfilter
  simpa only [numbered, decide_eq_true_eq] using hfilter

theorem numbered_append {Message : Type*} (number : Message → ℕ) (n : ℕ) (l l' : List Message) :
    numbered number n (l ++ l') = numbered number n l ++ numbered number n l' :=
  List.filter_append l l'

theorem numbered_singleton {Message : Type*} {number : Message → ℕ} {n : ℕ} {m : Message}
    (h : number m = n) : numbered number n [m] = [m] :=
  List.filter_cons_of_pos (decide_eq_true h)

theorem numbered_singleton_of_ne {Message : Type*} {number : Message → ℕ} {n : ℕ} {m : Message}
    (h : number m ≠ n) : numbered number n [m] = [] :=
  List.filter_cons_of_neg (fun hm => h (of_decide_eq_true hm))

theorem mem_of_numbered {Message : Type*} {number : Message → ℕ} {n : ℕ} {l : List Message}
    {m : Message} (h : numbered number n l = [m]) : m ∈ l := by
  have hm : m ∈ numbered number n l := by
    rw [h]
    exact List.mem_singleton_self m
  exact List.mem_of_mem_filter hm

/-- A new request is under way. -/
theorem Stage.send (hbounded : Bounded N (N.number q) requests responses hs) {r : Request}
    (hr : N.number r = N.number q + 1) : Stage N r (requests ++ [r]) responses hs none := by
  apply Stage.asked
  -- all that is under way has a smaller number than the new request
  · rw [numbered_append, numbered_singleton rfl, numbered_eq_nil, List.nil_append]
    intro r' hr'
    have hle := hbounded.requests r' hr'
    omega
  · apply numbered_eq_nil
    intro h hh
    have hle := hbounded.handled h hh
    omega
  · apply numbered_eq_nil
    intro x hx
    have hle := hbounded.responses x hx
    omega

/-- The answer to a request has its number. -/
theorem numbered_answer {σ : Server} {o : Choice} {r : Request} (n : ℕ) :
    numbered N.echo n (p.handle σ o r).toList
      = if N.number r = n then (p.handle σ o r).toList else [] := by
  cases hresult : p.handle σ o r with
  | none =>
      rw [Option.toList_none, ite_self]
      rfl
  | some x =>
      have hecho := N.echo_handle σ o r x hresult
      rw [Option.toList_some, ← hecho]
      by_cases hx : N.echo x = n
      · rw [if_pos hx, numbered_singleton hx]
      · rw [if_neg hx, numbered_singleton_of_ne hx]

/-- The newest request when it is handled. -/
theorem Stage.handle_newest {σ : Server} {o : Choice}
    (hrequests : numbered N.number (N.number q) requests = [])
    (hhandled : numbered N.handling (N.number q) hs = [])
    (hresponses : numbered N.echo (N.number q) responses = []) :
    Stage N q requests (responses ++ (p.handle σ o q).toList) (hs ++ [⟨σ, o, q⟩]) none := by
  have hnow : numbered N.handling (N.number q) (hs ++ [⟨σ, o, q⟩]) = [⟨σ, o, q⟩] := by
    rw [numbered_append, hhandled, List.nil_append]
    exact numbered_singleton rfl
  have hanswer : numbered N.echo (N.number q) (responses ++ (p.handle σ o q).toList)
      = (p.handle σ o q).toList := by
    rw [numbered_append, hresponses, List.nil_append, numbered_answer, if_pos rfl]
  cases hresult : p.handle σ o q with
  | none =>
      rw [hresult] at hanswer
      exact Stage.refused ⟨σ, o, q⟩ rfl hresult hrequests hnow hanswer
  | some x =>
      rw [hresult] at hanswer
      exact Stage.underWay ⟨σ, o, q⟩ rfl x hresult hrequests hnow hanswer

/-- A handled request: the newest is answered or refused, any other leaves it where it is. -/
theorem Stage.handle {σ : Server} {o : Choice} {r : Request} {rest : List Request}
    (hperm : requests.Perm (r :: rest)) (h : Stage N q requests responses hs a) :
    Stage N q rest (responses ++ (p.handle σ o r).toList) (hs ++ [⟨σ, o, r⟩]) a := by
  have hleft := numbered_of_perm N.number (N.number q) hperm
  by_cases hr : N.number r = N.number q
  · rw [if_pos hr] at hleft
    -- a request with the newest number is under way only while the newest is
    cases h with
    | asked hrequests hhandled hresponses =>
        rw [hrequests, List.singleton_perm, List.cons.injEq] at hleft
        obtain ⟨rfl, hrest⟩ := hleft
        exact Stage.handle_newest hrest.symm hhandled hresponses
    | refused _ _ _ hrequests | underWay _ _ _ _ hrequests | taken _ _ _ _ hrequests =>
        rw [hrequests] at hleft
        exact absurd hleft (List.not_perm_nil_cons r _)
  · rw [if_neg hr] at hleft
    -- any other request neither takes away nor adds a message with the newest number
    have hhandling : numbered N.handling (N.number q) (hs ++ [⟨σ, o, r⟩])
        = numbered N.handling (N.number q) hs := by
      rw [numbered_append, List.append_right_eq_self]
      exact numbered_singleton_of_ne hr
    have hanswer : numbered N.echo (N.number q) (responses ++ (p.handle σ o r).toList)
        = numbered N.echo (N.number q) responses := by
      rw [numbered_append, numbered_answer, if_neg hr, List.append_nil]
    cases h with
    | asked hrequests hhandled hresponses =>
        rw [hrequests, List.singleton_perm] at hleft
        exact Stage.asked hleft.symm (hhandling.trans hhandled) (hanswer.trans hresponses)
    | refused h hquery hresult hrequests hhandled hresponses =>
        rw [hrequests, List.nil_perm] at hleft
        exact Stage.refused h hquery hresult hleft (hhandling.trans hhandled)
          (hanswer.trans hresponses)
    | underWay h hquery x hresult hrequests hhandled hresponses =>
        rw [hrequests, List.nil_perm] at hleft
        exact Stage.underWay h hquery x hresult hleft (hhandling.trans hhandled)
          (hanswer.trans hresponses)
    | taken h hquery x hresult hrequests hhandled hresponses =>
        rw [hrequests, List.nil_perm] at hleft
        exact Stage.taken h hquery x hresult hleft (hhandling.trans hhandled)
          (hanswer.trans hresponses)

/-- An older answer that arrives. -/
theorem Stage.receive_older {x : Response} {rest : List Response}
    (hperm : responses.Perm (x :: rest)) (hx : N.echo x ≠ N.number q)
    (h : Stage N q requests responses hs a) : Stage N q requests rest hs a := by
  have hleft := numbered_of_perm N.echo (N.number q) hperm
  rw [if_neg hx] at hleft
  cases h with
  | asked hrequests hhandled hresponses =>
      rw [hresponses, List.nil_perm] at hleft
      exact Stage.asked hrequests hhandled hleft
  | refused h hquery hresult hrequests hhandled hresponses =>
      rw [hresponses, List.nil_perm] at hleft
      exact Stage.refused h hquery hresult hrequests hhandled hleft
  | underWay h hquery y hresult hrequests hhandled hresponses =>
      rw [hresponses, List.singleton_perm] at hleft
      exact Stage.underWay h hquery y hresult hrequests hhandled hleft.symm
  | taken h hquery y hresult hrequests hhandled hresponses =>
      rw [hresponses, List.nil_perm] at hleft
      exact Stage.taken h hquery y hresult hrequests hhandled hleft

/-- **The newest answer arrives once**: it is the answer to the newest request, and none
had arrived before. -/
theorem Stage.receive_newest {x : Response} {rest : List Response}
    (hperm : responses.Perm (x :: rest)) (hx : N.echo x = N.number q)
    (h : Stage N q requests responses hs a) :
    a = none ∧ (∃ h ∈ hs, h.request = q ∧ h.result p = some x)
      ∧ Stage N q requests rest hs (some x) := by
  have hleft := numbered_of_perm N.echo (N.number q) hperm
  rw [if_pos hx] at hleft
  cases h with
  | underWay h hquery y hresult hrequests hhandled hresponses =>
      rw [hresponses, List.singleton_perm, List.cons.injEq] at hleft
      obtain ⟨rfl, hrest⟩ := hleft
      exact ⟨rfl, ⟨h, mem_of_numbered hhandled, hquery, hresult⟩,
        Stage.taken h hquery y hresult hrequests hhandled hrest.symm⟩
  -- in the other stages no answer with the newest number is under way
  | asked _ _ hresponses | refused _ _ _ _ _ hresponses | taken _ _ _ _ _ _ hresponses =>
      rw [hresponses] at hleft
      exact absurd hleft (List.not_perm_nil_cons x _)

/-- The newest request is handled once at most. -/
theorem Stage.handled_unique (h : Stage N q requests responses hs a)
    {h₁ h₂ : Handling Server Choice Request} (h₁mem : h₁ ∈ hs) (h₂mem : h₂ ∈ hs)
    (h₁query : h₁.request = q) (h₂query : h₂.request = q) : h₁ = h₂ := by
  have hnumbered : ∀ h ∈ hs, h.request = q → h ∈ numbered N.handling (N.number q) hs :=
    fun h hmem hquery => List.mem_filter.mpr ⟨hmem, decide_eq_true (congrArg N.number hquery)⟩
  have hone := hnumbered h₁ h₁mem h₁query
  have htwo := hnumbered h₂ h₂mem h₂query
  cases h with
  | asked _ hhandled =>
      rw [hhandled] at hone
      exact nomatch hone
  | refused _ _ _ _ hhandled | underWay _ _ _ _ _ hhandled | taken _ _ _ _ _ hhandled =>
      rw [hhandled, List.mem_singleton] at hone htwo
      exact hone.trans htwo.symm

/-- With nothing under way the newest request has been handled: it was refused, or its
answer has arrived. -/
theorem Stage.settled (h : Stage N q [] [] hs a) :
    ∃ h ∈ hs, h.request = q ∧ h.result p = a := by
  cases h with
  | asked hrequests => exact nomatch hrequests
  | refused h hquery hresult _ hhandled => exact ⟨h, mem_of_numbered hhandled, hquery, hresult⟩
  | underWay _ _ _ _ _ _ hresponses => exact nomatch hresponses
  | taken h hquery x hresult _ hhandled => exact ⟨h, mem_of_numbered hhandled, hquery, hresult⟩

/-! ## Runs -/

/-- The first request has been sent, and nothing else is under way. -/
def opening (N : Numbering p) (σ : Server) (v : Client) :
    State Server Client Request Response where
  server := σ
  client := v
  requests := [N.query v]
  responses := []

/-- An event keeps the numbers under way below the newest. -/
theorem Bounded.step {s : State Server Client Request Response}
    (h : Bounded N (N.number (N.query s.client)) s.requests s.responses hs)
    (e : Event Server Choice Action) :
    Bounded N (N.number (N.query (step p s e).client)) (step p s e).requests
      (step p s e).responses (hs ++ handling s e) := by
  cases e with
  | act a =>
      cases hsent : (p.act s.client a).2 with
      | none =>
          simp only [NewestAnswer.step, handling, hsent, N.act_none _ _ hsent, Option.toList_none,
            List.append_nil]
          exact h
      | some r =>
          -- the number of the new request is the new bound, one above the old
          obtain ⟨hquery, hnumber⟩ := N.act_some _ _ _ hsent
          simp only [NewestAnswer.step, handling, hsent, hquery, hnumber, Option.toList_some,
            List.append_nil]
          refine ⟨fun r' hr' => ?_, fun x hx => ?_, fun h' hh => ?_⟩
          · rw [List.mem_append, List.mem_singleton] at hr'
            rcases hr' with hr' | rfl
            · exact Nat.le_succ_of_le (h.requests r' hr')
            · exact Nat.le_of_eq hnumber
          · exact Nat.le_succ_of_le (h.responses x hx)
          · exact Nat.le_succ_of_le (h.handled h' hh)
  | store σ =>
      simp only [NewestAnswer.step, handling, List.append_nil]
      exact h
  | handle o i =>
      cases hi : s.requests[i]? with
      | none =>
          simp only [NewestAnswer.step, handling, hi, Option.map_none, Option.toList_none,
            List.append_nil]
          exact h
      | some r =>
          simp only [NewestAnswer.step, handling, hi, Option.map_some, Option.toList_some]
          have hr := h.requests r (List.mem_of_getElem? hi)
          refine ⟨fun r' hr' => h.requests r' (List.mem_of_mem_eraseIdx hr'), fun x hx => ?_,
            fun h' hh => ?_⟩
          · rw [List.mem_append, Option.mem_toList] at hx
            rcases hx with hx | hx
            · exact h.responses x hx
            · rw [N.echo_handle _ _ _ _ hx]
              exact hr
          · rw [List.mem_append, List.mem_singleton] at hh
            rcases hh with hh | rfl
            · exact h.handled h' hh
            · exact hr
  | receive i =>
      cases hi : s.responses[i]? with
      | none =>
          simp only [NewestAnswer.step, handling, hi, List.append_nil]
          exact h
      | some x =>
          simp only [NewestAnswer.step, handling, hi, List.append_nil]
          have hx := h.responses x (List.mem_of_getElem? hi)
          -- a dropped answer leaves the client as it is, one that is taken leaves its query
          have hlast : N.query (p.receive s.client x) = N.query s.client := by
            rcases Nat.lt_or_eq_of_le hx with hlt | heq
            · rw [N.receive_older _ _ hlt]
            · exact N.receive_newest _ _ heq
          rw [hlast]
          exact ⟨h.requests, fun y hy => h.responses y (List.mem_of_mem_eraseIdx hy), h.handled⟩

/-- The answers the client takes in an event: those to its newest request. -/
def taking (N : Numbering p) (s : State Server Client Request Response) :
    Event Server Choice Action → List Response
  | .receive i => numbered N.echo (N.number (N.query s.client)) s.responses[i]?.toList
  | _ => []

/-- All answers a client has taken in a run. -/
def taken (N : Numbering p) (s : State Server Client Request Response)
    (es : List (Event Server Choice Action)) : List Response :=
  emitted (step p) (taking N) s es

/-- The newest request is somewhere, and `I` holds of the client, of what was handled and
taken, and of the answer to the newest request, if that has arrived. -/
def Located (N : Numbering p)
    (I : Client → List (Handling Server Choice Request) → List Response → Option Response → Prop)
    (s : State Server Client Request Response) (hs : List (Handling Server Choice Request))
    (got : List Response) : Prop :=
  Bounded N (N.number (N.query s.client)) s.requests s.responses hs
    ∧ ∃ a, Stage N (N.query s.client) s.requests s.responses hs a ∧ I s.client hs got a

section Rule

variable {I : Client → List (Handling Server Choice Request) → List Response →
    Option Response → Prop}
  (hmore : ∀ v hs got h a, I v hs got a → I v (hs ++ [h]) got a)
  (hsend : ∀ v hs got a e r, I v hs got a → (p.act v e).2 = some r → I (p.act v e).1 hs got none)
  (hrest : ∀ v hs got a e, I v hs got a → (p.act v e).2 = none → I (p.act v e).1 hs got a)
  (hreceive : ∀ v hs got h x, I v hs got none → h ∈ hs → h.request = N.query v →
    h.result p = some x → I (p.receive v x) hs (got ++ [x]) (some x))

include hmore hsend hrest hreceive

theorem Located.step {s : State Server Client Request Response} {got : List Response}
    (h : Located N I s hs got) (e : Event Server Choice Action) :
    Located N I (step p s e) (hs ++ handling s e) (got ++ taking N s e) := by
  obtain ⟨hbounded, a, hstage, hI⟩ := h
  refine ⟨hbounded.step e, ?_⟩
  cases e with
  | act e =>
      simp only [handling, taking, List.append_nil]
      cases hsent : (p.act s.client e).2 with
      | none =>
          refine ⟨a, ?_, hrest _ _ _ _ _ hI hsent⟩
          simpa only [NewestAnswer.step, hsent, N.act_none _ _ hsent, Option.toList_none,
            List.append_nil] using hstage
      | some r =>
          obtain ⟨hquery, hnumber⟩ := N.act_some _ _ _ hsent
          refine ⟨none, ?_, hsend _ _ _ _ _ _ hI hsent⟩
          simpa only [NewestAnswer.step, hsent, hquery, Option.toList_some]
            using Stage.send hbounded hnumber
  | store σ =>
      simp only [handling, taking, List.append_nil]
      exact ⟨a, hstage, hI⟩
  | handle o i =>
      simp only [taking, List.append_nil]
      cases hi : s.requests[i]? with
      | none =>
          simp only [NewestAnswer.step, handling, hi, Option.map_none, Option.toList_none,
            List.append_nil]
          exact ⟨a, hstage, hI⟩
      | some r =>
          simp only [NewestAnswer.step, handling, hi, Option.map_some, Option.toList_some]
          exact ⟨a, hstage.handle (perm_of_getElem? hi).symm, hmore _ _ _ _ _ hI⟩
  | receive i =>
      simp only [handling, List.append_nil]
      cases hi : s.responses[i]? with
      | none =>
          simp only [NewestAnswer.step, taking, hi, Option.toList_none, numbered, List.filter_nil,
            List.append_nil]
          exact ⟨a, hstage, hI⟩
      | some x =>
          simp only [NewestAnswer.step, taking, hi, Option.toList_some]
          have hperm := (perm_of_getElem? hi).symm
          have hle := hbounded.responses x (List.mem_of_getElem? hi)
          -- by the bound the answer is to the newest request or to an older one
          by_cases hx : N.echo x = N.number (N.query s.client)
          · obtain ⟨rfl, ⟨h, hmem, hquery, hresult⟩, hstage⟩ := hstage.receive_newest hperm hx
            rw [N.receive_newest _ _ hx, numbered_singleton hx]
            exact ⟨some x, hstage, hreceive _ _ _ _ _ hI hmem hquery hresult⟩
          · rw [N.receive_older _ _ (by omega), numbered_singleton_of_ne hx, List.append_nil]
            exact ⟨a, hstage.receive_older hperm hx, hI⟩

/-- **The rule of the newest answer.** What holds of the client when its first request is
sent, becomes true again with every request it sends, and is kept by its other actions
and by the answer to its newest request, holds after every run. -/
theorem newest_rule {σ : Server} {v : Client} (hstart : I v [] [] none)
    (es : List (Event Server Choice Action)) :
    ∃ a, Stage N (N.query (run (step p) (opening N σ v) es).client)
        (run (step p) (opening N σ v) es).requests (run (step p) (opening N σ v) es).responses
        (handled p (opening N σ v) es) a
      ∧ I (run (step p) (opening N σ v) es).client (handled p (opening N σ v) es)
          (taken N (opening N σ v) es) a := by
  have hguarded : Guarded (step p) (fun _ _ => True) (opening N σ v) es := guarded_true _ es
  -- `Located` is what the run keeps; the bound on the numbers is needed for the step only
  have hlocated := run_induction
    (P := fun es => Located N I (run (step p) (opening N σ v) es) (handled p (opening N σ v) es)
      (taken N (opening N σ v) es))
    ?_ ?_ hguarded
  · exact hlocated.2
  · refine ⟨⟨fun r hr => ?_, List.forall_mem_nil _, List.forall_mem_nil _⟩, none,
      Stage.asked ?_ rfl rfl, hstart⟩
    · rw [List.mem_singleton.mp hr]
      exact Nat.le_refl _
    · exact numbered_singleton rfl
  · intro es e ih _
    have hnext := ih.step hmore hsend hrest hreceive e
    rw [handled, emitted_append, ← handled, taken, emitted_append, ← taken, run_append]
    simpa only [run, List.foldl_cons, List.foldl_nil, emitted, List.append_nil] using hnext

end Rule

/-- **Answers are taken in the order of the requests**, and none twice. -/
theorem taken_ordered (N : Numbering p) (σ : Server) (v : Client)
    (es : List (Event Server Choice Action)) :
    ((taken N (opening N σ v) es).map N.echo).Pairwise (· < ·) := by
  -- what was taken is older than the query, or is the answer to it and no other can come
  refine Exists.elim (newest_rule (N := N) (σ := σ) (v := v)
    (I := fun v _ got a => (got.map N.echo).Pairwise (· < ·)
      ∧ ∀ x ∈ got, N.echo x < N.number (N.query v) ∨ N.echo x = N.number (N.query v) ∧ a ≠ none)
    ?_ ?_ ?_ ?_ ?_ es) (fun a h => h.2.1)
  · exact fun _ _ _ _ _ h => h
  · intro v _ got _ e r h hsent
    obtain ⟨hquery, hnumber⟩ := N.act_some v e r hsent
    refine ⟨h.1, fun x hx => Or.inl ?_⟩
    rw [hquery, hnumber]
    have hlast := h.2 x hx
    omega
  · intro v _ got a e h hsent
    rw [N.act_none v e hsent]
    exact h
  · intro v hs got h x hI hmem hquery hresult
    have hx : N.echo x = N.number (N.query v) := by
      rw [N.echo_handle _ _ _ _ hresult, hquery]
    rw [N.receive_newest v x hx]
    -- nothing has been taken yet with the number of the newest request
    have hbelow : ∀ y ∈ got, N.echo y < N.number (N.query v) := fun y hy =>
      (hI.2 y hy).resolve_right (fun h => h.2 rfl)
    refine ⟨?_, fun y hy => ?_⟩
    · rw [List.map_append, List.pairwise_append]
      refine ⟨hI.1, List.pairwise_singleton _ _, fun m hm n hn => ?_⟩
      obtain ⟨y, hy, rfl⟩ := List.mem_map.mp hm
      rw [List.mem_singleton.mp hn, hx]
      exact hbelow y hy
    · rw [List.mem_append, List.mem_singleton] at hy
      rcases hy with hy | rfl
      · exact Or.inl (hbelow y hy)
      · exact Or.inr ⟨hx, Option.some_ne_none y⟩
  · exact ⟨List.Pairwise.nil, List.forall_mem_nil _⟩

/-- What holds of every server there has been holds of those that handled the requests. -/
theorem handled_by {P : Server → Prop} {s : State Server Client Request Response}
    (hs : P s.server) {es : List (Event Server Choice Action)}
    (hes : Guarded (step p) (fun _ e => ∀ σ, e = .store σ → P σ) s es) :
    ∀ h ∈ handled p s es, P h.server := by
  have hboth := run_induction
    (P := fun es => P (run (step p) s es).server ∧ ∀ h ∈ handled p s es, P h.server)
    ⟨hs, List.forall_mem_nil _⟩ ?_ hes
  · exact hboth.2
  · intro es e ih hstore
    rw [handled, emitted_append, ← handled, run_append]
    simp only [run, List.foldl_cons, List.foldl_nil, emitted, List.append_nil]
    change P (step p (run (step p) s es) e).server
      ∧ ∀ h ∈ handled p s es ++ handling (run (step p) s es) e, P h.server
    generalize run (step p) s es = s' at ih
    rw [List.forall_mem_append]
    -- the server changes in `store` only, and only a request that is there is handled
    cases e with
    | act a => exact ⟨ih.1, ih.2, List.forall_mem_nil _⟩
    | store σ => exact ⟨hstore σ rfl, ih.2, List.forall_mem_nil _⟩
    | handle o i =>
        cases hi : s'.requests[i]? with
        | none =>
            simp only [step, handling, hi]
            exact ⟨ih.1, ih.2, List.forall_mem_nil _⟩
        | some r =>
            simp only [step, handling, hi]
            refine ⟨ih.1, ih.2, fun h hh => ?_⟩
            rw [List.mem_singleton.mp hh]
            exact ih.1
    | receive i =>
        cases hi : s'.responses[i]? with
        | none =>
            simp only [step, handling, hi]
            exact ⟨ih.1, ih.2, List.forall_mem_nil _⟩
        | some x =>
            simp only [step, handling, hi]
            exact ⟨ih.1, ih.2, List.forall_mem_nil _⟩

end Numbered

end CgGuide.NewestAnswer
