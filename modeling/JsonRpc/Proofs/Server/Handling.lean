import JsonRpc.Proofs.Server.Answering
import JsonRpc.Proofs.Server.Registry

/-!
Where the responses of a connection come from when its handler is a function of the request and of
whether the request's token has fired.
-/

namespace JsonRpc.Server

def Task.answer (handler : Request → (cancelled : Bool) → HandlerOutcome) (task : Task) : Response :=
  (handler task.request task.cancelled).response task.request.id

namespace Connection

variable {handler : Request → (cancelled : Bool) → HandlerOutcome}

inductive Source (handler : Request → (cancelled : Bool) → HandlerOutcome) (messages : List Bytes)
    (c : Connection) : Response → Prop where
  | rejected (response : Response) (hid : response.id = .null) : Source handler messages c response
  | cancelled (message : Bytes) (request : Request) (hmem : message ∈ messages)
    (hdecode : Request.decode message = .ok request) (hcall : request.notification = false)
    (hmethod : request.method = cancelMethod) :
    Source handler messages c (cancelAnswer request)
  | handled (index : Nat) (task : Task) (htask : c.tasks[index]? = some task)
    (hcall : task.request.notification = false) (hended : task.stage ≠ .running) :
    Source handler messages c (task.answer handler)

structure Served (handler : Request → (cancelled : Bool) → HandlerOutcome) (messages : List Bytes)
    (c : Connection) : Prop where
  registry : Registry c
  requests : c.tasks.map Task.request = messages.filterMap started?
  answering : ∀ task ∈ c.tasks, ∀ response, task.stage = .answering response →
    task.request.notification = false ∧ response = task.answer handler
  sources : ∀ response ∈ c.written ++ c.phase.waiting?.toList, Source handler messages c response

theorem Source.move {messages : List Bytes} {c c' : Connection} {event : Event} {response : Response}
    (h : Source handler messages c response) (hregistry : Registry c) (hmove : Move c event c')
    : Source handler (messages ++ event.message?.toList) c' response := by
  cases h with
  | rejected _ hid => exact .rejected response hid
  | cancelled message request hmem hdecode hcall hmethod =>
    exact .cancelled message request (List.mem_append_left _ hmem) hdecode hcall hmethod
  | handled index task htask hcall hended =>
    obtain ⟨stage, hstage, hkept⟩ := hregistry.ended_move hmove htask hended
    exact .handled index { task with stage } hkept hcall hstage

namespace Served

variable {messages : List Bytes} {c c' : Connection} {event : Event}

theorem start : Served handler [] {} := by
  refine ⟨Registry.start, ?_, ?_, ?_⟩ <;> simp [Phase.waiting?]

theorem requests_move (h : Served handler messages c) (hmove : Move c event c')
    : c'.tasks.map Task.request = (messages ++ event.message?.toList).filterMap started? := by
  have hrequests := h.requests
  cases hmove with
  | reject message error hphase hdecode =>
    simp [Event.message?, started?, hdecode, hrequests]
  | cancel message request hphase hdecode hmethod =>
    dsimp only
    rw [tell_request]
    simp [Event.message?, started?, hdecode, hmethod, hrequests]
  | start message request hphase hdecode hmethod =>
    simp [Event.message?, started?, hdecode, hmethod, hrequests]
  | finish index task outcome htask =>
    simp [set_request htask, Event.message?, hrequests]
  | taskWrites index task response succeeds htask =>
    simp [set_request htask, Event.message?, hrequests]
  | fail | loopWrites | close => simpa [Event.message?] using hrequests

theorem answering_move (h : Served handler messages c) (hmove : Move c event c')
    (hfinish : ∀ index outcome task, event = .finish index outcome → c.tasks[index]? = some task →
      outcome = handler task.request task.cancelled)
    : ∀ task ∈ c'.tasks, ∀ response, task.stage = .answering response →
        task.request.notification = false ∧ response = task.answer handler := by
  have hanswering := h.answering
  cases hmove with
  | reject | fail | loopWrites | close => exact hanswering
  | cancel message request =>
    intro task htask response hstage
    obtain ⟨before, hbefore, rfl⟩ := List.mem_map.1 htask
    rw [(tell_slot _ before).2.1] at hstage
    -- Only tokens of tasks at work fire, so that an answer that waits stays what it was.
    rw [h.registry.tell_of_ended _ hbefore (by simp [hstage])]
    exact hanswering before hbefore response hstage
  | start message request =>
    intro task htask response hstage
    rcases List.mem_append.1 htask with hold | hlast
    . exact hanswering task hold response hstage
    . cases List.mem_singleton.1 hlast
      cases hstage
  | finish index task outcome htask hrunning =>
    intro other hother response hstage
    rcases List.mem_or_eq_of_mem_set hother with hold | rfl
    . exact hanswering other hold response hstage
    . unfold Stage.afterHandler at hstage
      dsimp only at hstage
      split at hstage
      . cases hstage
      . next hcall =>
        cases hstage
        rw [hfinish index outcome task rfl htask]
        exact ⟨by simpa using hcall, rfl⟩
  | taskWrites index task response succeeds htask =>
    intro other hother response' hstage
    rcases List.mem_or_eq_of_mem_set hother with hold | rfl
    . exact hanswering other hold response' hstage
    . cases hstage

theorem sources_move (h : Served handler messages c) (hmove : Move c event c')
    : ∀ response ∈ c'.written ++ c'.phase.waiting?.toList,
        Source handler (messages ++ event.message?.toList) c' response := by
  have hold : ∀ response ∈ c.written ++ c.phase.waiting?.toList,
      Source handler (messages ++ event.message?.toList) c' response := by
    intro response hmem
    exact (h.sources response hmem).move h.registry hmove
  cases hmove with
  | reject message error hphase hdecode =>
    intro response hmem
    rcases List.mem_append.1 hmem with hmem | hmem
    . exact hold response (List.mem_append_left _ hmem)
    . simp only [Phase.waiting?, Option.toList_some, List.mem_singleton] at hmem
      subst hmem
      exact .rejected _ rfl
  | cancel message request hphase hdecode hmethod =>
    intro response hmem
    rcases List.mem_append.1 hmem with hmem | hmem
    . exact hold response (List.mem_append_left _ hmem)
    . dsimp only at hmem
      split at hmem
      . cases hmem
      . next hcall =>
        simp only [Phase.waiting?, Option.toList_some, List.mem_singleton] at hmem
        subst hmem
        exact .cancelled message request (by simp [Event.message?]) hdecode (by simpa using hcall)
          hmethod
  | start => exact hold
  | finish => exact hold
  | fail cause hphase | close cause hphase =>
    intro response hmem
    apply hold response
    rw [hphase]
    exact hmem
  | loopWrites response succeeds hphase =>
    intro other hmem
    apply hold other
    rw [hphase]
    cases succeeds
    . exact List.mem_append_left _ (by simpa [Phase.waiting?] using hmem)
    . simpa [Phase.waiting?] using hmem
  | taskWrites index task response succeeds htask hstage =>
    have hlt := (List.getElem?_eq_some_iff.1 htask).1
    obtain ⟨hcall, hresponse⟩ := h.answering task (List.mem_of_getElem? htask) response hstage
    intro other hmem
    have hcases : other ∈ c.written ++ c.phase.waiting?.toList ∨ other = response := by
      cases succeeds
      . exact .inl hmem
      . simp only [if_true, List.mem_append, List.mem_singleton] at hmem
        rw [List.mem_append]
        tauto
    rcases hcases with hmem | rfl
    . exact hold other hmem
    . rw [hresponse]
      exact .handled index { task with stage := .done } (List.getElem?_set_self hlt) hcall (by simp)

theorem move (h : Served handler messages c) (hmove : Move c event c')
    (hfinish : ∀ index outcome task, event = .finish index outcome → c.tasks[index]? = some task →
      outcome = handler task.request task.cancelled)
    : Served handler (messages ++ event.message?.toList) c' where
  registry := h.registry.move hmove
  requests := h.requests_move hmove
  answering := h.answering_move hmove hfinish
  sources := h.sources_move hmove

end Served

end Connection

end JsonRpc.Server
