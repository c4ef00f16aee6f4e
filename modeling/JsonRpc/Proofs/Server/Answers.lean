import JsonRpc.Proofs.Envelope.WellFormed
import JsonRpc.Proofs.Server.Answering

/-!
One answer for each message that is owed one. At the end of a run the responses that were written
are, in some order, the answers to the messages, one for one.
-/

namespace JsonRpc.Server.Connection

inductive Answers (events : List Event) (c : Connection) : Bytes → Response → Prop where
  | rejected (message : Bytes) (error : ProtocolError)
    (hdecode : Request.decode message = .error error) (code : ErrorCode)
    (hcode : code = if Json.decode? message = none then ErrorCode.parseError
      else ErrorCode.invalidRequest) :
    Answers events c message { id := .null, outcome := .error ⟨code, error.message, none⟩ }
  | cancelled (message : Bytes) (request : Request) (hdecode : Request.decode message = .ok request)
    (hcall : request.notification = false) (hmethod : request.method = cancelMethod) :
    Answers events c message (cancelAnswer request)
  | handled (message : Bytes) (index : Nat) (task : Task) (outcome : HandlerOutcome)
    (htask : c.tasks[index]? = some task) (hdecode : Request.decode message = .ok task.request)
    (hcall : task.request.notification = false) (hmethod : task.request.method ≠ cancelMethod)
    (hfinish : .finish index outcome ∈ events) :
    Answers events c message (outcome.response task.request.id)

theorem cancelAnswer_id (request : Request) : (cancelAnswer request).id = request.id := by
  unfold cancelAnswer
  split <;> rfl

theorem response_id (id : Id) (outcome : HandlerOutcome) : (outcome.response id).id = id := by
  cases outcome <;> rfl

theorem Answers.owedId?_eq {events : List Event} {c : Connection} {message : Bytes}
    {response : Response} (h : Answers events c message response)
    : owedId? message = some response.id := by
  unfold owedId?
  cases h with
  | rejected error hdecode => simp [hdecode]
  | cancelled request hdecode hcall => simp [hdecode, hcall, cancelAnswer_id]
  | handled index task outcome htask hdecode hcall => simp [hdecode, hcall, response_id]

def Given (events : List Event) (c : Connection) (request : Request) (response : Response) : Prop :=
  ∃ index task outcome, c.tasks[index]? = some task ∧ task.request = request ∧
    .finish index outcome ∈ events ∧ response = outcome.response request.id

theorem given_of_accounted {R : Request → Response → Prop} {tasks : List Task}
    {produced : List (Option Response)} (hlength : produced.length = tasks.length)
    (hgiven : ∀ (index : Nat) (task : Task) (response : Option Response),
      tasks[index]? = some task → produced[index]? = some response →
        (task.request.notification ∧ response = none) ∨
          (task.request.notification = false ∧ ∃ r, response = some r ∧ R task.request r))
    : List.Forall₂ R ((tasks.map Task.request).filter fun r => !r.notification)
        (produced.filterMap id) := by
  induction tasks generalizing produced with
  | nil =>
    have hnil : produced = [] := by simpa using hlength
    simp [hnil]
  | cons task tasks ih =>
    cases produced with
    | nil => cases hlength
    | cons response produced =>
      have hrest := ih (Nat.succ.inj hlength) fun index task response htask hresponse =>
        hgiven (index + 1) task response htask hresponse
      rcases hgiven 0 task response rfl rfl with ⟨hsilent, rfl⟩ | ⟨hcall, r, rfl, hr⟩
      . simpa [hsilent] using hrest
      . simpa [hcall] using hrest.cons hr

def isOwed (message : Bytes) : Bool :=
  (owedId? message).isSome

theorem owed_cases (message : Bytes)
    : (isOwed message = false ∧ loopAnswer? message = none ∧
        ∀ request, started? message = some request → request.notification) ∨
      (isOwed message ∧ started? message = none ∧
        ∃ response, loopAnswer? message = some response) ∨
      (isOwed message ∧ loopAnswer? message = none ∧
        ∃ request, started? message = some request ∧ request.notification = false) := by
  unfold isOwed owedId? loopAnswer? started?
  cases Request.decode message with
  | error e => simp
  | ok request =>
    dsimp only
    by_cases hmethod : request.method = cancelMethod
    . cases hnotification : request.notification <;> simp [hmethod]
    . cases hnotification : request.notification <;> simp [hmethod, hnotification]

theorem exists_answers {R : Request → Response → Prop} (messages : List Bytes)
    {given : List Response}
    (hgiven : List.Forall₂ R ((messages.filterMap started?).filter fun r => !r.notification) given)
    : ∃ responses,
        List.Forall₂ (fun message response => loopAnswer? message = some response ∨
          ∃ request, started? message = some request ∧ request.notification = false ∧
            R request response)
          (messages.filter isOwed) responses ∧
        (messages.filterMap loopAnswer? ++ given).Perm responses := by
  induction messages generalizing given with
  | nil =>
    have hnil : given = [] := by simpa using hgiven
    exact ⟨[], .nil, by simp [hnil]⟩
  | cons message messages ih =>
    -- A message takes nothing, an answer of the read loop, or the next of those given.
    rcases owed_cases message with ⟨howed, hloop, hsilent⟩ | ⟨howed, hstarted, response, hloop⟩ |
      ⟨howed, hloop, request, hstarted, hcall⟩
    . have hrest : List.Forall₂ R ((messages.filterMap started?).filter fun r => !r.notification)
          given := by
        cases hstarted : started? message with
        | none => simpa [hstarted] using hgiven
        | some request => simpa [hstarted, hsilent request hstarted] using hgiven
      obtain ⟨responses, hresponses, hperm⟩ := ih hrest
      refine ⟨responses, ?_, ?_⟩
      . simpa [howed] using hresponses
      . simpa [hloop] using hperm
    . obtain ⟨responses, hresponses, hperm⟩ := ih (by simpa [hstarted] using hgiven)
      refine ⟨response :: responses, ?_, ?_⟩
      . rw [List.filter_cons_of_pos howed]
        exact .cons (.inl hloop) hresponses
      . rw [List.filterMap_cons_some hloop]
        exact hperm.cons response
    . rw [List.filterMap_cons_some hstarted, List.filter_cons_of_pos (by simp [hcall])] at hgiven
      cases hgiven with
      | cons hr hgiven =>
        next response given =>
          obtain ⟨responses, hresponses, hperm⟩ := ih hgiven
          refine ⟨response :: responses, ?_, ?_⟩
          . rw [List.filter_cons_of_pos howed]
            exact .cons (.inr ⟨request, hstarted, hcall, hr⟩) hresponses
          . rw [List.filterMap_cons_none hloop]
            exact List.perm_middle.trans (hperm.cons response)

theorem decode_of_started? {message : Bytes} {request : Request}
    (h : started? message = some request)
    : Request.decode message = .ok request ∧ request.method ≠ cancelMethod := by
  unfold started? at h
  split at h
  . next r hdecode =>
    split at h <;> cases h
    next hmethod => exact ⟨hdecode, hmethod⟩
  . cases h

theorem answers_of_loop {events : List Event} {c : Connection} {message : Bytes}
    {response : Response} (h : loopAnswer? message = some response)
    : Answers events c message response := by
  unfold loopAnswer? at h
  split at h
  . next request hdecode =>
    split at h
    . next hmethod =>
      split at h <;> cases h
      next hcall => exact .cancelled message request hdecode (by simpa using hcall) hmethod
    . cases h
  . next error hdecode =>
    cases h
    exact .rejected message error hdecode error.code (Request.code_of_decode hdecode)

theorem answers_of_given {events : List Event} {c : Connection} {message : Bytes}
    {request : Request} {response : Response} (hstarted : started? message = some request)
    (hcall : request.notification = false) (hgiven : Given events c request response)
    : Answers events c message response := by
  obtain ⟨hdecode, hmethod⟩ := decode_of_started? hstarted
  obtain ⟨index, task, outcome, htask, rfl, hfinish, rfl⟩ := hgiven
  exact .handled message index task outcome htask hdecode hcall hmethod hfinish

theorem Owing.given {events : List Event} {c : Connection} {produced : List (Option Response)}
    (h : Owing events c produced) (hdone : ∀ task ∈ c.tasks, task.stage = .done)
    : List.Forall₂ (Given events c) (((messages events).filterMap started?).filter fun r => !r.notification)
        (produced.filterMap id) := by
  rw [← h.requests]
  apply given_of_accounted h.length
  intro index task response htask hresponse
  have hstage := hdone task (List.mem_of_getElem? htask)
  cases h.accounted index task response htask hresponse with
  | running hrunning =>
    rw [hstage] at hrunning
    cases hrunning
  | silent _ hnotification => exact .inl ⟨hnotification, rfl⟩
  | answered outcome _ hcall hfinish =>
    exact .inr ⟨hcall, _, rfl, index, task, outcome, htask, rfl, hfinish, rfl⟩

theorem written_of_done {events : List Event} {c : Connection} {produced : List (Option Response)}
    (h : Owing events c produced) {cause : TransportError} (hphase : c.phase = .closed cause)
    (hdone : ∀ task ∈ c.tasks, task.stage = .done)
    : c.written.Perm ((messages events).filterMap loopAnswer? ++ produced.filterMap id) := by
  have hnone : c.tasks.filterMap Task.waiting? = [] := by
    apply List.filterMap_eq_nil_iff.2
    intro task htask
    simp [Task.waiting?, hdone task htask]
  have hbalance := h.balance
  rw [hnone, hphase] at hbalance
  simpa [Phase.waiting?] using hbalance

theorem map_id_of_answers {events : List Event} {c : Connection} {messages : List Bytes}
    {responses : List Response} (h : List.Forall₂ (Answers events c) messages responses)
    : responses.map Response.id = messages.filterMap owedId? := by
  induction h with
  | nil => rfl
  | cons hanswer _ ih => rw [List.map_cons, List.filterMap_cons_some hanswer.owedId?_eq, ih]

/--
A run in which reading fails, no write does and nothing more can happen: every handler has ended.
The responses that were written are one for each message that is owed one, with the identifier of
its request, and no others. All of them were written before the writer was closed, once, and the
connection ends with the failure of its reader. Every run comes to this, for none is longer than
its messages allow.
-/
theorem written_perm_answers {events : List Event} {c : Connection} (h : run? {} events = some c)
    (hwrites : ∀ author, .write author false ∉ events) {cause : TransportError}
    (hcause : .readFails cause ∈ events) (hquiet : ∀ event, c.step? event = none)
    : (∃ responses, List.Forall₂ (Answers events c) ((messages events).filter isOwed) responses ∧
        c.written.Perm responses) ∧
      (c.written.map Response.id).Perm ((messages events).filterMap owedId?) ∧
      (∃ before, events = before ++ [.close] ∧ .close ∉ before) ∧
      c.closes = 1 ∧ c.phase = .closed cause ∧
      events.length ≤ 3 * (messages events).length + 2 := by
  have hending := ending_of_run? h
  have hclosed := closed_of_quiet hending hquiet hcause
  obtain ⟨hcloses, hlast, hdone⟩ := hending.closed cause hclosed
  obtain ⟨produced, howing⟩ := owing_of_run? h hwrites
  obtain ⟨responses, hresponses, hperm⟩ := exists_answers (messages events) (howing.given hdone)
  have hanswers : List.Forall₂ (Answers events c) ((messages events).filter isOwed) responses := by
    apply hresponses.imp
    rintro message response (hloop | ⟨request, hstarted, hcall, hgiven⟩)
    . exact answers_of_loop hloop
    . exact answers_of_given hstarted hcall hgiven
  have hwritten := (written_of_done howing hclosed hdone).trans hperm
  refine ⟨⟨responses, hanswers, hwritten⟩, ?_, hlast, hcloses, hclosed, ?_⟩
  . apply (hwritten.map Response.id).trans
    rw [map_id_of_answers hanswers, List.filterMap_filter]
    have hall : (fun message => if isOwed message then owedId? message else none) = owedId? := by
      funext message
      unfold isOwed
      cases owedId? message <;> rfl
    rw [hall]
  . have hlength := length_le_of_run? h
    omega

def cancelledCall : List Event :=
  [.receive [120],
    .write .loop true,
    .receive (Request.encode { method := "work", id := .int 1 }),
    .receive (Request.encode
      { method := cancelMethod, params := some (.object [("id", .ofInt64 1)]), id := .int 2 }),
    .write .loop true,
    .receive (Request.encode { method := "note", notification := true }),
    .finish 1 (.failure (.other "lost")),
    .readFails (.connectionClosed "end of stream"),
    .finish 0 (.failure .cancelled),
    .write (.task 0) true,
    .close]

theorem written_perm_answers_of_cancelledCall
    : ∃ c, run? {} cancelledCall = some c ∧ c.closes = 1 ∧
        c.written.map Response.id = [.null, .int 2, .int 1] ∧
        [.null, .int 1, .int 2].Perm ((messages cancelledCall).filterMap owedId?) := by
  have hrun : (run? {} cancelledCall).map (fun c => (c.phase, c.written.map Response.id))
      = some (.closed (.connectionClosed "end of stream"), [.null, .int 2, .int 1]) := by
    decide +kernel
  obtain ⟨c, hrun, hfacts⟩ := Option.map_eq_some_iff.1 hrun
  obtain ⟨hphase, hwritten⟩ := Prod.mk.inj hfacts
  have hquiet := quiet_of_closed (ending_of_run? hrun) hphase
  have hcause : .readFails (.connectionClosed "end of stream") ∈ cancelledCall := by
    simp [cancelledCall]
  obtain ⟨-, hids, -, hcloses, -⟩ :=
    written_perm_answers hrun (by simp [cancelledCall]) hcause hquiet
  rw [hwritten] at hids
  exact ⟨c, hrun, hcloses, hwritten, (List.Perm.cons _ (List.Perm.swap _ _ _)).trans hids⟩

end JsonRpc.Server.Connection
