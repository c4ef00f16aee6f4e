import JsonRpc.Proofs.Envelope.ReadBack
import JsonRpc.Proofs.Link.Composition
import JsonRpc.Proofs.Server.Answers
import JsonRpc.Proofs.Client.WireId
import Mathlib.Algebra.Group.Nat.Defs
import Mathlib.Data.List.NodupEquivFin

/-!
No call gets the outcome of another. A server works at most once for each call, and a call that is
answered is told what the handler made of the request that was written for it.
-/

namespace JsonRpc

def Server.HandlerOutcome.told : Server.HandlerOutcome → Outcome
  | .answer response => response.outcome.asRead
  | .failure error => (Outcome.error error.toErrorObject).asRead
  | .panic => .error panicked

theorem Server.HandlerOutcome.asRead_response (outcome : Server.HandlerOutcome) (id : Id)
    : (outcome.response id).outcome.asRead = outcome.told := by
  cases outcome <;> rfl

namespace Link

variable {handler : Request → (cancelled : Bool) → Server.HandlerOutcome}

def task? (l : Link) (line index : Nat) : Option Server.Task :=
  l.lines[line]?.bind (·.server.tasks[index]?)

structure WrittenFor (l : Link) (ticket line : Nat) (request : Request) : Prop where
  command : ∃ call, l.client.commands[ticket]? = some (.call call) ∧
    request.method = call.method ∧ request.params = call.params
  id : ∃ id, (line, ticket, id) ∈ l.client.numbered ∧ request.id = .text (WireId.format id)

def begunRequest? (commands : List Client.Command) : Client.Occurrence → Option Request
  | .begun _ ticket id => Client.requestOf? commands ticket id
  | _ => none

def Event.notified? : Event → Option Request
  | .borrowerNotifies _ request => some request
  | _ => none

structure ReadsBack (events : List Event) (l : Link) : Prop where
  written : ∀ request ∈ l.client.history.filterMap (begunRequest? l.client.commands),
    request.ReadsBack
  borrowed : ∀ request ∈ events.filterMap Event.notified?, request.ReadsBack
  responses : ∀ response ∈ l.lines.flatMap (·.server.written), response.ReadsBack

instance (events : List Event) (l : Link) : Decidable (l.ReadsBack events) :=
  decidable_of_iff
    ((∀ request ∈ l.client.history.filterMap (begunRequest? l.client.commands),
        request.ReadsBack) ∧
      (∀ request ∈ events.filterMap Event.notified?, request.ReadsBack) ∧
      ∀ response ∈ l.lines.flatMap (·.server.written), response.ReadsBack)
    ⟨fun ⟨written, borrowed, responses⟩ => ⟨written, borrowed, responses⟩,
      fun ⟨written, borrowed, responses⟩ => ⟨written, borrowed, responses⟩⟩

theorem map_fst_sublist {α β : Type} (f : β → Option α) (xs : List (Nat × β))
    : ((xs.filterMap fun x => (f x.2).map (x.1, ·)).map Prod.fst).Sublist (xs.map Prod.fst) := by
  induction xs with
  | nil => exact List.Sublist.refl _
  | cons x xs ih =>
    rw [List.filterMap_cons, List.map_cons]
    cases f x.2 with
    | none => exact ih.cons _
    | some y => exact ih.cons_cons _

theorem Line.Joined.exists_tickets {carried : List (Nat × Bytes)} {x : Line}
    (h : x.Joined handler carried)
    : ∃ tickets : List Nat, tickets.Sublist (carried.map Prod.fst) ∧
        ∀ (index : Nat) (task : Server.Task), x.server.tasks[index]? = some task → ∃ ticket message,
          tickets[index]? = some ticket ∧ (ticket, message) ∈ carried ∧
            Server.Connection.started? message = some task.request := by
  obtain ⟨arrived, waiting, hcarried, -, hserved⟩ := h.requests
  have harrived : arrived.Sublist carried := (List.sublist_append_left _ _).trans hcarried
  let started := arrived.filterMap fun a =>
    (Server.Connection.started? a.2).map (a.1, ·)
  refine ⟨started.map Prod.fst, (map_fst_sublist _ _).trans (harrived.map _), ?_⟩
  intro index task htask
  have hrequests : x.server.tasks.map Server.Task.request = started.map Prod.snd := by
    rw [hserved.requests, List.filterMap_map, List.map_filterMap]
    congr 1
    funext a
    simp
  have hget : (started.map Prod.snd)[index]? = some task.request := by
    rw [← hrequests, List.getElem?_map, htask]
    rfl
  rw [List.getElem?_map] at hget
  obtain ⟨⟨ticket, request⟩, hentry, rfl⟩ := Option.map_eq_some_iff.1 hget
  obtain ⟨a, ha, heq⟩ := List.mem_filterMap.1 (List.mem_of_getElem? hentry)
  obtain ⟨request, hstarted, hpair⟩ := Option.map_eq_some_iff.1 heq
  cases hpair
  refine ⟨a.1, a.2, ?_, harrived.subset ha, hstarted⟩
  rw [List.getElem?_map, hentry]
  rfl

theorem place_unique {xs : List Nat} {a i j : Nat} (hcount : xs.count a ≤ 1)
    (hi : xs[i]? = some a) (hj : xs[j]? = some a) : i = j := by
  obtain ⟨hilt, hia⟩ := List.getElem?_eq_some_iff.1 hi
  obtain ⟨hjlt, hja⟩ := List.getElem?_eq_some_iff.1 hj
  have honce : ¬xs.Duplicate a := by
    rw [List.duplicate_iff_two_le_count]
    omega
  rw [List.duplicate_iff_exists_distinct_get] at honce
  rcases Nat.lt_trichotomy i j with hlt | heq | hgt
  . exact absurd ⟨⟨i, hilt⟩, ⟨j, hjlt⟩, hlt, hia.symm, hja.symm⟩ honce
  . exact heq
  . exact absurd ⟨⟨j, hjlt⟩, ⟨i, hilt⟩, hgt, hja.symm, hia.symm⟩ honce

section

variable {events : List Event} {l : Link} (h : Composed handler events l)
  (hnotify : ∀ request, .notify request ∈ l.client.commands → request.notification)
  (hcount : l.client.numbered.length ≤ 2 ^ 64) (hreads : l.ReadsBack events)

include h hcount in
theorem WrittenFor.unique {ticket line ticket' line' : Nat} {request : Request} {id : Int64}
    {s : String} (hwritten : l.WrittenFor ticket line request) (hrequest : request.id = .text s)
    (hparse : WireId.parse? s = some id) (hid : (line', ticket', id) ∈ l.client.numbered)
    : ticket = ticket' ∧ line = line' := by
  obtain ⟨own, hown, htext⟩ := hwritten.id
  rw [hrequest] at htext
  cases htext
  rw [WireId.parse?_format] at hparse
  cases hparse
  have heq := h.client.sound.numbering.eq_of_mem hcount hown hid rfl
  cases heq
  exact ⟨rfl, rfl⟩

include h hnotify hreads in
theorem writtenFor_of_carried {line ticket : Nat} {message : Bytes} {request : Request}
    (hcarried : (ticket, message) ∈ l.client.carried line)
    (hdecode : Request.decode message = .ok request) (hcall : request.notification = false)
    : l.WrittenFor ticket line request := by
  cases h.client.outbound line ticket message (Client.transmitted_of_mem_carried hcarried) with
  | written id written hrequest hbegun hmessage =>
    subst hmessage
    have hback := hreads.written written (List.mem_filterMap.2 ⟨_, hbegun, hrequest⟩)
    obtain ⟨hmethod, hparams, hnotification, hid⟩ := Request.of_decode hback hdecode
    unfold Client.requestOf? at hrequest
    split at hrequest
    . next call number hcommand =>
      cases hrequest
      refine ⟨⟨call, hcommand, hmethod, hparams⟩, number, ?_, hid⟩
      exact List.mem_filterMap.2 ⟨_, hbegun, rfl⟩
    . next notify hcommand =>
      cases hrequest
      have := hnotify written (List.mem_of_getElem? hcommand)
      rw [hnotification, this] at hcall
      cases hcall
    . cases hrequest
  | borrowed hlend hevent =>
    obtain ⟨notify, hmem, hnotification, rfl⟩ := hevent
    have hback := hreads.borrowed notify (List.mem_filterMap.2 ⟨_, hmem, rfl⟩)
    obtain ⟨-, -, hsame, -⟩ := Request.of_decode hback hdecode
    rw [hsame, hnotification] at hcall
    cases hcall

include h hnotify hreads in
theorem exists_callers {line : Nat} {x : Line} (hline : l.lines[line]? = some x)
    : ∃ tickets : List Nat, tickets.Sublist ((l.client.carried line).map Prod.fst) ∧
        ∀ (index : Nat) (task : Server.Task), x.server.tasks[index]? = some task → task.request.notification = false →
          ∃ ticket, tickets[index]? = some ticket ∧ l.WrittenFor ticket line task.request := by
  obtain ⟨tickets, hsub, htasks⟩ := (h.lines line x hline).exists_tickets
  refine ⟨tickets, hsub, ?_⟩
  intro index task htask hcall
  obtain ⟨ticket, message, hticket, hcarried, hstarted⟩ := htasks index task htask
  obtain ⟨hdecode, -⟩ := Server.Connection.decode_of_started? hstarted
  exact ⟨ticket, hticket, writtenFor_of_carried h hnotify hreads hcarried hdecode hcall⟩

include h hnotify hcount hreads in
theorem task_unique {ticket line line' index index' : Nat} {task task' : Server.Task}
    (htask : l.task? line index = some task) (htask' : l.task? line' index' = some task')
    (hcall : task.request.notification = false) (hcall' : task'.request.notification = false)
    (hwritten : l.WrittenFor ticket line task.request)
    (hwritten' : l.WrittenFor ticket line' task'.request)
    : line = line' ∧ index = index' := by
  have hsound := h.client.sound
  obtain ⟨⟨call, hcommand, -⟩, id, hid, htext⟩ := hwritten
  obtain ⟨-, id', hid', htext'⟩ := hwritten'
  -- A call is given one identifier on one line, and its message leaves there once.
  have heq := List.inj_on_of_nodup_map hsound.numbered_nodup hid hid' rfl
  cases heq
  obtain ⟨x, hline, hget⟩ := Option.bind_eq_some_iff.1 htask
  obtain ⟨y, hline', hget'⟩ := Option.bind_eq_some_iff.1 htask'
  rw [hline] at hline'
  cases hline'
  obtain ⟨tickets, hsub, htasks⟩ := exists_callers h hnotify hreads hline
  have hplace : ∀ (index : Nat) (task : Server.Task), x.server.tasks[index]? = some task →
      task.request.notification = false → task.request.id = .text (WireId.format id) →
        tickets[index]? = some ticket := by
    intro index task hget hcall htext
    obtain ⟨owner, howner, hwritten⟩ := htasks index task hget hcall
    have := (hwritten.unique h hcount htext (WireId.parse?_format id) hid).1
    rw [← this]
    exact howner
  have hcount : tickets.count ticket ≤ 1 :=
    (hsub.count_le ticket).trans (hsound.count_carried_le line (by simp [hcommand]))
  exact ⟨rfl, place_unique hcount (hplace index task hget hcall htext)
    (hplace index' task' hget' hcall' htext')⟩

include h hreads in
theorem exists_response {ticket : Nat} {response : Response}
    (hreplied : .replied ticket (.answered response) ∈ l.client.history)
    : ∃ line x id s written, l.lines[line]? = some x ∧ written ∈ x.server.written ∧
        (∃ call, l.client.commands[ticket]? = some (.call call)) ∧
        (line, ticket, id) ∈ l.client.numbered ∧ written.id = .text s ∧
        WireId.parse? s = some id ∧ response.outcome = written.outcome.asRead := by
  have hanswer : (ticket, response) ∈ l.client.history.filterMap Client.Occurrence.answer? :=
    List.mem_filterMap.2 ⟨_, hreplied, rfl⟩
  rw [h.client.correlation.answers] at hanswer
  obtain ⟨d, hd, hmem⟩ := List.mem_flatMap.1 hanswer
  have hmem := List.mem_reverse.1 hmem
  have hsuffix := Client.earlier_suffix hd
  have hcorrelated := h.client.correlation.correlated d hd
  -- What is heard on a line was written by the server of the line.
  have hheard := Client.mem_heard_of_received (hsuffix.subset hcorrelated.received)
  obtain ⟨x, hline, written, hwritten, hmessage⟩ := h.client.hears d.line d.message hheard
  have hback := hreads.responses written
    (List.mem_flatMap.2 ⟨x, List.mem_of_getElem? hline, hwritten⟩)
  obtain ⟨extra, hbatch⟩ := Response.decodeBatch_encode hback
  have hresponse := hcorrelated.responses.subset (List.mem_map_of_mem hmem)
  unfold Client.responsesOf at hresponse
  rw [hmessage, hbatch] at hresponse
  cases List.mem_singleton.1 hresponse
  obtain ⟨id, s, hid, hparse, hsent⟩ := hcorrelated.answers _ hmem
  have hsent : Client.Sent (l.client.commands ++ []) l.client.history d.line ticket (some id) :=
    hsent.mono hsuffix.sublist
  rw [List.append_nil] at hsent
  exact ⟨d.line, x, id, s, written, hline, hwritten, hsent.call, hsent.mem_numbered, hid, hparse,
    rfl⟩

include h hnotify hcount hreads in
theorem exists_task_of_answered {ticket : Nat} {response : Response} {call : Request}
    (hreplied : .replied ticket (.answered response) ∈ l.client.history)
    (hcommand : l.client.commands[ticket]? = some (.call call))
    (hmethod : call.method ≠ cancelMethod)
    : ∃ line index task, l.task? line index = some task ∧ task.request.notification = false ∧
        l.WrittenFor ticket line task.request ∧ task.stage ≠ .running ∧
        response.outcome = (handler task.request task.cancelled).told := by
  obtain ⟨line, x, id, s, written, hline, hwritten, -, hid, htext, hparse, houtcome⟩ :=
    exists_response h hreads hreplied
  obtain ⟨arrived, waiting, hsub, -, hserved⟩ := (h.lines line x hline).requests
  rcases hserved.sources written (List.mem_append_left _ hwritten) with
    ⟨_, hnull⟩ | ⟨message, request, hmem, hdecode, hcall, hcancel⟩ | ⟨index, task, htask, hcall, hended⟩
  . rw [hnull] at htext
    cases htext
  -- The client takes the answer to a cancellation for that of the call that carries it.
  . obtain ⟨⟨owner, message⟩, harrived, rfl⟩ := List.mem_map.1 hmem
    have hcarried := hsub.subset (List.mem_append_left _ harrived)
    have hfor := writtenFor_of_carried h hnotify hreads hcarried hdecode hcall
    rw [Server.Connection.cancelAnswer_id] at htext
    obtain ⟨rfl, -⟩ := hfor.unique h hcount htext hparse hid
    obtain ⟨⟨own, hown, hsame, -⟩, -⟩ := hfor
    rw [hcommand] at hown
    cases hown
    exact absurd (hsame.symm.trans hcancel) hmethod
  . obtain ⟨tickets, -, htasks⟩ := exists_callers h hnotify hreads hline
    obtain ⟨owner, -, hfor⟩ := htasks index task htask hcall
    unfold Server.Task.answer at htext houtcome
    rw [Server.Connection.response_id] at htext
    rw [Server.HandlerOutcome.asRead_response] at houtcome
    obtain ⟨rfl, -⟩ := hfor.unique h hcount htext hparse hid
    refine ⟨line, index, task, ?_, hcall, hfor, hended, houtcome⟩
    unfold task?
    rw [hline]
    exact htask

end

/--
In every run each task that is no notification is the work on one call, with the call's method and
parameters, and no call has two tasks. A call that is answered is told what the handler made of its
task.
-/
theorem answered_by_own_task {config : ClientConfig} {events : List Event} {l : Link}
    (h : run? handler (start config) events = some l)
    (hnotify : ∀ request, .notify request ∈ l.client.commands → request.notification)
    (hcount : l.client.numbered.length ≤ 2 ^ 64) (hreads : l.ReadsBack events)
    : (∀ line index task, l.task? line index = some task → task.request.notification = false →
        ∃ ticket, l.WrittenFor ticket line task.request ∧
          ∀ ticket', l.WrittenFor ticket' line task.request → ticket' = ticket) ∧
      (∀ ticket line line' index index' task task', l.task? line index = some task →
        l.task? line' index' = some task' → task.request.notification = false →
        task'.request.notification = false → l.WrittenFor ticket line task.request →
        l.WrittenFor ticket line' task'.request → line = line' ∧ index = index') ∧
      (∀ ticket response, .replied ticket (.answered response) ∈ l.client.history →
        ∃ call, l.client.commands[ticket]? = some (.call call) ∧
          (call.method ≠ cancelMethod →
            ∃ line index task, l.task? line index = some task ∧
              task.request.notification = false ∧ l.WrittenFor ticket line task.request ∧
              task.stage ≠ .running ∧
              response.outcome = (handler task.request task.cancelled).told)) := by
  have hcomposed := composed_of_run? h
  refine ⟨?_, ?_, ?_⟩
  . intro line index task htask hcall
    obtain ⟨x, hline, hget⟩ := Option.bind_eq_some_iff.1 htask
    obtain ⟨tickets, -, htasks⟩ := exists_callers hcomposed hnotify hreads hline
    obtain ⟨ticket, -, hfor⟩ := htasks index task hget hcall
    refine ⟨ticket, hfor, ?_⟩
    intro ticket' hfor'
    obtain ⟨id, hid, htext⟩ := hfor.id
    exact (hfor'.unique hcomposed hcount htext (WireId.parse?_format id) hid).1
  . intro ticket line line' index index' task task' htask htask' hcall hcall' hfor hfor'
    exact task_unique hcomposed hnotify hcount hreads htask htask' hcall hcall' hfor hfor'
  . intro ticket response hreplied
    obtain ⟨-, -, -, -, -, -, -, ⟨call, hcommand⟩, -⟩ := exists_response hcomposed hreads hreplied
    exact ⟨call, hcommand,
      exists_task_of_answered hcomposed hnotify hcount hreads hreplied hcommand⟩

def crossingAnswers : List Event :=
  [.client (.issue (.call { method := "a" })), .client (.issue (.call { method := "b" })),
    .client .connects, .client .turn, .client .transmits, .client (.writeReturns true),
    .client .turn, .client .transmits, .client (.writeReturns true),
    .requestArrives 0, .requestArrives 0, .finish 0 1, .respond 0 (.task 1) true, .finish 0 0,
    .respond 0 (.task 0) true, .responseArrives 0, .responseArrives 0,
    .client (.reads 0), .client (.reads 0), .client .turn, .client .turn]

def knowsA (request : Request) (_ : Bool) : Server.HandlerOutcome :=
  if request.method = "a" then .answer (.ok (.bool true)) else .panic

theorem answered_by_own_task_of_crossingAnswers
    : ∃ l, run? knowsA (start {}) crossingAnswers = some l ∧
        .replied 0 (.answered ⟨.text "1", .result (.bool true), []⟩) ∈ l.client.history ∧
        ∃ line index task, l.task? line index = some task ∧ l.WrittenFor 0 line task.request ∧
          (knowsA task.request task.cancelled).told = .result (.bool true) := by
  have hrun : (run? knowsA (start {}) crossingAnswers).map (fun l =>
      (decide (l.ReadsBack crossingAnswers), l.client.commands, l.client.numbered.length,
        decide (.replied 0 (.answered ⟨.text "1", .result (.bool true), []⟩) ∈ l.client.history)))
      = some (true, [.call { method := "a" }, .call { method := "b" }], 2, true) := by
    decide +kernel
  obtain ⟨l, hrun, hfacts⟩ := Option.map_eq_some_iff.1 hrun
  obtain ⟨hreads, hfacts⟩ := Prod.mk.inj hfacts
  obtain ⟨hcommands, hfacts⟩ := Prod.mk.inj hfacts
  obtain ⟨hlength, hreplied⟩ := Prod.mk.inj hfacts
  have hreplied := of_decide_eq_true hreplied
  obtain ⟨-, -, hanswers⟩ := answered_by_own_task hrun (by simp [hcommands]) (by omega)
    (of_decide_eq_true hreads)
  refine ⟨l, hrun, hreplied, ?_⟩
  obtain ⟨call, hcommand, htask⟩ := hanswers 0 _ hreplied
  have hmethod : call.method ≠ cancelMethod := by
    rw [hcommands] at hcommand
    cases hcommand
    decide
  obtain ⟨line, index, task, htask, -, hfor, -, houtcome⟩ := htask hmethod
  exact ⟨line, index, task, htask, hfor, houtcome.symm⟩

end Link

end JsonRpc
