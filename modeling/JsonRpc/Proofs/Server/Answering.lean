import JsonRpc.Proofs.Server.Ending

/-!
Which responses a connection of a server owes, and where they are. Each is written, waits for its
write in the read loop or in a task, or is still to come from a handler that is at work.
-/

namespace JsonRpc.Server

def Phase.waiting? : Phase → Option Response
  | .answering response => some response
  | _ => none

def Task.waiting? (task : Task) : Option Response :=
  match task.stage with
  | .answering response => some response
  | _ => none

namespace Connection

def started? (message : Bytes) : Option Request :=
  match Request.decode message with
  | .ok request => if request.method = cancelMethod then none else some request
  | .error _ => none

def loopAnswer? (message : Bytes) : Option Response :=
  match Request.decode message with
  | .ok request =>
    if request.method = cancelMethod then
      if request.notification then none else some (cancelAnswer request)
    else
      none
  | .error e => some { id := .null, outcome := .error e.toErrorObject }

def owedId? (message : Bytes) : Option Id :=
  match Request.decode message with
  | .ok request => if request.notification then none else some request.id
  | .error _ => some .null

inductive Produced (events : List Event) (index : Nat) (task : Task) : Option Response → Prop where
  | running (hstage : task.stage = .running) : Produced events index task none
  | silent (hstage : task.stage = .done) (hnotification : task.request.notification) :
    Produced events index task none
  | answered (outcome : HandlerOutcome) (hstage : task.stage ≠ .running)
    (hcall : task.request.notification = false) (hfinish : .finish index outcome ∈ events) :
    Produced events index task (some (outcome.response task.request.id))

structure Owing (events : List Event) (c : Connection) (produced : List (Option Response)) :
    Prop where
  requests : c.tasks.map Task.request = (messages events).filterMap started?
  length : produced.length = c.tasks.length
  accounted : ∀ index task response, c.tasks[index]? = some task →
    produced[index]? = some response → Produced events index task response
  balance : (c.written ++ (c.phase.waiting?.toList ++ c.tasks.filterMap Task.waiting?)).Perm
    ((messages events).filterMap loopAnswer? ++ produced.filterMap id)

theorem filterMap_set_perm {α β : Type} {xs : List α} {index : Nat} {x : α}
    (hx : xs[index]? = some x) (y : α) (f : α → Option β)
    : ((f x).toList ++ (xs.set index y).filterMap f).Perm ((f y).toList ++ xs.filterMap f) := by
  have hperm := (set_perm hx y).filterMap f
  have hcons : ∀ (z : α) (zs : List α), (z :: zs).filterMap f = (f z).toList ++ zs.filterMap f := by
    intro z zs
    cases hz : f z <;> simp [hz]
  rw [hcons, hcons] at hperm
  exact hperm

theorem Produced.mono {events : List Event} {index : Nat} {task : Task} {response : Option Response}
    (h : Produced events index task response) (event : Event)
    : Produced (events ++ [event]) index task response := by
  cases h with
  | running hstage => exact .running hstage
  | silent hstage hnotification => exact .silent hstage hnotification
  | answered outcome hstage hcall hfinish =>
    exact .answered outcome hstage hcall (List.mem_append_left _ hfinish)

theorem tell_waiting? (tasks : List Task) (seq : Option Nat)
    : (tasks.map (tell seq)).filterMap Task.waiting? = tasks.filterMap Task.waiting? := by
  rw [List.filterMap_map]
  apply List.filterMap_congr
  intro task _
  simp only [Function.comp_apply, tell]
  split <;> rfl

theorem tell_request (tasks : List Task) (seq : Option Nat)
    : (tasks.map (tell seq)).map Task.request = tasks.map Task.request :=
  map_tell tasks seq fun _ => rfl

theorem Produced.tell {events : List Event} {index : Nat} {task : Task} {response : Option Response}
    (h : Produced events index task response) (seq : Option Nat)
    : Produced events index (Connection.tell seq task) response := by
  unfold Connection.tell
  split
  . cases h with
    | running hstage => exact .running hstage
    | silent hstage hnotification => exact .silent hstage hnotification
    | answered outcome hstage hcall hfinish => exact .answered outcome hstage hcall hfinish
  . exact h

theorem set_request {tasks : List Task} {index : Nat} {task : Task}
    (htask : tasks[index]? = some task) (stage : Stage)
    : (tasks.set index { task with stage }).map Task.request = tasks.map Task.request :=
  map_set_stage htask stage rfl

namespace Owing

variable {events : List Event} {c : Connection} {produced : List (Option Response)}

theorem start : Owing [] {} [] := by
  constructor <;> simp [messages, Phase.waiting?]

theorem of_loop (h : Owing events c produced) (hphase : c.phase = .reading) (message : Bytes)
    (hstarted : started? message = none) (phase : Phase)
    (hanswer : phase.waiting? = loopAnswer? message) (seq : Option Nat) (pending : List Slot)
    : Owing (events ++ [.receive message])
        { c with phase, tasks := c.tasks.map (tell seq), pending } produced := by
  constructor
  . rw [tell_request, h.requests]
    simp [messages, Event.message?, hstarted]
  . simpa using h.length
  . intro index task response htask hresponse
    dsimp only at htask
    rw [List.getElem?_map] at htask
    obtain ⟨before, hbefore, rfl⟩ := Option.map_eq_some_iff.1 htask
    exact ((h.accounted index before response hbefore hresponse).tell seq).mono _
  . apply List.perm_iff_count.2
    intro r
    have hbalance := h.balance.count_eq r
    simp only [hphase, Phase.waiting?] at hbalance
    simp only [messages, List.filterMap_append, tell_waiting?, hanswer, List.count_append] at *
    cases hloop : loopAnswer? message with
    | none => simpa [Event.message?, hloop] using hbalance
    | some response =>
      simp [Event.message?, hloop] at *
      omega

theorem of_start (h : Owing events c produced) {message : Bytes} {request : Request}
    (hstarted : started? message = some request) (hloop : loopAnswer? message = none)
    (slot : Option Nat) (pending : List Slot) (nextSeq : Nat)
    : Owing (events ++ [.receive message])
        { c with tasks := c.tasks ++ [{ request, slot }], pending, nextSeq } (produced ++ [none]) := by
  constructor
  . simp [h.requests, messages, Event.message?, hstarted]
  . simp [h.length]
  . intro index task response htask hresponse
    by_cases hlt : index < c.tasks.length
    . rw [List.getElem?_append_left hlt] at htask
      rw [List.getElem?_append_left (by rw [h.length]; exact hlt)] at hresponse
      exact (h.accounted index task response htask hresponse).mono _
    . rw [List.getElem?_append_right (by omega), List.getElem?_singleton] at htask
      rw [List.getElem?_append_right (by rw [h.length]; omega), List.getElem?_singleton] at hresponse
      split at htask <;> split at hresponse <;> cases htask <;> cases hresponse
      exact .running rfl
  . have hbalance := h.balance
    have hnew : Task.waiting? { request, slot } = none := rfl
    simpa [messages, Event.message?, hloop, hnew] using hbalance

theorem of_set (h : Owing events c produced) {index : Nat} {task : Task}
    (htask : c.tasks[index]? = some task) (stage : Stage) {given after : Option Response}
    (hgiven : produced[index]? = some given) (event : Event) (hevent : event.message? = none)
    (hproduced : Produced (events ++ [event]) index { task with stage } after)
    (pending : List Slot) (more : List Response)
    (hmoved : (more ++ (Task.waiting? { task with stage }).toList ++ given.toList).Perm
      (task.waiting?.toList ++ after.toList))
    : Owing (events ++ [event])
        { c with tasks := c.tasks.set index { task with stage }, pending, written := c.written ++ more }
        (produced.set index after) := by
  constructor
  . simp [set_request htask, h.requests, messages, hevent]
  . simp [h.length]
  . intro index' task' response htask' hresponse'
    by_cases hindex : index = index'
    . subst hindex
      obtain ⟨hlt, -⟩ := List.getElem?_eq_some_iff.1 htask
      obtain ⟨hlt', -⟩ := List.getElem?_eq_some_iff.1 hgiven
      simp only [List.getElem?_set_self hlt, List.getElem?_set_self hlt', Option.some.injEq] at *
      subst htask' hresponse'
      exact hproduced
    . rw [List.getElem?_set_ne hindex] at htask' hresponse'
      exact (h.accounted index' task' response htask' hresponse').mono _
  -- The balance is compared one response at a time, as a sum of counts.
  . apply List.perm_iff_count.2
    intro r
    have hbalance := h.balance.count_eq r
    have htasks := (filterMap_set_perm htask { task with stage } Task.waiting?).count_eq r
    have hanswers := (filterMap_set_perm hgiven after id).count_eq r
    have hmoved := hmoved.count_eq r
    simp only [messages, List.filterMap_append, List.filterMap_cons, List.filterMap_nil, hevent,
      List.count_append, List.append_nil, id] at *
    omega

theorem of_phase (h : Owing events c produced) (event : Event) (hevent : event.message? = none)
    (phase : Phase) (more : List Response) (closes : Nat)
    (hmoved : (more ++ phase.waiting?.toList).Perm c.phase.waiting?.toList)
    : Owing (events ++ [event]) { c with phase, written := c.written ++ more, closes } produced := by
  constructor
  . simp [h.requests, messages, hevent]
  . exact h.length
  . intro index task response htask hresponse
    exact (h.accounted index task response htask hresponse).mono _
  . apply List.perm_iff_count.2
    intro r
    have hbalance := h.balance.count_eq r
    have hmoved := hmoved.count_eq r
    simp only [messages, List.filterMap_append, List.filterMap_cons, List.filterMap_nil, hevent,
      List.count_append, List.append_nil] at *
    omega

theorem exists_given (h : Owing events c produced) {index : Nat} {task : Task}
    (htask : c.tasks[index]? = some task)
    : ∃ given, produced[index]? = some given ∧ Produced events index task given := by
  obtain ⟨hlt, -⟩ := List.getElem?_eq_some_iff.1 htask
  rw [← h.length] at hlt
  have hgiven : produced[index]? = some produced[index] := List.getElem?_eq_getElem hlt
  exact ⟨_, hgiven, h.accounted index task _ htask hgiven⟩

theorem of_finish (h : Owing events c produced) {index : Nat} {task : Task}
    (htask : c.tasks[index]? = some task) (hstage : task.stage = .running)
    (outcome : HandlerOutcome) (pending : List Slot)
    : ∃ produced', Owing (events ++ [.finish index outcome])
        { c with
          tasks := c.tasks.set index { task with stage := Stage.afterHandler task.request outcome }
          pending } produced' := by
  obtain ⟨given, hgiven, hproduced⟩ := h.exists_given htask
  have hnone : given = none := by
    cases hproduced with
    | answered outcome hrunning => exact absurd hstage hrunning
    | _ => rfl
  subst hnone
  unfold Stage.afterHandler
  cases hnotification : task.request.notification with
  | true =>
    refine ⟨produced.set index none, ?_⟩
    have := h.of_set htask .done hgiven (.finish index outcome) rfl (.silent rfl hnotification)
      pending [] (by simp [Task.waiting?, hstage])
    simpa using this
  | false =>
    refine ⟨produced.set index (some (outcome.response task.request.id)), ?_⟩
    have := h.of_set htask (.answering (outcome.response task.request.id)) hgiven
      (.finish index outcome) rfl (.answered outcome (by simp) hnotification (by simp)) pending []
      (by simp [Task.waiting?, hstage])
    simpa using this

theorem of_taskWrites (h : Owing events c produced) {index : Nat} {task : Task} {response : Response}
    (htask : c.tasks[index]? = some task) (hstage : task.stage = .answering response)
    : ∃ produced', Owing (events ++ [.write (.task index) true])
        { c with
          tasks := c.tasks.set index { task with stage := .done }
          written := c.written ++ [response] } produced' := by
  obtain ⟨given, hgiven, hproduced⟩ := h.exists_given htask
  refine ⟨produced.set index given, ?_⟩
  have hdone : Produced (events ++ [.write (.task index) true]) index { task with stage := .done }
      given := by
    cases hproduced with
    | running hrunning => simp [hstage] at hrunning
    | silent hdone => simp [hstage] at hdone
    | answered outcome _ hcall hfinish =>
      exact .answered outcome (by simp) hcall (List.mem_append_left _ hfinish)
  exact h.of_set htask .done hgiven _ rfl hdone c.pending [response]
    (by simp [Task.waiting?, hstage])

theorem move {event : Event} {c' : Connection} (h : Owing events c produced)
    (hmove : Move c event c') (hwrites : ∀ author, event ≠ .write author false)
    : ∃ produced', Owing (events ++ [event]) c' produced' := by
  cases hmove with
  | reject message error hphase hdecode =>
    have := h.of_loop hphase message (by simp [started?, hdecode])
      (.answering { id := .null, outcome := .error error.toErrorObject })
      (by simp [Phase.waiting?, loopAnswer?, hdecode]) none c.pending
    rw [map_tell_none] at this
    exact ⟨produced, this⟩
  | cancel message request hphase hdecode hmethod =>
    refine ⟨produced, h.of_loop hphase message (by simp [started?, hdecode, hmethod]) _ ?_ _ _⟩
    cases hnotification : request.notification <;>
      simp [Phase.waiting?, loopAnswer?, hdecode, hmethod, hnotification]
  | start message request hphase hdecode hmethod =>
    exact ⟨_, h.of_start (by simp [started?, hdecode, hmethod])
      (by simp [loopAnswer?, hdecode, hmethod]) _ _ _⟩
  | fail cause hphase =>
    have := h.of_phase (.readFails cause) rfl (.draining cause) [] c.closes
      (by simp [hphase, Phase.waiting?])
    exact ⟨produced, by simpa using this⟩
  | close cause hphase =>
    have := h.of_phase .close rfl (.closed cause) [] (c.closes + 1)
      (by simp [hphase, Phase.waiting?])
    exact ⟨produced, by simpa using this⟩
  | finish index task outcome htask hstage => exact h.of_finish htask hstage outcome _
  | loopWrites response succeeds hphase =>
    cases succeeds with
    | false => exact absurd rfl (hwrites .loop)
    | true =>
      exact ⟨produced, h.of_phase (.write .loop true) rfl .reading [response] c.closes
        (by simp [hphase, Phase.waiting?])⟩
  | taskWrites index task response succeeds htask hstage =>
    cases succeeds with
    | false => exact absurd rfl (hwrites (.task index))
    | true => exact h.of_taskWrites htask hstage

end Owing

theorem owing_of_run? {events : List Event} {c : Connection} (h : run? {} events = some c)
    (hwrites : ∀ author, .write author false ∉ events) : ∃ produced, Owing events c produced := by
  have hkeep : (∀ author, .write author false ∉ events) → ∃ produced, Owing events c produced := by
    apply holds_of_run? (P := fun events c =>
      (∀ author, .write author false ∉ events) → ∃ produced, Owing events c produced) _ _ h
    . intro _
      exact ⟨[], Owing.start⟩
    . intro events c event c' ih hmove hwrites
      obtain ⟨produced, howing⟩ := ih fun author hmem =>
        hwrites author (List.mem_append_left _ hmem)
      apply howing.move hmove
      rintro author rfl
      exact hwrites author (by simp)
  exact hkeep hwrites

end Connection

end JsonRpc.Server
