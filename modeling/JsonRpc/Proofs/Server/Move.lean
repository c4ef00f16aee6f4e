import JsonRpc.Proofs.Run
import JsonRpc.Server.Connection

/-!
What a connection of a server can do: a move for each kind of event, with the parts of the
connection that it changes and the conditions under which it happens.
-/

namespace JsonRpc.Server.Connection

def target? (request : Request) : Option Id :=
  (cancelTarget request).toOption

def cancelAnswer (request : Request) : Response :=
  match cancelTarget request with
  | .ok _ => { id := request.id, outcome := .result .null }
  | .error e => { id := request.id, outcome := .error e.toErrorObject }

def seq? (c : Connection) (id : Option Id) : Option Nat :=
  (id.bind c.slot?).map Slot.seq

def tell (seq : Option Nat) (task : Task) : Task :=
  if seq.isSome ∧ task.slot = seq then { task with cancelled := true } else task

def registers (c : Connection) (request : Request) : Bool :=
  !(request.notification || (c.slot? request.id).isSome)

theorem map_tell_none (tasks : List Task) : tasks.map (tell none) = tasks := by
  apply List.map_id''
  intro task
  simp [tell]

theorem cancelId_eq (c : Connection) (target : Id)
    : c.cancelId target
        =
      { c with
        tasks := c.tasks.map (tell (c.seq? (some target)))
        pending := c.pending.filter fun s => some s.id ≠ some target } := by
  unfold cancelId seq?
  cases hslot : c.slot? target with
  | none =>
    have hkept : c.pending.filter (fun s => some s.id ≠ some target) = c.pending := by
      apply List.filter_eq_self.2
      intro s hs
      have := List.find?_eq_none.1 hslot s hs
      simpa using this
    simp only [Option.bind_some, hslot, Option.map_none, map_tell_none, hkept]
  | some slot => simp [hslot, fire, tell]

theorem cancel_eq (c : Connection) (request : Request)
    : c.cancel request
        =
      { c with
        phase := if request.notification then c.phase else .answering (cancelAnswer request)
        tasks := c.tasks.map (tell (c.seq? (target? request)))
        pending := c.pending.filter fun s => some s.id ≠ target? request } := by
  unfold cancel cancelAnswer
  cases htarget : cancelTarget request with
  | ok target =>
    have hnamed : target? request = some target := by
      unfold target?
      rw [htarget]
      rfl
    dsimp only
    rw [hnamed, cancelId_eq]
    cases hn : request.notification <;> simp [respond]
  | error e =>
    have hnamed : target? request = none := by
      unfold target?
      rw [htarget]
      rfl
    have htold : c.tasks.map (tell (c.seq? none)) = c.tasks := map_tell_none c.tasks
    have hkept : c.pending.filter (fun s => some s.id ≠ none) = c.pending := by
      apply List.filter_eq_self.2
      simp
    dsimp only
    rw [hnamed, htold, hkept]
    cases hn : request.notification <;> rfl

theorem dispatch_eq (c : Connection) (request : Request)
    : c.dispatch request
        =
      { c with
        tasks := c.tasks ++
          [{ request, slot := if c.registers request then some c.nextSeq else none }]
        pending := if c.registers request then c.pending ++ [⟨request.id, c.nextSeq⟩] else c.pending
        nextSeq := if c.registers request then c.nextSeq + 1 else c.nextSeq } := by
  unfold dispatch registers
  by_cases h : request.notification || (c.slot? request.id).isSome
  . simp [h]
  . simp [h]

inductive Move (c : Connection) : Event → Connection → Prop where
  | reject (message : Bytes) (error : ProtocolError) (hphase : c.phase = .reading)
    (hdecode : Request.decode message = .error error) :
    Move c (.receive message)
      { c with phase := .answering { id := .null, outcome := .error error.toErrorObject } }
  | cancel (message : Bytes) (request : Request) (hphase : c.phase = .reading)
    (hdecode : Request.decode message = .ok request) (hmethod : request.method = cancelMethod) :
    Move c (.receive message)
      { c with
        phase := if request.notification then .reading else .answering (cancelAnswer request)
        tasks := c.tasks.map (tell (c.seq? (target? request)))
        pending := c.pending.filter fun s => some s.id ≠ target? request }
  | start (message : Bytes) (request : Request) (hphase : c.phase = .reading)
    (hdecode : Request.decode message = .ok request) (hmethod : request.method ≠ cancelMethod) :
    Move c (.receive message)
      { c with
        tasks := c.tasks ++
          [{ request, slot := if c.registers request then some c.nextSeq else none }]
        pending := if c.registers request then c.pending ++ [⟨request.id, c.nextSeq⟩] else c.pending
        nextSeq := if c.registers request then c.nextSeq + 1 else c.nextSeq }
  | fail (cause : TransportError) (hphase : c.phase = .reading) :
    Move c (.readFails cause) { c with phase := .draining cause }
  | finish (index : Nat) (task : Task) (outcome : HandlerOutcome)
    (htask : c.tasks[index]? = some task) (hstage : task.stage = .running) :
    Move c (.finish index outcome)
      { c with
        tasks := c.tasks.set index { task with stage := Stage.afterHandler task.request outcome }
        pending := c.pending.filter fun s => !(s.id = task.request.id && some s.seq = task.slot) }
  | loopWrites (response : Response) (succeeds : Bool) (hphase : c.phase = .answering response) :
    Move c (.write .loop succeeds)
      { c with
        phase := .reading
        written := if succeeds then c.written ++ [response] else c.written }
  | taskWrites (index : Nat) (task : Task) (response : Response) (succeeds : Bool)
    (htask : c.tasks[index]? = some task) (hstage : task.stage = .answering response) :
    Move c (.write (.task index) succeeds)
      { c with
        tasks := c.tasks.set index { task with stage := .done }
        written := if succeeds then c.written ++ [response] else c.written }
  | close (cause : TransportError) (hphase : c.phase = .draining cause)
    (hdone : ∀ task ∈ c.tasks, task.stage = .done) :
    Move c .close { c with phase := .closed cause, closes := c.closes + 1 }

theorem receive?_move {c c' : Connection} {message : Bytes} (h : c.receive? message = some c')
    : Move c (.receive message) c' := by
  unfold receive? at h
  split at h
  . next hphase =>
    cases h
    unfold accept
    split
    . next error hdecode => exact .reject message error hphase hdecode
    . next request hdecode =>
      split
      . next hmethod =>
        have := Move.cancel message request hphase hdecode hmethod
        rw [cancel_eq, hphase]
        exact this
      . next hmethod =>
        rw [dispatch_eq]
        exact .start message request hphase hdecode hmethod
  . cases h

theorem finish?_move {c c' : Connection} {index : Nat} {outcome : HandlerOutcome}
    (h : c.finish? index outcome = some c') : Move c (.finish index outcome) c' := by
  unfold finish? at h
  split at h
  . next task htask =>
    split at h
    . next hstage =>
      cases h
      exact .finish index task outcome htask hstage
    . cases h
  . cases h

theorem set_of_modify {tasks : List Task} {index : Nat} {task : Task}
    (htask : tasks[index]? = some task) (f : Task → Task)
    : tasks.modify index f = tasks.set index (f task) := by
  apply List.ext_getElem?
  intro i
  rw [List.getElem?_modify, List.getElem?_set]
  by_cases hi : index = i
  . subst hi
    obtain ⟨hlt, hget⟩ := List.getElem?_eq_some_iff.1 htask
    simp [hlt, hget]
  . simp [hi]

theorem map_set_stage {α : Type} {tasks : List Task} {index : Nat} {task : Task}
    (htask : tasks[index]? = some task) (stage : Stage) {f : Task → α}
    (hf : f { task with stage } = f task)
    : (tasks.set index { task with stage }).map f = tasks.map f := by
  obtain ⟨hlt, rfl⟩ := List.getElem?_eq_some_iff.1 htask
  have hlt' : index < (tasks.map f).length := by simpa using hlt
  have hself := List.set_getElem_self hlt'
  rw [List.map_set, hf]
  simpa using hself

theorem map_tell {α : Type} (tasks : List Task) (seq : Option Nat) {f : Task → α}
    (hf : ∀ task, f { task with cancelled := true } = f task)
    : (tasks.map (tell seq)).map f = tasks.map f := by
  rw [List.map_map]
  apply List.map_congr_left
  intro task _
  simp only [Function.comp_apply, tell]
  split
  . apply hf
  . rfl

theorem write?_move {c c' : Connection} {author : Author} {succeeds : Bool}
    (h : c.write? author succeeds = some c') : Move c (.write author succeeds) c' := by
  unfold write? at h
  obtain ⟨response, hwaiting, rfl⟩ := Option.map_eq_some_iff.1 h
  cases author with
  | loop =>
    unfold waiting? at hwaiting
    dsimp only at hwaiting
    split at hwaiting
    . next response' hphase =>
      cases hwaiting
      have := Move.loopWrites response succeeds hphase
      cases succeeds <;> exact this
    . cases hwaiting
  | task index =>
    unfold waiting? at hwaiting
    dsimp only at hwaiting
    split at hwaiting
    . next request slot cancelled response' htask =>
      cases hwaiting
      have := Move.taskWrites index _ response succeeds htask rfl
      simp only [resume, set_of_modify htask]
      cases succeeds <;> exact this
    . cases hwaiting

theorem close?_move {c c' : Connection} (h : c.close? = some c') : Move c .close c' := by
  unfold close? at h
  split at h
  . next cause hphase =>
    split at h
    . next hdone =>
      cases h
      exact .close cause hphase (by simpa using hdone)
    . cases h
  . cases h

theorem step?_move {c c' : Connection} {event : Event} (h : c.step? event = some c')
    : Move c event c' := by
  cases event with
  | receive message => exact receive?_move h
  | readFails cause =>
    simp only [step?, readFails?] at h
    split at h
    . next hphase =>
      cases h
      exact .fail cause hphase
    . cases h
  | finish index outcome => exact finish?_move h
  | write author succeeds => exact write?_move h
  | close => exact close?_move h

theorem Move.written_subset {c c' : Connection} {event : Event} (h : Move c event c')
    : c.written ⊆ c'.written := by
  cases h with
  | loopWrites response succeeds | taskWrites index task response succeeds =>
    cases succeeds
    . exact List.Subset.refl _
    . exact List.subset_append_left _ _
  | _ => exact List.Subset.refl _

theorem holds_of_run? {P : List Event → Connection → Prop} (hstart : P [] {})
    (hmove : ∀ events c event c', P events c → Move c event c' → P (events ++ [event]) c')
    {events : List Event} {c : Connection} (h : run? {} events = some c) : P events c := by
  have := holds_of_foldlM (P := P) (fun past s event s' hs hstep =>
    hmove past s event s' hs (step?_move hstep)) hstart h
  rw [List.nil_append] at this
  exact this

end JsonRpc.Server.Connection
