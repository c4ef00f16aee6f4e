import JsonRpc.Proofs.Server.Cancellation

/-!
Identifiers that are used again. A peer that waits for the response to a call before it uses the
call's identifier again can cancel each of its calls: the slot of the earlier call is gone before
its response is written, so the later one always gets a slot of its own.
-/

namespace JsonRpc.Server.Connection

variable {c c' : Connection} {event : Event} {events before after during : List Event}
  {index : Nat} {id : Id} {seq : Option Nat} {request : Request}

def Running (c : Connection) (index : Nat) (id : Id) : Prop :=
  ∃ task, c.tasks[index]? = some task ∧ task.request.notification = false ∧
    task.request.id = id ∧ task.stage = .running

def isFree (c : Connection) (id : Id) : Bool :=
  c.tasks.all fun task => task.request.notification || task.request.id ≠ id || task.stage = .done

def isConsiderate (c : Connection) : Event → Bool
  | .receive message =>
    match Request.decode message with
    | .ok request =>
      request.method = cancelMethod || request.notification || c.isFree request.id
    | .error _ => true
  | _ => true

def considerate (c : Connection) : List Event → Bool
  | [] => true
  | event :: events =>
    c.isConsiderate event &&
      match c.step? event with
      | some next => next.considerate events
      | none => true

theorem considerate_cons {next : Connection} (h : c.considerate (event :: events))
    (hstep : c.step? event = some next) : c.isConsiderate event ∧ next.considerate events := by
  unfold considerate at h
  rw [hstep] at h
  simpa using h

theorem considerate_of_append {past : Connection} (h : c.considerate (before ++ after))
    (hpast : c.run? before = some past) : past.considerate after := by
  induction before generalizing c with
  | nil =>
    cases hpast
    exact h
  | cons event before ih =>
    obtain ⟨next, hstep, hrest⟩ := exists_step_of_foldlM hpast
    exact ih (considerate_cons h hstep).2 hrest

theorem considerate_front (h : c.considerate (before ++ after)) : c.considerate before := by
  induction before generalizing c with
  | nil => rfl
  | cons event before ih =>
    rw [List.cons_append] at h
    unfold considerate at h ⊢
    simp only [Bool.and_eq_true] at h ⊢
    refine ⟨h.1, ?_⟩
    cases hstep : c.step? event with
    | none => rfl
    | some next =>
      have hrest := h.2
      rw [hstep] at hrest
      exact ih hrest

theorem not_running_of_isFree (h : c.isFree id) : ¬ c.Running index id := by
  rintro ⟨task, htask, hcall, hid, hrunning⟩
  have hfree := List.all_eq_true.1 h task (List.mem_of_getElem? htask)
  simp [hcall, hid, hrunning] at hfree

def Calls (message : Bytes) (id : Id) : Prop :=
  ∃ request, Request.decode message = .ok request ∧ request.method ≠ cancelMethod ∧
    request.notification = false ∧ request.id = id

theorem calls_iff {message : Bytes} (hdecode : Request.decode message = .ok request)
    : Calls message id ↔
        request.method ≠ cancelMethod ∧ request.notification = false ∧ request.id = id := by
  simp [Calls, hdecode]

theorem running_tell (htasks : c'.tasks = c.tasks.map (tell seq))
    : c'.Running index id ↔ c.Running index id := by
  unfold Running
  rw [htasks, List.getElem?_map]
  constructor
  . rintro ⟨told, htold, hcall, hid, hrunning⟩
    obtain ⟨task, htask, rfl⟩ := Option.map_eq_some_iff.1 htold
    obtain ⟨-, hstage, hrequest⟩ := tell_slot seq task
    rw [hrequest] at hcall hid
    exact ⟨task, htask, hcall, hid, hstage ▸ hrunning⟩
  . rintro ⟨task, htask, hcall, hid, hrunning⟩
    obtain ⟨-, hstage, hrequest⟩ := tell_slot seq task
    refine ⟨tell seq task, by rw [htask]; rfl, ?_, ?_, hstage.trans hrunning⟩
    . rw [hrequest]
      exact hcall
    . rw [hrequest]
      exact hid

theorem running_start {slot : Option Nat} (htasks : c'.tasks = c.tasks ++ [({ request, slot } : Task)])
    : c'.Running index id ↔
        c.Running index id ∨
          index = c.tasks.length ∧ request.notification = false ∧ request.id = id := by
  unfold Running
  rw [htasks]
  rcases Nat.lt_trichotomy index c.tasks.length with hlt | rfl | hlt
  . rw [List.getElem?_append_left hlt]
    simp [Nat.ne_of_lt hlt]
  . simp
  . rw [List.getElem?_eq_none (by simp; omega), List.getElem?_eq_none (Nat.le_of_lt hlt)]
    simp [Nat.ne_of_gt hlt]

theorem running_set {ended : Nat} {task : Task} {stage : Stage} (hstage : stage ≠ .running)
    (htasks : c'.tasks = c.tasks.set ended { task with stage })
    : c'.Running index id ↔ c.Running index id ∧ index ≠ ended := by
  unfold Running
  rw [htasks, List.getElem?_set]
  by_cases heq : ended = index
  . subst heq
    simp only [if_true, ne_eq, not_true_eq_false, and_false, iff_false]
    rintro ⟨other, hother, -, -, hrunning⟩
    split at hother <;> cases hother
    exact hstage hrunning
  . simp [heq, Ne.symm heq]

theorem afterHandler_ne_running (request : Request) (outcome : HandlerOutcome)
    : Stage.afterHandler request outcome ≠ .running := by
  unfold Stage.afterHandler
  split <;> simp

theorem running_move (hmove : Move c event c')
    : c'.Running index id ↔
        (c.Running index id ∧ ∀ outcome, event ≠ .finish index outcome) ∨
          index = c.tasks.length ∧ ∃ message, event = .receive message ∧ Calls message id := by
  cases hmove with
  | reject message error hphase hdecode => simp [Running, Calls, hdecode]
  | fail | loopWrites | close => simp [Running]
  | cancel message request hphase hdecode hmethod =>
    rw [running_tell rfl]
    simp [calls_iff hdecode, hmethod]
  | start message request hphase hdecode hmethod =>
    rw [running_start rfl]
    simp [calls_iff hdecode, hmethod]
  | finish ended task outcome =>
    rw [running_set (afterHandler_ne_running task.request outcome) rfl]
    simp [eq_comm]
  | taskWrites ended task response succeeds htask hstage =>
    rw [running_set (by simp) rfl]
    have hother (hrunning : c.Running index id) : index ≠ ended := by
      rintro rfl
      obtain ⟨other, hother, -, -, hrunning⟩ := hrunning
      rw [htask] at hother
      cases hother
      rw [hstage] at hrunning
      cases hrunning
    simpa using hother

theorem isFree_of_isConsiderate {message : Bytes} (h : c.isConsiderate (.receive message))
    (hcalls : Calls message id) : c.isFree id := by
  obtain ⟨request, hdecode, hmethod, hcall, rfl⟩ := hcalls
  unfold isConsiderate at h
  simpa [hdecode, hmethod, hcall] using h

def Apart (c : Connection) : Prop :=
  ∀ i j id, c.Running i id → c.Running j id → i = j

theorem Apart.move (h : Apart c) (hpolite : c.isConsiderate event) (hmove : Move c event c')
    : Apart c' := by
  have hnew {i : Nat} {id : Id} (hi : c.Running i id)
      (hbegins : ∃ message, event = .receive message ∧ Calls message id) : False := by
    obtain ⟨message, rfl, hcalls⟩ := hbegins
    exact not_running_of_isFree (isFree_of_isConsiderate hpolite hcalls) hi
  intro i j id hi hj
  rcases (running_move hmove).1 hi with ⟨hi, -⟩ | ⟨rfl, hbegins⟩
  . rcases (running_move hmove).1 hj with ⟨hj, -⟩ | ⟨-, hbegins⟩
    . exact h i j id hi hj
    . exact (hnew hi hbegins).elim
  . rcases (running_move hmove).1 hj with ⟨hj, -⟩ | ⟨rfl, -⟩
    . exact (hnew hj hbegins).elim
    . rfl

theorem Apart.run (h : Apart c) (hpeer : c.considerate events) (hrun : c.run? events = some c')
    : Apart c' := by
  induction events generalizing c with
  | nil =>
    cases hrun
    exact h
  | cons event events ih =>
    obtain ⟨next, hstep, hrest⟩ := exists_step_of_foldlM hrun
    obtain ⟨hpolite, hlater⟩ := considerate_cons hpeer hstep
    exact ih (h.move hpolite (step?_move hstep)) hlater hrest

def OnlyCalls (c : Connection) : Prop :=
  ∀ given ∈ c.tasks.map Task.given, given.2.isSome → given.1.notification = false

theorem OnlyCalls.move (h : OnlyCalls c) (hmove : Move c event c') : OnlyCalls c' := by
  unfold OnlyCalls at *
  cases hmove with
  | reject | fail | loopWrites | close => exact h
  | cancel message request =>
    dsimp only
    rw [map_tell _ _ fun _ => rfl]
    exact h
  | start message request =>
    intro given hgiven hslot
    rw [List.map_append, List.mem_append] at hgiven
    rcases hgiven with hold | hnew
    . exact h given hold hslot
    . cases List.mem_singleton.1 hnew
      cases hregisters : c.registers request with
      | false => simp [Task.given, hregisters] at hslot
      | true => exact (registers_iff.1 hregisters).1
  | finish index task outcome htask =>
    dsimp only
    rw [map_set_stage (f := Task.given) htask _ (by rfl)]
    exact h
  | taskWrites index task response succeeds htask =>
    dsimp only
    rw [map_set_stage (f := Task.given) htask _ (by rfl)]
    exact h

theorem onlyCalls_of_run? (h : run? {} events = some c) : OnlyCalls c :=
  holds_of_run? (P := fun _ => OnlyCalls) (by simp [OnlyCalls]) (fun _ _ _ _ => OnlyCalls.move) h

theorem Slots.running_of_holds (h : Slots c) (hcalls : OnlyCalls c) (hholds : c.Holds index id)
    : c.Running index id := by
  obtain ⟨task, seq, htask, hid, hslot, hmem⟩ := hholds
  have htasks := List.mem_of_getElem? htask
  obtain ⟨hrunning, -⟩ := h.registry.running _ hmem task htasks hslot
  have hcall := hcalls task.given (List.mem_map_of_mem htasks) (by simp [Task.given, hslot])
  exact ⟨task, htask, hcall, hid, hrunning⟩

theorem Slots.exists_holds (h : Slots c) {slot : Slot} (hmem : slot ∈ c.pending)
    : ∃ index, c.Holds index slot.id := by
  obtain ⟨task, htask, hslot, -⟩ := h.exists_running hmem
  obtain ⟨index, hindex⟩ := List.mem_iff_getElem?.1 htask
  exact ⟨index, task, slot.seq, hindex, (h.registry.running slot hmem task htask hslot).2, hslot,
    hmem⟩

theorem Slots.registers_of_isFree (h : Slots c) (hcalls : OnlyCalls c)
    (hcall : request.notification = false) (hfree : c.isFree request.id) : c.registers request := by
  rw [registers_iff]
  refine ⟨hcall, ?_⟩
  intro slot hmem hid
  obtain ⟨index, hholds⟩ := h.exists_holds hmem
  rw [hid] at hholds
  exact not_running_of_isFree hfree (h.running_of_holds hcalls hholds)

/--
A call is at work. It has its slot unless a cancellation named it, and its token has fired if one
did and not otherwise.
-/
structure Underway (index : Nat) (id : Id) (during : List Event) (c : Connection) : Prop where
  slots : Slots c
  running : c.Running index id
  holds : (∀ note, .receive note ∈ during → ¬ Cancels note id) → c.Holds index id
  fired : c.Fired index ↔ ∃ note, .receive note ∈ during ∧ Cancels note id

theorem Holds.id_eq {id' : Id} (h : c.Holds index id') (hrunning : c.Running index id)
    : id' = id := by
  obtain ⟨task, -, htask, rfl, -⟩ := h
  obtain ⟨task', htask', -, rfl, -⟩ := hrunning
  rw [htask] at htask'
  cases htask'
  rfl

namespace Underway

theorem fired_of_cancels (h : Underway index id during c) {note : Bytes}
    (hmove : Move c (.receive note) c') (hcancels : Cancels note id) : c'.Fired index := by
  rw [fired_move h.slots hmove]
  -- An earlier cancellation has taken the slot, and has fired the token then.
  by_cases hearlier : ∃ note, .receive note ∈ during ∧ Cancels note id
  . exact .inl (h.fired.2 hearlier)
  . exact .inr ⟨note, id, rfl, hcancels, h.holds fun note hmem hnames => hearlier ⟨note, hmem, hnames⟩⟩

theorem step (h : Underway index id during c) (hmove : Move c event c')
    (hgoing : ∀ outcome, event ≠ .finish index outcome)
    : Underway index id (during ++ [event]) c' := by
  refine ⟨h.slots.move hmove, (running_move hmove).2 (.inl ⟨h.running, hgoing⟩), ?_, ?_⟩
  . intro hnone
    have hholds := h.holds fun note hmem => hnone note (List.mem_append_left _ hmem)
    rcases h.slots.holds_move hmove hholds with hkept | ⟨outcome, hends⟩ | ⟨note, rfl, hcancels⟩
    . exact hkept
    . exact absurd hends (hgoing outcome)
    . exact absurd hcancels (hnone note (by simp))
  . constructor
    . intro hfired
      rcases (fired_move h.slots hmove index).1 hfired with hold | ⟨note, id', rfl, hcancels, hholds⟩
      . obtain ⟨note, hmem, hcancels⟩ := h.fired.1 hold
        exact ⟨note, List.mem_append_left _ hmem, hcancels⟩
      . rw [hholds.id_eq h.running] at hcancels
        exact ⟨note, by simp, hcancels⟩
    . rintro ⟨note, hmem, hcancels⟩
      rcases List.mem_append.1 hmem with hold | hnew
      . exact (fired_move h.slots hmove index).2 (.inl (h.fired.2 ⟨note, hold, hcancels⟩))
      . cases List.mem_singleton.1 hnew
        exact h.fired_of_cancels hmove hcancels

theorem run {more : List Event} (h : Underway index id during c) (hrun : c.run? more = some c')
    (hgoing : ∀ outcome, .finish index outcome ∉ more)
    : Underway index id (during ++ more) c' := by
  induction more generalizing during c with
  | nil =>
    cases hrun
    rw [List.append_nil]
    exact h
  | cons event more ih =>
    obtain ⟨next, hstep, hrest⟩ := exists_step_of_foldlM hrun
    simp only [List.mem_cons, not_or] at hgoing
    have hnext := h.step (step?_move hstep) fun outcome => (hgoing outcome).1 ∘ Eq.symm
    have hlast := ih hnext hrest fun outcome => (hgoing outcome).2
    rw [List.append_assoc] at hlast
    exact hlast

end Underway

theorem underway_of_started {message : Bytes} {past next : Connection}
    (hpast : run? {} before = some past) (hdecode : Request.decode message = .ok request)
    (hmethod : request.method ≠ cancelMethod) (hcall : request.notification = false)
    (hstep : past.step? (.receive message) = some next)
    (hholds : next.Holds past.tasks.length request.id)
    : Underway past.tasks.length request.id [] next := by
  have hmove := step?_move hstep
  refine ⟨slots_of_run? (foldlM_snoc hpast hstep), ?_, fun _ => hholds, ?_⟩
  . exact (running_move hmove).2 (.inr ⟨rfl, message, rfl, request, hdecode, hmethod, hcall, rfl⟩)
  . rw [fired_move (slots_of_run? hpast) hmove]
    simp [Fired, cancels_iff hdecode, hmethod]

/--
A peer that never sends a call under the identifier of one that is not answered yet can always
cancel. Each of its calls is given the slot of its identifier when it comes in, also if the
identifier was used before, and has it until its handler ends or a cancellation names it. In that
time a cancellation that names the call fires its token, and no other token but that one, and
nothing else fires it.
-/
theorem cancellable_of_considerate (h : run? {} events = some c) (hpeer : considerate {} events)
    : ∀ before message after past request, events = before ++ .receive message :: after →
        run? {} before = some past → Request.decode message = .ok request →
        request.method ≠ cancelMethod → request.notification = false →
          (∃ next, past.step? (.receive message) = some next ∧
            next.Holds past.tasks.length request.id) ∧
          ∀ during later mid, after = during ++ later →
            run? {} (before ++ .receive message :: during) = some mid →
            (∀ outcome, .finish past.tasks.length outcome ∉ during) →
              ((∀ note, .receive note ∈ during → ¬ Cancels note request.id) →
                mid.Holds past.tasks.length request.id) ∧
              (mid.Fired past.tasks.length ↔
                ∃ note, .receive note ∈ during ∧ Cancels note request.id) ∧
              ∀ note next, mid.step? (.receive note) = some next → Cancels note request.id →
                next.Fired past.tasks.length ∧
                  ∀ other, next.Fired other → mid.Fired other ∨ other = past.tasks.length := by
  rintro before message after past request rfl hpast hdecode hmethod hcall
  obtain ⟨task, next, -, -, -, hstep, hholds⟩ := exists_started h hpast hdecode hmethod
  have hpolite := (considerate_cons (considerate_of_append hpeer hpast) hstep).1
  have hfree := isFree_of_isConsiderate hpolite ⟨request, hdecode, hmethod, hcall, rfl⟩
  have hholds := hholds
    ((slots_of_run? hpast).registers_of_isFree (onlyCalls_of_run? hpast) hcall hfree)
  refine ⟨⟨next, hstep, hholds⟩, ?_⟩
  rintro during later mid rfl hmid hgoing
  have hsplit : before ++ .receive message :: (during ++ later)
      = (before ++ .receive message :: during) ++ later := by simp
  have hduring : next.run? during = some mid := by
    obtain ⟨next', hstep', hrest⟩ := exists_step_of_foldlM (foldlM_of_append hmid hpast)
    rw [hstep] at hstep'
    cases hstep'
    exact hrest
  have hunderway := (underway_of_started hpast hdecode hmethod hcall hstep hholds).run hduring hgoing
  rw [hsplit] at hpeer
  have hapart : Apart mid :=
    Apart.run (by simp [Apart, Running]) (considerate_front hpeer) hmid
  refine ⟨hunderway.holds, hunderway.fired, ?_⟩
  intro note last hlast hcancels
  have hmove := step?_move hlast
  refine ⟨hunderway.fired_of_cancels hmove hcancels, ?_⟩
  intro other hfired
  rcases (fired_move hunderway.slots hmove other).1 hfired with hold | ⟨_, id, hsame, hnames, hother⟩
  . exact .inl hold
  . cases hsame
    rw [hnames.id_eq hcancels] at hother
    have hrunning := hunderway.slots.running_of_holds (onlyCalls_of_run? hmid) hother
    exact .inr (hapart other past.tasks.length request.id hrunning hunderway.running)

def answeredTwice : List Event :=
  [call (.int 1), .finish 0 .panic, .write (.task 0) true, call (.int 1), cancelNote (.int 1),
    .finish 1 (.failure .cancelled), .write (.task 1) true]

def thirdCall : Request :=
  { method := "work", id := .int 1 }

def thirdCancel : Request :=
  { method := cancelMethod, params := some (.object [("id", .ofInt64 1)]), notification := true }

def usedAgain : List Event :=
  [.receive thirdCall.encode, call (.int 2), .receive thirdCancel.encode]

theorem cancellable_of_considerate_usedAgain
    : ∃ past c, run? {} answeredTwice = some past ∧ run? {} (answeredTwice ++ usedAgain) = some c ∧
        (∃ next, past.step? (.receive thirdCall.encode) = some next ∧ next.Holds 2 (.int 1)) ∧
        c.Fired 2 ∧ ¬ c.Fired 3 := by
  have hpeer : considerate {} (answeredTwice ++ usedAgain) = true := by
    decide +kernel
  have hdecode : Request.decode thirdCall.encode = .ok thirdCall := by
    decide +kernel
  have hcancel : Request.decode thirdCancel.encode = .ok thirdCancel := by
    decide +kernel
  have htarget : target? thirdCancel = some (.int 1) := by
    decide +kernel
  have hfirst : (run? {} answeredTwice).map (fun c => c.tasks.length) = some 2 := by
    decide +kernel
  have hmiddle : (run? {} (answeredTwice ++ [.receive thirdCall.encode, call (.int 2)])).map
      (fun c => c.tasks.map Task.cancelled) = some [false, true, false, false] := by
    decide +kernel
  have hlast : (run? {} (answeredTwice ++ usedAgain)).isSome = true := by
    decide +kernel
  obtain ⟨past, hpast, hcount⟩ := Option.map_eq_some_iff.1 hfirst
  obtain ⟨mid, hmid, htokens⟩ := Option.map_eq_some_iff.1 hmiddle
  obtain ⟨c, hc⟩ := Option.isSome_iff_exists.1 hlast
  have hstep : mid.step? (.receive thirdCancel.encode) = some c := by
    have hsplit : answeredTwice ++ usedAgain = (answeredTwice ++ [.receive thirdCall.encode,
        call (.int 2)]) ++ [.receive thirdCancel.encode] := rfl
    rw [hsplit] at hc
    obtain ⟨next, hstep, hrest⟩ := exists_step_of_foldlM (foldlM_of_append hc hmid)
    cases hrest
    exact hstep
  obtain ⟨hslot, hlater⟩ := cancellable_of_considerate hc hpeer answeredTwice thirdCall.encode
    [call (.int 2), .receive thirdCancel.encode] past thirdCall rfl hpast hdecode (by decide) rfl
  rw [hcount] at hslot hlater
  obtain ⟨-, -, hfires⟩ := hlater [call (.int 2)] [.receive thirdCancel.encode] mid rfl hmid
    (by simp [call])
  obtain ⟨hown, hothers⟩ :=
    hfires thirdCancel.encode c hstep ((cancels_iff hcancel).2 ⟨rfl, htarget⟩)
  refine ⟨past, c, hpast, hc, hslot, hown, ?_⟩
  intro hfired
  rcases hothers 3 hfired with hold | heq
  . rw [fired_iff_map, htokens] at hold
    cases hold
  . omega

end JsonRpc.Server.Connection
