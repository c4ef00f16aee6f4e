import JsonRpc.Proofs.Server.Slots

/-!
Cancelling requests. The token of a request fires when, and only when, a message that names the
identifier of the request is taken in while the request has the slot of that identifier.
-/

namespace JsonRpc.Server.Connection

def Fired (c : Connection) (index : Nat) : Prop :=
  ∃ task, c.tasks[index]? = some task ∧ task.cancelled = true

variable {c c' : Connection} {event : Event} {index : Nat} {id : Id}

theorem fired_iff_map : c.Fired index ↔ (c.tasks.map Task.cancelled)[index]? = some true := by
  simp [Fired, Option.map_eq_some_iff]

theorem fired_congr (h : c'.tasks.map Task.cancelled = c.tasks.map Task.cancelled) (index : Nat)
    : c'.Fired index ↔ c.Fired index := by
  rw [fired_iff_map, fired_iff_map, h]

theorem fired_tell (h : Slots c) (target : Option Id) (index : Nat) (phase : Phase)
    (pending : List Slot)
    : Fired { c with phase, tasks := c.tasks.map (tell (c.seq? target)), pending } index ↔
        c.Fired index ∨ ∃ id, target = some id ∧ c.Holds index id := by
  constructor
  . rintro ⟨told, htold, hcancelled⟩
    rw [List.getElem?_map, Option.map_eq_some_iff] at htold
    obtain ⟨task, htask, rfl⟩ := htold
    unfold tell at hcancelled
    split at hcancelled
    . next hmet =>
      obtain ⟨hsome, hslot⟩ := hmet
      obtain ⟨seq, hseq⟩ := Option.isSome_iff_exists.1 hsome
      cases target with
      | none => cases hseq
      | some id =>
        rw [hseq] at hslot
        exact .inr ⟨id, rfl, h.holds_iff.2 ⟨task, seq, htask, hslot, hseq⟩⟩
    . exact .inl ⟨task, htask, hcancelled⟩
  . rintro (⟨task, htask, hcancelled⟩ | ⟨id, rfl, hholds⟩)
    . refine ⟨tell (c.seq? target) task, by simp [htask], ?_⟩
      unfold tell
      split
      . rfl
      . exact hcancelled
    . obtain ⟨task, seq, htask, hslot, hseq⟩ := h.holds_iff.1 hholds
      refine ⟨tell (c.seq? (some id)) task, by simp [htask], ?_⟩
      unfold tell
      rw [hseq, if_pos ⟨rfl, hslot⟩]

theorem fired_start (request : Request) (slot : Option Nat) (pending : List Slot)
    (nextSeq index : Nat)
    : Fired { c with tasks := c.tasks ++ [{ request, slot }], pending, nextSeq } index ↔
        c.Fired index := by
  by_cases hlt : index < c.tasks.length
  . simp [Fired, List.getElem?_append_left hlt]
  . have hle := Nat.not_lt.1 hlt
    simp only [Fired, List.getElem?_append_right hle, List.getElem?_eq_none hle,
      List.getElem?_singleton]
    split <;> simp

theorem fired_move (h : Slots c) (hmove : Move c event c') (index : Nat)
    : c'.Fired index ↔
        c.Fired index ∨ ∃ message id, event = .receive message ∧ Cancels message id ∧
          c.Holds index id := by
  cases hmove with
  | reject message error hphase hdecode =>
    have hnone (id : Id) : ¬ Cancels message id := by
      rintro ⟨request, -, -, hrequest, -⟩
      rw [hdecode] at hrequest
      cases hrequest
    simp [hnone, Fired]
  | cancel message request hphase hdecode hmethod =>
    rw [fired_tell h]
    simp [cancels_iff hdecode, hmethod]
  | start message request hphase hdecode hmethod =>
    rw [fired_start]
    simp [cancels_iff hdecode, hmethod]
  | fail | loopWrites | close =>
    simp [Fired]
  | finish index' task outcome htask =>
    rw [fired_congr (map_set_stage (f := Task.cancelled) htask _ (by rfl))]
    simp
  | taskWrites index' task response succeeds htask =>
    rw [fired_congr (map_set_stage (f := Task.cancelled) htask _ (by rfl))]
    simp

theorem eq_of_fired_move (h : Slots c) (hmove : Move c event c') {i j : Nat}
    (hi : ¬ c.Fired i) (hi' : c'.Fired i) (hj : ¬ c.Fired j) (hj' : c'.Fired j) : i = j := by
  obtain hold | ⟨message, id, rfl, hcancels, hholds⟩ := (fired_move h hmove i).1 hi'
  . exact absurd hold hi
  obtain hold | ⟨message', id', hsame, hcancels', hholds'⟩ := (fired_move h hmove j).1 hj'
  . exact absurd hold hj
  cases hsame
  obtain rfl := hcancels.id_eq hcancels'
  exact h.eq_of_holds hholds hholds'

theorem slots_of_run? {events : List Event} (h : run? {} events = some c) : Slots c :=
  holds_of_run? Slots.start (fun _ _ _ _ => Slots.move) h

def Met (events : List Event) (index : Nat) : Prop :=
  ∃ before message after past id, events = before ++ .receive message :: after ∧
    run? {} before = some past ∧ past.Holds index id ∧ Cancels message id

theorem met_snoc {events : List Event} (h : run? {} events = some c) (event : Event) (index : Nat)
    : Met (events ++ [event]) index ↔
        Met events index ∨ ∃ message id, event = .receive message ∧ Cancels message id ∧
          c.Holds index id := by
  constructor
  . rintro ⟨before, message, after, past, id, hsplit, hpast, hholds, hcancels⟩
    rcases List.eq_nil_or_concat after with rfl | ⟨after, last, rfl⟩
    . obtain ⟨rfl, hlast⟩ := List.append_inj' hsplit rfl
      cases hlast
      rw [h] at hpast
      cases hpast
      exact .inr ⟨message, id, rfl, hcancels, hholds⟩
    . rw [List.concat_eq_append, ← List.cons_append, ← List.append_assoc] at hsplit
      obtain ⟨rfl, -⟩ := List.append_inj' hsplit rfl
      exact .inl ⟨before, message, after, past, id, rfl, hpast, hholds, hcancels⟩
  . rintro (⟨before, message, after, past, id, rfl, hpast⟩ | ⟨message, id, rfl, hcancels, hholds⟩)
    . exact ⟨before, message, after ++ [event], past, id, by simp, hpast⟩
    . exact ⟨events, message, [], c, id, rfl, h, hholds, hcancels⟩

structure Tokens (events : List Event) (c : Connection) : Prop where
  run : run? {} events = some c
  fired : ∀ index, c.Fired index ↔ Met events index

theorem Tokens.start : Tokens [] {} := by
  constructor
  . rfl
  . simp [Fired, Met]

theorem Tokens.step {events : List Event} (h : Tokens events c) (hstep : c.step? event = some c')
    : Tokens (events ++ [event]) c' := by
  constructor
  . exact foldlM_snoc h.run hstep
  . intro index
    rw [fired_move (slots_of_run? h.run) (step?_move hstep), met_snoc h.run, h.fired]

theorem fired_iff_met {events : List Event} (h : run? {} events = some c) (index : Nat)
    : c.Fired index ↔ Met events index :=
  (holds_of_foldlM (P := Tokens) (fun _ _ _ _ => Tokens.step) Tokens.start h).fired index

theorem slot_of_fired {events : List Event} (h : run? {} events = some c) (hfired : c.Fired index)
    {task : Task} (htask : c.tasks[index]? = some task) : task.slot ≠ none := by
  obtain ⟨before, message, after, past, id, rfl, hpast, hholds, -⟩ :=
    (fired_iff_met h index).1 hfired
  obtain ⟨task', seq, htask', -, hslot, -⟩ := hholds
  obtain ⟨last, hlast, hgiven⟩ := exists_given (given_of_run? (foldlM_of_append h hpast)) htask'
  rw [htask] at hlast
  cases hlast
  rw [(Prod.mk.inj hgiven).2, hslot]
  simp

theorem exists_started {before after : List Event} {message : Bytes} {past : Connection}
    {request : Request} (h : run? {} (before ++ .receive message :: after) = some c)
    (hpast : run? {} before = some past) (hdecode : Request.decode message = .ok request)
    (hmethod : request.method ≠ cancelMethod)
    : ∃ task next, c.tasks[past.tasks.length]? = some task ∧ task.request = request ∧
        task.slot = (if past.registers request then some past.nextSeq else none) ∧
        past.step? (.receive message) = some next ∧
        (past.registers request → next.Holds past.tasks.length request.id) := by
  obtain ⟨next, hstep, hrest⟩ := exists_step_of_foldlM (foldlM_of_append h hpast)
  have hgiven := given_of_run? hrest
  cases step?_move hstep with
  | reject _ error _ hdecode' =>
    rw [hdecode] at hdecode'
    cases hdecode'
  | cancel _ request' _ hdecode' hmethod' =>
    rw [hdecode] at hdecode'
    cases hdecode'
    exact absurd hmethod' hmethod
  | start _ request' _ hdecode' =>
    rw [hdecode] at hdecode'
    cases hdecode'
    obtain ⟨task, htask, hgiven⟩ := exists_given hgiven List.getElem?_concat_length
    obtain ⟨hrequest, hslot⟩ := Prod.mk.inj hgiven
    refine ⟨task, _, htask, hrequest, hslot, hstep, ?_⟩
    intro hregisters
    exact ⟨_, past.nextSeq, List.getElem?_concat_length, rfl, by simp [hregisters],
      by simp [hregisters]⟩

/--
Cancelling the requests of a connection. The token of a task fires exactly if a message that names
its identifier is taken in while the task has the slot of that identifier. One message fires one
token at most, and neither the end of a request nor that of the connection fires any. A slot is
there until its own request ends or is cancelled, whatever becomes of the others. A request gets the
slot of its identifier unless it is a notification or finds the identifier in use, and then its
token never fires. When the connection is closed no slot is left.
-/
theorem fired_iff_cancelled {events : List Event} (h : run? {} events = some c)
    : (∀ index, c.Fired index ↔
        ∃ before message after past id, events = before ++ .receive message :: after ∧
          run? {} before = some past ∧ past.Holds index id ∧ Cancels message id) ∧
      (∀ event c', c.step? event = some c' →
        (∀ i j, ¬ c.Fired i → c'.Fired i → ¬ c.Fired j → c'.Fired j → i = j) ∧
        ((∀ message, event ≠ .receive message) → ∀ index, c'.Fired index → c.Fired index) ∧
        (∀ index id, c.Holds index id →
          c'.Holds index id ∨ (∃ outcome, event = .finish index outcome) ∨
            ∃ message, event = .receive message ∧ Cancels message id) ∧
        ∀ i j outcome id, event = .finish i outcome → i ≠ j → c.Holds j id → c'.Holds j id) ∧
      (∀ before message after past request, events = before ++ .receive message :: after →
        run? {} before = some past → Request.decode message = .ok request →
        request.method ≠ cancelMethod →
          ∃ task, c.tasks[past.tasks.length]? = some task ∧ task.request = request ∧
            (request.notification ∨ (∃ slot ∈ past.pending, slot.id = request.id) →
              ¬ c.Fired past.tasks.length) ∧
            (request.notification = false → (∀ slot ∈ past.pending, slot.id ≠ request.id) →
              ∃ next, past.step? (.receive message) = some next ∧
                next.Holds past.tasks.length request.id)) ∧
      ∀ cause, c.phase = .closed cause → c.pending = [] := by
  have hslots := slots_of_run? h
  refine ⟨fired_iff_met h, ?_, ?_, ?_⟩
  . intro event c' hstep
    have hmove := step?_move hstep
    refine ⟨fun _ _ => eq_of_fired_move hslots hmove, ?_, fun _ _ => hslots.holds_move hmove, ?_⟩
    . intro hquiet index hfired
      rcases (fired_move hslots hmove index).1 hfired with hold | ⟨message, -, hevent, -⟩
      . exact hold
      . exact absurd hevent (hquiet message)
    . rintro i j outcome id rfl hne hholds
      rcases hslots.holds_move hmove hholds with hkept | ⟨_, hsame⟩ | ⟨_, hreceive, -⟩
      . exact hkept
      . cases hsame
        exact absurd rfl hne
      . cases hreceive
  . rintro before message after past request rfl hpast hdecode hmethod
    obtain ⟨task, next, htask, hrequest, hslot, hstep, hholds⟩ :=
      exists_started h hpast hdecode hmethod
    refine ⟨task, htask, hrequest, ?_, ?_⟩
    . intro hrefused hfired
      have hregisters : ¬ past.registers request := by
        rw [registers_iff]
        rintro ⟨hcall, hnew⟩
        rcases hrefused with hnotification | ⟨slot, hmem, hid⟩
        . simp [hcall] at hnotification
        . exact hnew slot hmem hid
      rw [if_neg hregisters] at hslot
      exact slot_of_fired h hfired htask hslot
    . intro hcall hnew
      exact ⟨next, hstep, hholds (registers_iff.2 ⟨hcall, hnew⟩)⟩
  . intro cause hclosed
    exact hslots.pending_eq_nil ((ending_of_run? h).closed cause hclosed).2.2

def call (id : Id) : Event :=
  .receive (Request.encode { method := "work", id })

def cancelNote (id : Id) : Event :=
  .receive (Request.encode
    { method := cancelMethod, params := some (.object [("id", id.toJson)]), notification := true })

def reusedIds : List Event :=
  [call (.int 1), cancelNote (.text "1"), cancelNote (.int 1), call (.int 1),
    .finish 0 (.failure .cancelled), call (.int 1), call .null, cancelNote .null,
    cancelNote (.int 1), .readFails (.connectionClosed "end of stream"),
    .finish 1 (.failure .cancelled), .finish 2 .panic, .finish 3 (.failure .cancelled),
    .write (.task 0) true, .write (.task 1) true, .write (.task 2) true, .write (.task 3) true,
    .close]

theorem fired_iff_cancelled_of_reusedIds
    : ∃ c, run? {} reusedIds = some c ∧
        c.tasks.map Task.cancelled = [true, true, false, true] ∧ c.pending = [] ∧
        ∃ before message after past id, reusedIds = before ++ .receive message :: after ∧
          run? {} before = some past ∧ past.Holds 1 id ∧ Cancels message id := by
  have hrun : (run? {} reusedIds).map (fun c => (c.phase, c.tasks.map Task.cancelled))
      = some (.closed (.connectionClosed "end of stream"), [true, true, false, true]) := by
    decide +kernel
  obtain ⟨c, hrun, hfacts⟩ := Option.map_eq_some_iff.1 hrun
  obtain ⟨hphase, htokens⟩ := Prod.mk.inj hfacts
  obtain ⟨hfired, -, -, hpending⟩ := fired_iff_cancelled hrun
  have hsecond : c.Fired 1 := by
    rw [fired_iff_map, htokens]
    rfl
  exact ⟨c, hrun, htokens, hpending _ hphase, (hfired 1).1 hsecond⟩

end JsonRpc.Server.Connection
