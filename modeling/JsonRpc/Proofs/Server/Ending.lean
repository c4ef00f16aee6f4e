import JsonRpc.Proofs.Server.Move
import Mathlib.Algebra.GroupWithZero.Nat
import Mathlib.Data.List.Perm.Basic

/-!
How a connection of a server ends. Once reading has failed, the connection waits for its tasks and
closes its writer; a run that cannot go on has come to this end.
-/

namespace JsonRpc.Server

def Stage.left : Stage → Nat
  | .running => 2
  | .answering _ => 1
  | .done => 0

def Phase.left : Phase → Nat
  | .answering _ => 3
  | .reading => 2
  | .draining _ => 1
  | .closed _ => 0

namespace Connection

structure Ending (events : List Event) (c : Connection) : Prop where
  failed : ∀ cause, .readFails cause ∈ events → c.phase = .draining cause ∨ c.phase = .closed cause
  opened : (∀ cause, c.phase ≠ .closed cause) → c.closes = 0 ∧ .close ∉ events
  closed : ∀ cause, c.phase = .closed cause → c.closes = 1 ∧
    (∃ before, events = before ++ [.close] ∧ .close ∉ before) ∧ ∀ task ∈ c.tasks, task.stage = .done

namespace Ending

theorem start : Ending [] {} := by
  constructor <;> simp

theorem not_closed {events : List Event} {c c' : Connection} {event : Event} (h : Ending events c)
    (hmove : Move c event c') (cause : TransportError) : c.phase ≠ .closed cause := by
  intro hclosed
  obtain ⟨-, -, hdone⟩ := h.closed cause hclosed
  cases hmove with
  | reject message error hphase | cancel message request hphase | start message request hphase
  | fail cause' hphase | loopWrites response succeeds hphase | close cause' hphase =>
    rw [hclosed] at hphase
    cases hphase
  | finish index task outcome htask hstage =>
    rw [hdone task (List.mem_of_getElem? htask)] at hstage
    cases hstage
  | taskWrites index task response succeeds htask hstage =>
    rw [hdone task (List.mem_of_getElem? htask)] at hstage
    cases hstage

theorem reading_of_failed {events : List Event} {c : Connection} (h : Ending events c)
    (hphase : ∀ cause, c.phase ≠ .draining cause ∧ c.phase ≠ .closed cause) (cause : TransportError)
    : .readFails cause ∉ events := by
  intro hmem
  rcases h.failed cause hmem with hdraining | hclosed
  . exact (hphase cause).1 hdraining
  . exact (hphase cause).2 hclosed

theorem move {events : List Event} {c c' : Connection} {event : Event} (h : Ending events c)
    (hmove : Move c event c') : Ending (events ++ [event]) c' := by
  have hopen := h.not_closed hmove
  obtain ⟨hcloses, hnone⟩ := h.opened hopen
  have hfailed := h.reading_of_failed
  cases hmove with
  | reject message error hphase | start message request hphase | loopWrites response succeeds hphase =>
    constructor
    . simp [hfailed (by simp [hphase])]
    . simp [hcloses, hnone]
    . simp [hphase]
  | cancel message request hphase =>
    constructor
    . simp [hfailed (by simp [hphase])]
    . simp [hcloses, hnone]
    . intro cause hclosed
      dsimp only at hclosed
      split at hclosed <;> cases hclosed
  | fail cause hphase =>
    constructor
    . intro cause' hmem
      have heq : cause' = cause := by simpa [hfailed (by simp [hphase])] using hmem
      exact .inl (by rw [heq])
    . simp [hcloses, hnone]
    . simp
  | finish index task outcome htask hstage | taskWrites index task response succeeds htask hstage =>
    constructor
    . simpa using h.failed
    . simp [hcloses, hnone]
    . intro cause hclosed
      exact absurd hclosed (hopen cause)
  | close cause hphase hdone =>
    constructor
    . intro cause' hmem
      have hold : .readFails cause' ∈ events := by simpa using hmem
      rcases h.failed cause' hold with hdraining | hclosed
      . rw [hphase] at hdraining
        cases hdraining
        exact .inr rfl
      . exact absurd hclosed (hopen cause')
    . intro hnever
      exact absurd rfl (hnever cause)
    . intro cause' hclosed
      exact ⟨by simp [hcloses], ⟨events, rfl, hnone⟩, hdone⟩

end Ending

theorem ending_of_run? {events : List Event} {c : Connection} (h : run? {} events = some c)
    : Ending events c := by
  exact holds_of_run? Ending.start (fun _ _ _ _ => Ending.move) h

theorem done_of_quiet {c : Connection} (hquiet : ∀ event, c.step? event = none) {task : Task}
    (htask : task ∈ c.tasks) : task.stage = .done := by
  obtain ⟨index, hindex⟩ := List.mem_iff_getElem?.1 htask
  cases hstage : task.stage with
  | running =>
    have hfinish := hquiet (.finish index .panic)
    simp [step?, finish?, hindex, hstage] at hfinish
  | answering response =>
    have hwrite := hquiet (.write (.task index) true)
    obtain ⟨request, slot, cancelled, stage⟩ := task
    cases hstage
    simp [step?, write?, waiting?, hindex] at hwrite
  | done => rfl

theorem closed_of_quiet {events : List Event} {c : Connection} (h : Ending events c)
    (hquiet : ∀ event, c.step? event = none) {cause : TransportError}
    (hcause : .readFails cause ∈ events) : c.phase = .closed cause := by
  rcases h.failed cause hcause with hdraining | hclosed
  . have hclose := hquiet .close
    have hdone : c.tasks.all (·.stage = .done) := by
      simpa using fun task htask => done_of_quiet hquiet htask
    simp [step?, close?, hdraining, hdone] at hclose
  . exact hclosed

theorem quiet_of_closed {events : List Event} {c : Connection} (h : Ending events c)
    {cause : TransportError} (hclosed : c.phase = .closed cause) (event : Event)
    : c.step? event = none := by
  cases hstep : c.step? event with
  | none => rfl
  | some c' => exact absurd hclosed (h.not_closed (step?_move hstep) cause)

def Event.message? : Event → Option Bytes
  | .receive message => some message
  | _ => none

def messages (events : List Event) : List Bytes :=
  events.filterMap Event.message?

theorem set_perm {α : Type} {xs : List α} {index : Nat} {x : α} (hx : xs[index]? = some x) (y : α)
    : (x :: xs.set index y).Perm (y :: xs) := by
  obtain ⟨hlt, rfl⟩ := List.getElem?_eq_some_iff.1 hx
  calc
    List.Perm (xs[index] :: xs.set index y) (xs[index] :: y :: xs.eraseIdx index) :=
      (List.set_perm_cons_eraseIdx hlt y).cons _
    List.Perm _ (y :: xs[index] :: xs.eraseIdx index) := List.Perm.swap _ _ _
    List.Perm _ (y :: xs) := (List.getElem_cons_eraseIdx_perm hlt).cons _

def left (c : Connection) : Nat :=
  c.phase.left + (c.tasks.map fun task => task.stage.left).sum

theorem left_of_set {c : Connection} {index : Nat} {task : Task} (htask : c.tasks[index]? = some task)
    (after : Task)
    : task.stage.left + ((c.tasks.set index after).map fun task => task.stage.left).sum
        =
      after.stage.left + (c.tasks.map fun task => task.stage.left).sum := by
  have hperm := (set_perm htask after).map fun task => task.stage.left
  simpa using hperm.sum_nat

theorem map_stage_tell (tasks : List Task) (seq : Option Nat)
    : (tasks.map (tell seq)).map (fun task => task.stage.left)
        =
      tasks.map fun task => task.stage.left := by
  rw [List.map_map]
  apply List.map_congr_left
  intro task _
  simp only [Function.comp_apply, tell]
  split <;> rfl

theorem left_move {c c' : Connection} {event : Event} (hmove : Move c event c')
    : c'.left + 1 ≤ c.left + 3 * (messages [event]).length := by
  unfold left
  cases hmove with
  | reject message error hphase =>
    simp [messages, Event.message?, hphase, Phase.left]
    omega
  | cancel message request hphase =>
    dsimp only
    rw [map_stage_tell, hphase]
    split
    . simp [messages, Event.message?, Phase.left]
    . simp [messages, Event.message?, Phase.left]
      omega
  | start message request hphase =>
    simp [messages, Event.message?, Stage.left]
    omega
  | finish index task outcome htask hstage =>
    have hsum := left_of_set htask { task with stage := Stage.afterHandler task.request outcome }
    have hless : (Stage.afterHandler task.request outcome).left ≤ 1 := by
      unfold Stage.afterHandler
      split <;> simp [Stage.left]
    simp only [hstage, Stage.left] at *
    omega
  | taskWrites index task response succeeds htask hstage =>
    have hsum := left_of_set htask { task with stage := .done }
    simp only [hstage, Stage.left] at *
    omega
  | fail cause hphase | loopWrites response succeeds hphase | close cause hphase =>
    simp only [hphase, Phase.left]
    omega

theorem length_le_of_run? {events : List Event} {c : Connection} (h : run? {} events = some c)
    : events.length + c.left ≤ 3 * (messages events).length + 2 := by
  apply holds_of_run? (P := fun events c =>
    events.length + c.left ≤ 3 * (messages events).length + 2) _ _ h
  . decide
  . intro events c event c' hle hmove
    have hleft := left_move hmove
    have hmessages : (messages (events ++ [event])).length
        = (messages events).length + (messages [event]).length := by
      simp [messages]
    rw [hmessages, List.length_append, List.length_singleton]
    omega

end Connection

end JsonRpc.Server
