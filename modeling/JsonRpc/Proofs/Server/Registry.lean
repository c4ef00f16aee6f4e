import JsonRpc.Proofs.Server.Move

/-!
The slots of a connection's requests. A slot belongs to a task whose handler is at work, so that the
token of a task that has ended never fires.
-/

namespace JsonRpc.Server.Connection

structure Registry (c : Connection) : Prop where
  given : ∀ task ∈ c.tasks, ∀ seq, task.slot = some seq → seq < c.nextSeq
  pending : ∀ slot ∈ c.pending, slot.seq < c.nextSeq
  running : ∀ slot ∈ c.pending, ∀ task ∈ c.tasks, task.slot = some slot.seq →
    task.stage = .running ∧ task.request.id = slot.id

theorem tell_slot (seq : Option Nat) (task : Task)
    : (tell seq task).slot = task.slot ∧ (tell seq task).stage = task.stage ∧
        (tell seq task).request = task.request := by
  unfold tell
  split <;> exact ⟨rfl, rfl, rfl⟩

namespace Registry

theorem start : Registry {} := by
  constructor <;> simp

theorem tell_of_ended {c : Connection} (h : Registry c) (target : Option Id) {task : Task}
    (htask : task ∈ c.tasks) (hended : task.stage ≠ .running)
    : tell (c.seq? target) task = task := by
  unfold tell
  split
  . next htold =>
    obtain ⟨hsome, hslot⟩ := htold
    obtain ⟨seq, hseq⟩ := Option.isSome_iff_exists.1 hsome
    obtain ⟨slot, hfound, rfl⟩ := Option.map_eq_some_iff.1 hseq
    obtain ⟨id, -, hfind⟩ := Option.bind_eq_some_iff.1 hfound
    have hmem := List.mem_of_find?_eq_some hfind
    rw [hseq] at hslot
    exact absurd (h.running slot hmem task htask hslot).1 hended
  . rfl

theorem of_cancel {c : Connection} (h : Registry c) (seq : Option Nat) (phase : Phase)
    (p : Slot → Bool)
    : Registry { c with phase, tasks := c.tasks.map (tell seq), pending := c.pending.filter p } := by
  constructor
  . intro task htask q hslot
    obtain ⟨before, hbefore, rfl⟩ := List.mem_map.1 htask
    rw [(tell_slot seq before).1] at hslot
    exact h.given before hbefore q hslot
  . intro slot hslot
    exact h.pending slot (List.mem_filter.1 hslot).1
  . intro slot hslot task htask heq
    obtain ⟨before, hbefore, rfl⟩ := List.mem_map.1 htask
    obtain ⟨hsame, hstage, hrequest⟩ := tell_slot seq before
    rw [hsame] at heq
    rw [hstage, hrequest]
    exact h.running slot (List.mem_filter.1 hslot).1 before hbefore heq

theorem of_start {c : Connection} (h : Registry c) (request : Request)
    : Registry { c with
        tasks := c.tasks ++
          [{ request, slot := if c.registers request then some c.nextSeq else none }]
        pending := if c.registers request then c.pending ++ [⟨request.id, c.nextSeq⟩] else c.pending
        nextSeq := if c.registers request then c.nextSeq + 1 else c.nextSeq } := by
  -- The number of a new slot was never given before.
  have hnew : ∀ task ∈ c.tasks, task.slot ≠ some c.nextSeq := by
    intro task htask heq
    have := h.given task htask _ heq
    omega
  cases c.registers request with
  | false =>
    constructor
    . intro task htask seq hslot
      rcases List.mem_append.1 htask with hold | hlast
      . exact h.given task hold seq hslot
      . cases List.mem_singleton.1 hlast
        cases hslot
    . exact h.pending
    . intro slot hslot task htask heq
      rcases List.mem_append.1 htask with hold | hlast
      . exact h.running slot hslot task hold heq
      . cases List.mem_singleton.1 hlast
        cases heq
  | true =>
    constructor
    . intro task htask seq hslot
      rcases List.mem_append.1 htask with hold | hlast
      . exact Nat.lt_succ_of_lt (h.given task hold seq hslot)
      . cases List.mem_singleton.1 hlast
        cases hslot
        exact Nat.lt_succ_self _
    . intro slot hslot
      rcases List.mem_append.1 hslot with hold | hlast
      . exact Nat.lt_succ_of_lt (h.pending slot hold)
      . cases List.mem_singleton.1 hlast
        exact Nat.lt_succ_self _
    . intro slot hslot task htask heq
      rcases List.mem_append.1 hslot with hold | hlast
      . rcases List.mem_append.1 htask with hrunning | hstarted
        . exact h.running slot hold task hrunning heq
        . cases List.mem_singleton.1 hstarted
          have hlt := h.pending slot hold
          have hseq : c.nextSeq = slot.seq := Option.some.inj heq
          omega
      . cases List.mem_singleton.1 hlast
        rcases List.mem_append.1 htask with hrunning | hstarted
        . exact absurd heq (hnew task hrunning)
        . cases List.mem_singleton.1 hstarted
          exact ⟨rfl, rfl⟩

theorem of_set {c : Connection} (h : Registry c) {index : Nat} {task : Task}
    (htask : c.tasks[index]? = some task) (stage : Stage) (p : Slot → Bool)
    (hgone : ∀ slot ∈ c.pending, p slot → task.slot ≠ some slot.seq) (written : List Response)
    : Registry { c with
        tasks := c.tasks.set index { task with stage }
        pending := c.pending.filter p
        written } := by
  have hmem := List.mem_of_getElem? htask
  constructor
  . intro other hother seq hslot
    rcases List.mem_or_eq_of_mem_set hother with hold | rfl
    . exact h.given other hold seq hslot
    . exact h.given task hmem seq hslot
  . intro slot hslot
    exact h.pending slot (List.mem_filter.1 hslot).1
  . intro slot hslot other hother heq
    obtain ⟨hold, hp⟩ := List.mem_filter.1 hslot
    rcases List.mem_or_eq_of_mem_set hother with hothers | rfl
    . exact h.running slot hold other hothers heq
    . exact absurd heq (hgone slot hold hp)

theorem move {c c' : Connection} {event : Event} (h : Registry c) (hmove : Move c event c')
    : Registry c' := by
  cases hmove with
  | reject | fail | loopWrites | close => exact ⟨h.given, h.pending, h.running⟩
  | cancel message request => exact h.of_cancel _ _ _
  | start message request => exact h.of_start request
  | finish index task outcome htask =>
    apply h.of_set htask
    intro slot hslot hp heq
    obtain ⟨-, hid⟩ := h.running slot hslot task (List.mem_of_getElem? htask) heq
    simp [hid, heq] at hp
  | taskWrites index task response succeeds htask hstage =>
    have hset := h.of_set htask .done fun _ => true
    rw [List.filter_eq_self.2 (by simp)] at hset
    apply hset
    intro slot hslot _ heq
    obtain ⟨hrunning, -⟩ := h.running slot hslot task (List.mem_of_getElem? htask) heq
    rw [hstage] at hrunning
    cases hrunning

theorem ended_move {c c' : Connection} {event : Event} (h : Registry c) (hmove : Move c event c')
    {index : Nat} {task : Task} (htask : c.tasks[index]? = some task)
    (hended : task.stage ≠ .running)
    : ∃ stage, stage ≠ .running ∧ c'.tasks[index]? = some { task with stage } := by
  have hsame : c'.tasks[index]? = some task →
      ∃ stage, stage ≠ .running ∧ c'.tasks[index]? = some { task with stage } := by
    intro hkept
    exact ⟨task.stage, hended, hkept⟩
  cases hmove with
  | reject | fail | loopWrites | close => exact hsame htask
  | cancel message request =>
    apply hsame
    dsimp only
    rw [List.getElem?_map, htask, Option.map_some,
      h.tell_of_ended _ (List.mem_of_getElem? htask) hended]
  | start message request =>
    apply hsame
    dsimp only
    rw [List.getElem?_append_left (List.getElem?_eq_some_iff.1 htask).1]
    exact htask
  | finish index' task' outcome htask' hstage =>
    apply hsame
    have hne : index' ≠ index := by
      rintro rfl
      rw [htask] at htask'
      cases htask'
      exact hended hstage
    dsimp only
    rw [List.getElem?_set_ne hne]
    exact htask
  | taskWrites index' task' response succeeds htask' hstage =>
    by_cases heq : index' = index
    . subst heq
      rw [htask] at htask'
      cases htask'
      refine ⟨.done, by simp, ?_⟩
      exact List.getElem?_set_self (List.getElem?_eq_some_iff.1 htask).1
    . apply hsame
      dsimp only
      rw [List.getElem?_set_ne heq]
      exact htask

end Registry

end JsonRpc.Server.Connection
