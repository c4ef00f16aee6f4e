import JsonRpc.Proofs.Server.Ending
import JsonRpc.Proofs.Server.Registry
import Mathlib.Data.List.Nodup

/-!
The slots of the requests that can be cancelled. No identifier has two, and the numbers of the slots
tell the tasks apart, so that the end of one request never takes the slot of another away.
-/

namespace JsonRpc.Server

def Task.given (task : Task) : Request × Option Nat :=
  (task.request, task.slot)

namespace Connection

def Holds (c : Connection) (index : Nat) (id : Id) : Prop :=
  ∃ task seq, c.tasks[index]? = some task ∧ task.request.id = id ∧ task.slot = some seq ∧
    ⟨id, seq⟩ ∈ c.pending

def Cancels (message : Bytes) (id : Id) : Prop :=
  ∃ request params value, Request.decode message = .ok request ∧ request.method = cancelMethod ∧
    request.params = some params ∧ params.member? "id" = some value ∧ Id.ofJson value = .ok id

theorem target?_eq_some {request : Request} {id : Id}
    : target? request = some id ↔
        ∃ params value, request.params = some params ∧ params.member? "id" = some value ∧
          Id.ofJson value = .ok id := by
  unfold target? cancelTarget
  cases request.params with
  | none => simp [Except.toOption]
  | some params =>
    cases hvalue : params.member? "id" with
    | none => simp [hvalue, Except.toOption]
    | some value =>
      cases hid : Id.ofJson value <;> simp [hvalue, hid, Except.toOption, Except.mapError]

theorem cancels_iff {message : Bytes} {request : Request} {id : Id}
    (hdecode : Request.decode message = .ok request)
    : Cancels message id ↔ request.method = cancelMethod ∧ target? request = some id := by
  rw [target?_eq_some]
  constructor
  . rintro ⟨request', params, value, hdecode', hmethod, hparams, hvalue, hid⟩
    rw [hdecode] at hdecode'
    cases hdecode'
    exact ⟨hmethod, params, value, hparams, hvalue, hid⟩
  . rintro ⟨hmethod, params, value, hparams, hvalue, hid⟩
    exact ⟨request, params, value, hdecode, hmethod, hparams, hvalue, hid⟩

theorem Cancels.id_eq {message : Bytes} {id id' : Id} (h : Cancels message id)
    (h' : Cancels message id') : id = id' := by
  have hnamed := h
  obtain ⟨request, -, -, hdecode, -⟩ := hnamed
  have htarget := ((cancels_iff hdecode).1 h).2
  rw [((cancels_iff hdecode).1 h').2] at htarget
  exact (Option.some.inj htarget).symm

structure Slots (c : Connection) : Prop where
  registry : Registry c
  numbered : c.tasks.filterMap Task.slot = List.range c.nextSeq
  ids : (c.pending.map Slot.id).Nodup

theorem filterMap_slot_eq {tasks tasks' : List Task}
    (h : tasks'.map Task.slot = tasks.map Task.slot)
    : tasks'.filterMap Task.slot = tasks.filterMap Task.slot := by
  have hmap := congrArg (List.filterMap id) h
  rw [List.filterMap_map, List.filterMap_map] at hmap
  exact hmap

theorem nodup_filter {pending : List Slot} (h : (pending.map Slot.id).Nodup) (p : Slot → Bool)
    : ((pending.filter p).map Slot.id).Nodup :=
  h.sublist (List.filter_sublist.map _)

theorem slot?_eq_none {c : Connection} {id : Id}
    : c.slot? id = none ↔ ∀ slot ∈ c.pending, slot.id ≠ id := by
  simp [slot?]

theorem registers_iff {c : Connection} {request : Request}
    : c.registers request ↔
        request.notification = false ∧ ∀ slot ∈ c.pending, slot.id ≠ request.id := by
  rw [← slot?_eq_none]
  simp [registers]

theorem given_move {c c' : Connection} {event : Event} (hmove : Move c event c')
    : c.tasks.map Task.given <+: c'.tasks.map Task.given := by
  cases hmove with
  | reject | fail | loopWrites | close => exact List.prefix_rfl
  | cancel message request =>
    have hkept := map_tell c.tasks (c.seq? (target? request)) (f := Task.given) fun _ => rfl
    simp only [hkept, List.prefix_rfl]
  | start message request =>
    dsimp only
    rw [List.map_append]
    apply List.prefix_append
  | finish index task outcome htask | taskWrites index task response succeeds htask =>
    have hkept (stage : Stage) := map_set_stage htask stage (f := Task.given) rfl
    simp only [hkept, List.prefix_rfl]

theorem given_of_run? {c c' : Connection} {events : List Event} (h : c.run? events = some c')
    : c.tasks.map Task.given <+: c'.tasks.map Task.given := by
  induction events generalizing c with
  | nil =>
    cases h
    exact List.prefix_rfl
  | cons event events ih =>
    obtain ⟨next, hstep, hrest⟩ := exists_step_of_foldlM h
    exact (given_move (step?_move hstep)).trans (ih hrest)

theorem exists_given {tasks tasks' : List Task}
    (h : tasks.map Task.given <+: tasks'.map Task.given) {index : Nat} {task : Task}
    (htask : tasks[index]? = some task)
    : ∃ task', tasks'[index]? = some task' ∧ task'.given = task.given := by
  obtain ⟨more, hmore⟩ := h
  have hgiven : (tasks.map Task.given)[index]? = some task.given := by simp [htask]
  have hlt := (List.getElem?_eq_some_iff.1 hgiven).1
  rw [← List.getElem?_append_left hlt, hmore, List.getElem?_map, Option.map_eq_some_iff] at hgiven
  exact hgiven

namespace Slots

variable {c c' : Connection} {event : Event} {index : Nat} {id : Id}

theorem start : Slots {} := by
  constructor
  . exact .start
  . rfl
  . exact List.nodup_nil

theorem move (h : Slots c) (hmove : Move c event c') : Slots c' := by
  have hregistry := h.registry.move hmove
  cases hmove with
  | reject | fail | loopWrites | close => exact ⟨hregistry, h.numbered, h.ids⟩
  | cancel message request =>
    refine ⟨hregistry, ?_, nodup_filter h.ids _⟩
    dsimp only
    rw [filterMap_slot_eq (map_tell _ _ fun _ => rfl)]
    exact h.numbered
  | start message request =>
    cases hregisters : c.registers request with
    | false =>
      rw [hregisters] at hregistry
      exact ⟨hregistry, by simp [h.numbered], h.ids⟩
    | true =>
      rw [hregisters] at hregistry
      refine ⟨hregistry, by simp [h.numbered, List.range_succ], ?_⟩
      obtain ⟨-, hnew⟩ := registers_iff.1 hregisters
      simp only [if_true, List.map_append, List.map_cons, List.map_nil]
      apply List.Nodup.append h.ids (List.nodup_singleton _)
      simpa using hnew
  | finish index task outcome htask =>
    refine ⟨hregistry, ?_, nodup_filter h.ids _⟩
    dsimp only
    rw [filterMap_slot_eq (map_set_stage (f := Task.slot) htask _ (by rfl))]
    exact h.numbered
  | taskWrites index task response succeeds htask =>
    refine ⟨hregistry, ?_, h.ids⟩
    dsimp only
    rw [filterMap_slot_eq (map_set_stage (f := Task.slot) htask _ (by rfl))]
    exact h.numbered

theorem eq_of_slot (h : Slots c) {i j : Nat} {task task' : Task} (htask : c.tasks[i]? = some task)
    (htask' : c.tasks[j]? = some task') {seq : Nat} (hslot : task.slot = some seq)
    (hslot' : task'.slot = some seq) : i = j := by
  have hapart : c.tasks.Pairwise fun task task' =>
      ∀ seq, task.slot = some seq → ∀ seq', task'.slot = some seq' → seq ≠ seq' := by
    rw [← List.pairwise_filterMap, h.numbered]
    exact List.nodup_range
  obtain ⟨hi, rfl⟩ := List.getElem?_eq_some_iff.1 htask
  obtain ⟨hj, rfl⟩ := List.getElem?_eq_some_iff.1 htask'
  rcases Nat.lt_trichotomy i j with hlt | rfl | hlt
  . exact absurd rfl (List.pairwise_iff_getElem.1 hapart i j hi hj hlt seq hslot seq hslot')
  . rfl
  . exact absurd rfl (List.pairwise_iff_getElem.1 hapart j i hj hi hlt seq hslot' seq hslot)

theorem slot?_of_mem (h : Slots c) {slot : Slot} (hmem : slot ∈ c.pending)
    : c.slot? slot.id = some slot := by
  cases hslot : c.slot? slot.id with
  | none => exact absurd rfl (slot?_eq_none.1 hslot slot hmem)
  | some found =>
    have hid : found.id = slot.id := by simpa using List.find?_some hslot
    have hfound := List.mem_of_find?_eq_some hslot
    rw [List.inj_on_of_nodup_map h.ids hfound hmem hid]

theorem holds_iff (h : Slots c)
    : c.Holds index id ↔
        ∃ task seq, c.tasks[index]? = some task ∧ task.slot = some seq ∧
          c.seq? (some id) = some seq := by
  constructor
  . rintro ⟨task, seq, htask, -, hslot, hmem⟩
    refine ⟨task, seq, htask, hslot, ?_⟩
    unfold seq?
    rw [Option.bind_some, h.slot?_of_mem hmem]
    rfl
  . rintro ⟨task, seq, htask, hslot, hseq⟩
    obtain ⟨slot, hfound, rfl⟩ := Option.map_eq_some_iff.1 hseq
    have hid : slot.id = id := by simpa using List.find?_some hfound
    subst hid
    have hmem := List.mem_of_find?_eq_some hfound
    obtain ⟨-, hrequest⟩ := h.registry.running slot hmem task (List.mem_of_getElem? htask) hslot
    exact ⟨task, slot.seq, htask, hrequest, hslot, hmem⟩

theorem eq_of_holds (h : Slots c) {i j : Nat} (hi : c.Holds i id) (hj : c.Holds j id)
    : i = j := by
  obtain ⟨task, seq, htask, hslot, hseq⟩ := h.holds_iff.1 hi
  obtain ⟨task', seq', htask', hslot', hseq'⟩ := h.holds_iff.1 hj
  rw [hseq] at hseq'
  cases hseq'
  exact h.eq_of_slot htask htask' hslot hslot'

theorem exists_running (h : Slots c) {slot : Slot} (hmem : slot ∈ c.pending)
    : ∃ task ∈ c.tasks, task.slot = some slot.seq ∧ task.stage = .running := by
  have hgiven : slot.seq ∈ c.tasks.filterMap Task.slot := by
    rw [h.numbered, List.mem_range]
    exact h.registry.pending slot hmem
  obtain ⟨task, htask, hslot⟩ := List.mem_filterMap.1 hgiven
  exact ⟨task, htask, hslot, (h.registry.running slot hmem task htask hslot).1⟩

theorem pending_eq_nil (h : Slots c) (hdone : ∀ task ∈ c.tasks, task.stage = .done)
    : c.pending = [] := by
  apply List.eq_nil_iff_forall_not_mem.2
  intro slot hslot
  obtain ⟨task, htask, -, hrunning⟩ := h.exists_running hslot
  rw [hdone task htask] at hrunning
  cases hrunning

theorem holds_move (h : Slots c) (hmove : Move c event c') (hholds : c.Holds index id)
    : c'.Holds index id ∨ (∃ outcome, event = .finish index outcome) ∨
        ∃ message, event = .receive message ∧ Cancels message id := by
  obtain ⟨task, seq, htask, hid, hslot, hmem⟩ := hholds
  obtain ⟨task', htask', hgiven⟩ := exists_given (given_move hmove) htask
  obtain ⟨hrequest', hslot'⟩ := Prod.mk.inj hgiven
  rw [← hrequest'] at hid
  rw [← hslot'] at hslot
  have hkept (hpending : ⟨id, seq⟩ ∈ c'.pending) : c'.Holds index id :=
    ⟨task', seq, htask', hid, hslot, hpending⟩
  cases hmove with
  | reject | fail | loopWrites | taskWrites | close => exact .inl (hkept hmem)
  | cancel message request hphase hdecode hmethod =>
    by_cases htarget : target? request = some id
    . exact .inr (.inr ⟨message, rfl, (cancels_iff hdecode).2 ⟨hmethod, htarget⟩⟩)
    . left
      apply hkept
      have hother : some id ≠ target? request := fun heq => htarget heq.symm
      exact List.mem_filter.2 ⟨hmem, by simpa using hother⟩
  | start message request =>
    left
    apply hkept
    dsimp only
    split
    . exact List.mem_append_left _ hmem
    . exact hmem
  | finish index' ended outcome hended =>
    by_cases hsame : index' = index
    . subst hsame
      exact .inr (.inl ⟨outcome, rfl⟩)
    . left
      apply hkept
      apply List.mem_filter.2
      refine ⟨hmem, ?_⟩
      have hother : ended.slot ≠ some seq := by
        intro heq
        rw [hslot'] at hslot
        exact hsame (h.eq_of_slot hended htask heq hslot)
      simp [hother.symm]

end Slots

end Connection

end JsonRpc.Server
