/-!
Runs of what takes one step for each event: of steps that may be impossible, and of steps that tell
something.
-/

namespace JsonRpc

variable {State Event : Type} {step : State → Event → Option State}

theorem exists_step_of_foldlM {s s' : State} {event : Event} {events : List Event}
    (h : (event :: events).foldlM step s = some s')
    : ∃ next, step s event = some next ∧ events.foldlM step next = some s' := by
  simpa [Option.bind_eq_some_iff] using h

theorem foldlM_of_append {s s' past : State} {before after : List Event}
    (h : (before ++ after).foldlM step s = some s') (hbefore : before.foldlM step s = some past)
    : after.foldlM step past = some s' := by
  simpa [hbefore] using h

theorem foldlM_snoc {s s' next : State} {event : Event} {events : List Event}
    (h : events.foldlM step s = some s') (hstep : step s' event = some next)
    : (events ++ [event]).foldlM step s = some next := by
  simp [h, hstep]

theorem holds_of_foldlM {P : List Event → State → Prop}
    (hstep : ∀ past s event s', P past s → step s event = some s' → P (past ++ [event]) s')
    {past events : List Event} {s s' : State} (hs : P past s)
    (h : events.foldlM step s = some s') : P (past ++ events) s' := by
  induction events generalizing past s with
  | nil =>
    cases h
    rw [List.append_nil]
    exact hs
  | cons event events ih =>
    obtain ⟨next, hnext, hrest⟩ := exists_step_of_foldlM h
    have := ih (hstep past s event next hs hnext) hrest
    rw [List.append_assoc] at this
    exact this

theorem keeps_of_foldlM {P : State → Prop}
    (hstep : ∀ s event s', P s → step s event = some s' → P s') {events : List Event}
    {s s' : State} (hs : P s) (h : events.foldlM step s = some s') : P s' := by
  induction events generalizing s with
  | nil =>
    cases h
    exact hs
  | cons event events ih =>
    obtain ⟨next, hnext, hrest⟩ := exists_step_of_foldlM h
    exact ih (hstep s event next hs hnext) hrest

variable {Told State' : Type}

def tellAll (step : State → Event → Told × State) (s : State) : List Event → List Told × State
  | [] => ([], s)
  | event :: events => ((step s event).1 :: (tellAll step (step s event).2 events).1,
      (tellAll step (step s event).2 events).2)

theorem tellAll_of_alike {step : State → Event → Told × State}
    {step' : State' → Event → Told × State'} {Alike : State → State' → Prop} {events : List Event}
    (hstep : ∀ s s', Alike s s' → ∀ event ∈ events,
      (step s event).1 = (step' s' event).1 ∧ Alike (step s event).2 (step' s' event).2)
    {s : State} {s' : State'} (hs : Alike s s')
    : (tellAll step s events).1 = (tellAll step' s' events).1 ∧
        Alike (tellAll step s events).2 (tellAll step' s' events).2 := by
  induction events generalizing s s' with
  | nil => exact ⟨rfl, hs⟩
  | cons event events ih =>
    obtain ⟨htold, hnext⟩ := hstep s s' hs event List.mem_cons_self
    obtain ⟨hrest, hlast⟩ :=
      ih (fun s s' hs later hmem => hstep s s' hs later (List.mem_cons_of_mem _ hmem)) hnext
    refine ⟨?_, hlast⟩
    rw [tellAll, tellAll, htold, hrest]

def tellTimes (step : State → Told × State) : (n : Nat) → State → List Told × State
  | 0, s => ([], s)
  | n + 1, s => ((step s).1 :: (tellTimes step n (step s).2).1, (tellTimes step n (step s).2).2)

end JsonRpc
