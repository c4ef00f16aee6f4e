import JsonRpc.Proofs.Client.Move

/-!
What the owner knows of a shutdown. It looks behind all that it does, so one deed at most falls
between a shutdown and the look that finds it; and what it knows it does not forget.
-/

namespace JsonRpc.Client

variable {A : Event → Prop} {c c' : Client} {event : Event}

theorem warned_look (c : Client) : c.look.warned = c.shutdown := by
  unfold warned look
  cases c.shutdown <;> simp

theorem Move.shutdown (h : c.shutdown) (hmove : Move A c c') : c'.shutdown := by
  cases hmove <;> first | exact h | rfl

theorem Move.warned (h : c.warned) (hmove : Move A c c') : c'.warned := by
  have hshut := shutdown_of_warned h
  cases hmove with
  | look =>
    change c.look.warned
    rw [warned_look, hshut]
  | shutDown hrunning =>
    rw [hrunning] at hshut
    cases hshut
  | _ => exact h

def Event.Looks : Event → Prop
  | .look | .turn | .connects | .failsToConnect _ | .wakes | .writeReturns _ => True
  | _ => False

theorem look_of_step? (hlooks : event.Looks) (hstep : c.step? event = some c')
    : ∃ next : Client, c' = next.look := by
  cases event with
  | look =>
    cases hstep
    exact ⟨c, rfl⟩
  | turn | connects | failsToConnect | wakes | writeReturns =>
    obtain ⟨next, -, rfl⟩ := Option.map_eq_some_iff.1 hstep
    exact ⟨next, rfl⟩
  | _ => exact hlooks.elim

theorem warned_of_step? (hshut : c.shutdown) (hlooks : event.Looks)
    (hstep : c.step? event = some c') : c'.warned := by
  have hshut' : c'.shutdown :=
    (step?_moves (A := fun _ => True) hstep trivial).keep (fun _ _ => Move.shutdown) hshut
  obtain ⟨next, rfl⟩ := look_of_step? hlooks hstep
  rw [warned_look]
  exact hshut'

structure Undisturbed (c c' : Client) : Prop where
  phase : c'.phase = c.phase
  pending : c'.pending = c.pending
  lent : c'.lent = c.lent
  assured : c'.assured = c.assured

theorem undisturbed_enqueue (c : Client) (command : Command)
    : Undisturbed c (c.enqueue command) := by
  unfold enqueue
  dsimp only
  split
  . exact ⟨rfl, rfl, rfl, rfl⟩
  . split <;> exact ⟨rfl, rfl, rfl, rfl⟩

theorem undisturbed_release (c : Client) (ticket : Nat) : Undisturbed c (c.release ticket) := by
  unfold release
  split <;> exact ⟨rfl, rfl, rfl, rfl⟩

theorem undisturbed_shutDown (c : Client) : Undisturbed c c.shutDown := by
  unfold shutDown
  split <;> exact ⟨rfl, rfl, rfl, rfl⟩

theorem undisturbed_of_step? (hlooks : ¬ event.Looks) (hwrites : event ≠ .transmits)
    (hstep : c.step? event = some c') : Undisturbed c c' := by
  cases event with
  | look | turn | connects | failsToConnect | wakes | writeReturns => exact absurd trivial hlooks
  | transmits => exact absurd rfl hwrites
  | issue command =>
    simp only [step?, issue?] at hstep
    split at hstep <;> cases hstep
    apply undisturbed_enqueue
  | enqueue command =>
    cases hstep
    apply undisturbed_enqueue
  | enter =>
    simp only [step?, enter?] at hstep
    split at hstep
    . cases hstep
    . split at hstep <;> cases hstep
      exact ⟨rfl, rfl, rfl, rfl⟩
  | giveUp ticket =>
    cases hstep
    obtain ⟨hphase, hpending, hlent, hassured⟩ := undisturbed_release { c with
      waiting := c.waiting.filter (· ≠ ticket)
      abandoned := if ticket ∈ c.abandoned then c.abandoned else ticket :: c.abandoned } ticket
    exact ⟨hphase, hpending, hlent, hassured⟩
  | release ticket =>
    cases hstep
    apply undisturbed_release
  | reads line =>
    obtain ⟨⟨arrival, after⟩, -, rfl⟩ := Option.map_eq_some_iff.1 hstep
    cases arrival <;> exact ⟨rfl, rfl, rfl, rfl⟩
  | borrowerWrites ticket message =>
    obtain ⟨loan, -, rfl⟩ := Option.map_eq_some_iff.1 hstep
    exact ⟨rfl, rfl, rfl, rfl⟩
  | arrives | abandonClose =>
    cases hstep
    exact ⟨rfl, rfl, rfl, rfl⟩
  | shutDown =>
    cases hstep
    apply undisturbed_shutDown
  | close =>
    cases hstep
    obtain ⟨hphase, hpending, hlent, hassured⟩ := undisturbed_shutDown c
    exact ⟨hphase, hpending, hlent, hassured⟩
  | closerTurn closer =>
    simp only [step?, closerTurn?] at hstep
    repeat' split at hstep
    all_goals cases hstep
    all_goals exact ⟨rfl, rfl, rfl, rfl⟩

/-- The owner acts on an earlier look only while it waits for what a shutdown cuts short. -/
def Watchful (c : Client) : Prop :=
  c.assured → c.watches

theorem watchful_look (c : Client) : Watchful c.look := by
  intro hassured
  exact (Bool.and_eq_true_iff.1 hassured).1

theorem Watchful.step (h : Watchful c) (hstep : c.step? event = some c') : Watchful c' := by
  by_cases hlooks : event.Looks
  . obtain ⟨next, rfl⟩ := look_of_step? hlooks hstep
    exact watchful_look next
  . by_cases hwrites : event = .transmits
    . subst hwrites
      obtain ⟨line, job, -, -, -, rfl⟩ := transmits?_cases hstep
      exact fun _ => rfl
    . obtain ⟨hphase, -, hlent, hassured⟩ := undisturbed_of_step? hlooks hwrites hstep
      unfold Watchful watches
      rw [hassured, hphase, hlent]
      exact h

theorem Watchful.warned (h : Watchful c) (hwatches : c.watches = false) (hshut : c.shutdown)
    : c.warned := by
  have hassured : c.assured = false := by
    cases hassured : c.assured with
    | false => rfl
    | true =>
      rw [h hassured] at hwatches
      cases hwatches
  unfold Client.warned
  rw [hshut, hassured]
  rfl

end JsonRpc.Client
