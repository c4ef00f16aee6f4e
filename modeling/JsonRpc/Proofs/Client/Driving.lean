import JsonRpc.Proofs.Client.Sending

/-!
The line that the owner drives. A command that fails while it is handled takes the line along, so
none of those that were begun on a line has failed as long as the line is driven.
-/

namespace JsonRpc.Client

variable {A : Event → Prop} {c c' : Client} {event : Event} {config : ClientConfig}
  {events : List Event} {line ticket : Nat}

theorem Move.driven? (hmove : Move A c c')
    : c'.phase.driven? = none ∨ c'.phase.driven? = c.phase.driven? ∨
        c'.phase.driven? = some c.lines.length := by
  cases hmove with
  | connect => exact .inr (.inr rfl)
  | backOff | attempt | stop | leave | hangUp => exact .inl rfl
  | beginCall _ _ _ _ htake | beginNotify _ _ _ _ htake =>
    rw [htake.phase]
    exact .inr (.inl rfl)
  | transmit _ _ _ hphase | finishCall _ _ _ hphase | finishNotify _ _ hphase
  | breakOff _ _ _ hphase =>
    rw [hphase]
    exact .inr (.inl rfl)
  | _ => exact .inr (.inl rfl)

theorem driven?_of_moves (hcustody : Custody c) (hmoves : Moves A c c')
    (hdriven : c'.phase.driven? = some line)
    : c.phase.driven? = some line ∨ c.lines.length ≤ line := by
  have hboth : Custody c' ∧ c.lines.length ≤ c'.lines.length ∧ ∀ line,
      c'.phase.driven? = some line → c.phase.driven? = some line ∨ c.lines.length ≤ line := by
    apply hmoves.keep _ ⟨hcustody, Nat.le_refl _, fun _ => .inl⟩
    rintro next next' ⟨hcustody, hle, hnext⟩ hmove
    refine ⟨hcustody.move hmove, Nat.le_trans hle (hmove.stretch hcustody).lines_le, ?_⟩
    intro line hline
    rcases hmove.driven? with hnone | hsame | hnew
    . rw [hnone] at hline
      cases hline
    . exact hnext line (hsame ▸ hline)
    . rw [hnew] at hline
      cases hline
      exact .inr hle
  exact hboth.2.2 line hdriven

def Sited (c : Client) : Prop :=
  ∀ line ticket id, .begun line ticket id ∈ c.history → line < c.lines.length

theorem Sited.move (h : Sited c) (hcustody : Custody c) (hmove : Move A c c') : Sited c' := by
  intro line ticket id hbegun
  apply Nat.lt_of_lt_of_le _ (hmove.stretch hcustody).lines_le
  rcases begun_of_move hmove hbegun with hold | ⟨rest, -, htake, -⟩
  . exact h line ticket id hold
  . have hlatest := hcustody.latest line (by rw [htake.phase]; rfl)
    omega

theorem sited_of_run? (h : (start config).run? events = some c)
    : Sited c := by
  apply holds_of_run? (fun _ _ hsound hc => Sited.move hc hsound.custody) _ h
  simp [Sited, start]

theorem begun_of_settled {reply : Reply} {id : Option Int64} (hsound : Sound c)
    (hmoves : Moves A c c') (hreplied : .replied ticket reply ∈ c.history)
    (hbegun : .begun line ticket id ∈ c'.history) : .begun line ticket id ∈ c.history := by
  have hboth : Sound c' ∧ .replied ticket reply ∈ c'.history ∧
      (.begun line ticket id ∈ c'.history → .begun line ticket id ∈ c.history) := by
    apply hmoves.keep _ ⟨hsound, hreplied, fun hbegun => hbegun⟩
    rintro next next' ⟨hnext, hsettled, hold⟩ hmove
    refine ⟨hnext.move hmove, hmove.grows.2.subset hsettled, ?_⟩
    intro hbegun
    rcases begun_of_move hmove hbegun with hbegun | ⟨rest, -, htake, -⟩
    . exact hold hbegun
    . have hqueued := hnext.ledger.not_mem_mailbox hsettled
      simp [htake.mailbox] at hqueued
  exact hboth.2.2 hbegun

def Occurrence.failed? : Occurrence → Option Nat
  | .replied ticket (.failed _) => some ticket
  | _ => none

def failures (c : Client) : List Nat :=
  c.history.filterMap Occurrence.failed?

theorem exists_of_mem_failures (h : ticket ∈ c.failures)
    : ∃ error, .replied ticket (.failed error) ∈ c.history := by
  obtain ⟨o, hmem, ho⟩ := List.mem_filterMap.1 h
  cases o with
  | replied t reply =>
    cases reply with
    | failed error =>
      cases ho
      exact ⟨error, hmem⟩
    | _ => cases ho
  | _ => cases ho

def Spares (c c' : Client) : Prop :=
  c'.phase.driven? = none ∨ c'.failures = c.failures

theorem Spares.look (h : Spares c c') : Spares c c'.look := h

theorem spares_leave (c next : Client) (line : Nat) (exit : Exit)
    : Spares c (next.leave line exit) := by
  rw [leave_eq]
  exact .inl rfl

theorem spares_enqueue (c : Client) (command : Command) : Spares c (c.enqueue command) := by
  unfold enqueue
  dsimp only
  split
  . exact .inr rfl
  . split <;> exact .inr rfl

theorem spares_closeLine (c : Client) (exit : Exit) : Spares c (c.closeLine exit) := by
  have hline := line?_closeLine c exit
  left
  cases hphase : (c.closeLine exit).phase with
  | driving | writing =>
    rw [hphase] at hline
    cases hline
  | _ => rfl

theorem spares_carryOut (hcustody : Custody c) {rest : List Nat}
    (htake : c.Taking line ticket rest)
    : Spares c ({ c with mailbox := rest }.carryOut line ticket) := by
  unfold carryOut
  dsimp only
  rw [hcustody.hand_of_taking htake]
  dsimp only
  split
  . split <;> exact .inr rfl
  . exact .inr rfl
  . rw [lend_eq]
    exact .inr rfl
  . exact .inr rfl

theorem spares_turn? (hcustody : Custody c) (h : c.turn? = some c') : Spares c c' := by
  cases turn?_cases h with
  | stops =>
    left
    rw [phase_stop]
    rfl
  | quits line => exact spares_leave c c line .shutdown
  | hears line _ hinbound =>
    rcases takeInbound?_cases hinbound with ⟨l, message, rest, -, -, rfl⟩ | rfl
    . right
      simp [failures, Occurrence.failed?, List.filterMap_cons, Function.comp_def]
    . exact spares_leave c c line .lost
  | takes line ticket rest htake => exact spares_carryOut hcustody htake
  | reclaims hreclaim =>
    obtain ⟨ticket, loan, -, -, rfl⟩ := reclaim?_cases hreclaim
    exact .inr rfl
  | breaksOff line job => exact spares_leave c _ line .shutdown
  | closes line exit => exact spares_closeLine c exit

theorem spares_writeReturns? {succeeds : Bool} (h : c.writeReturns? succeeds = some c')
    : Spares c c' := by
  unfold writeReturns? at h
  split at h
  . split at h
    . cases h
    . split at h
      . split at h
        . cases h
          split
          . unfold await
            split <;> exact .inr rfl
          . exact .inr rfl
        . cases h
      . cases h
        exact spares_leave c _ _ .lost
  . cases h

theorem spares_of_step? (hcustody : Custody c) (h : c.step? event = some c') : Spares c c' := by
  -- By steps and not by moves: the failure of a write is told one move before its line is left.
  cases event with
  | issue command =>
    simp only [step?, issue?] at h
    split at h <;> cases h
    exact spares_enqueue c command
  | enqueue command =>
    cases h
    exact spares_enqueue c command
  | enter =>
    simp only [step?, enter?] at h
    split at h
    . cases h
    . split at h <;> cases h
      exact .inr rfl
  | giveUp ticket =>
    cases h
    unfold giveUp
    rw [release_eq]
    exact .inr rfl
  | look =>
    cases h
    exact .inr rfl
  | turn =>
    obtain ⟨next, hturn, rfl⟩ := Option.map_eq_some_iff.1 h
    exact (spares_turn? hcustody hturn).look
  | connects | failsToConnect | wakes =>
    obtain ⟨next, hnext, rfl⟩ := Option.map_eq_some_iff.1 h
    simp only [connects?, failsToConnect?, wakes?] at hnext
    split at hnext <;> cases hnext
    exact .inr rfl
  | transmits =>
    obtain ⟨line, job, -, -, -, rfl⟩ := transmits?_cases h
    exact .inr rfl
  | writeReturns succeeds =>
    obtain ⟨next, hreturns, rfl⟩ := Option.map_eq_some_iff.1 h
    exact (spares_writeReturns? hreturns).look
  | reads line =>
    obtain ⟨⟨arrival, after⟩, -, rfl⟩ := Option.map_eq_some_iff.1 h
    cases arrival <;> exact .inr rfl
  | borrowerWrites ticket message =>
    obtain ⟨loan, -, rfl⟩ := Option.map_eq_some_iff.1 h
    exact .inr rfl
  | release ticket =>
    cases h
    rw [release_eq]
    exact .inr rfl
  | arrives | abandonClose =>
    cases h
    exact .inr rfl
  | shutDown =>
    cases h
    unfold shutDown
    split <;> exact .inr rfl
  | close =>
    cases h
    unfold close shutDown
    split <;> exact .inr rfl
  | closerTurn closer =>
    simp only [step?, closerTurn?] at h
    repeat' split at h
    all_goals cases h
    all_goals exact .inr rfl

def Unfailing (c : Client) : Prop :=
  ∀ line ticket id, c.phase.driven? = some line → .begun line ticket id ∈ c.history →
    ticket ∉ c.failures

theorem Unfailing.step (h : Unfailing c) (hsound : Sound c) (hsited : Sited c)
    (hstep : c.step? event = some c') : Unfailing c' := by
  intro line ticket id hdriven hbegun hfailed
  have hmoves : Moves (fun _ => True) c c' := step?_moves hstep trivial
  rcases spares_of_step? hsound.custody hstep with hnone | hsame
  . rw [hnone] at hdriven
    cases hdriven
  . -- The failure is an old one, and so is the beginning, since nothing settled is begun.
    rw [hsame] at hfailed
    obtain ⟨error, hreplied⟩ := exists_of_mem_failures hfailed
    have hold := begun_of_settled hsound hmoves hreplied hbegun
    rcases driven?_of_moves hsound.custody hmoves hdriven with hdriven | hnew
    . exact h line ticket id hdriven hold hfailed
    . have := hsited line ticket id hold
      omega

theorem unfailing_of_run? (h : (start config).run? events = some c) : Unfailing c := by
  have hboth : (start config).run? ([] ++ events) = some c ∧ Unfailing c := by
    apply holds_of_foldlM (P := fun events c =>
      (start config).run? events = some c ∧ Unfailing c) _ ⟨rfl, by simp [Unfailing, start]⟩ h
    rintro events c event c' ⟨hrun, hunfailing⟩ hstep
    exact ⟨foldlM_snoc hrun hstep, hunfailing.step (sound_of_run? hrun) (sited_of_run? hrun) hstep⟩
  exact hboth.2

end JsonRpc.Client
