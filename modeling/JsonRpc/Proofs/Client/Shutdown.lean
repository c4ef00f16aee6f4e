import JsonRpc.Proofs.Client.Queueing
import JsonRpc.Proofs.Client.Looking
import Mathlib.Data.List.Nodup

/-!
Calls that wait for their responses when the client is closed. They are answered or told that the
client is closed, unless the line is lost before the owner heeds the shutdown. That may be long, as
an owner whose writer is lent does not look.
-/

namespace JsonRpc.Client

variable {A : Event → Prop} {c c' : Client} {event : Event} {config : ClientConfig}
  {before after events : List Event} {id : Int64} {ticket : Nat}

inductive InFlight (c : Client) (id : Int64) (ticket : Nat) : Prop where
  | pending (hmem : (id, ticket) ∈ c.pending)
  | writing (line : Nat) (job : Job) (hphase : c.phase = .writing line job) (hid : job.id = some id)
    (hticket : job.ticket = ticket) (htransmitted : job.transmitted)

/--
In this step the owner finds its line lost and does not heed the shutdown: its writer is lent, or it
has not looked since.
-/
inductive Loses (event : Event) (c : Client) : Prop where
  | hears (line : Nat) (hevent : event = .turn) (hphase : c.phase = .driving line)
    (hheedless : c.lent ≠ none ∨ c.warned = false) (hturn : c.turn? = some (c.leave line .lost)) :
    Loses event c
  | writes (line : Nat) (job : Job) (hevent : event = .writeReturns false)
    (hphase : c.phase = .writing line job) (hunwarned : c.warned = false) :
    Loses event c

inductive Resolves (event : Event) (c : Client) (id : Int64) : Reply → Prop where
  | answered (response : Response) (hcall : callOf? response.id = some id) :
    Resolves event c id (.answered response)
  | closed : Resolves event c id (.failed .closed)
  | interrupted (hloses : c.Loses event) : Resolves event c id (.failed .interrupted)
  /-- Its identifier is given out again. -/
  | dropped (hcount : 2 ^ 64 < c.numbered.length) : Resolves event c id .dropped

theorem InFlight.driven (h : c.InFlight id ticket) (hledger : Ledger c)
    : c.phase.driven? ≠ none := by
  intro hoffline
  cases h with
  | pending hmem =>
    rw [hledger.offline hoffline] at hmem
    cases hmem
  | writing line job hphase =>
    rw [hphase] at hoffline
    cases hoffline

theorem replied_of_leave (hmem : (id, ticket) ∈ c.pending) (line : Nat) (exit : Exit)
    : .replied ticket (.failed exit.error) ∈ (c.leave line exit).history := by
  rw [leave_eq]
  apply List.mem_append_left
  exact List.mem_reverse.2 (List.mem_map.2 ⟨_, hmem, rfl⟩)

theorem replied_of_breakOff {line : Nat} {job : Job} (h : c.InFlight id ticket)
    (hphase : c.phase = .writing line job) (exit : Exit)
    : .replied ticket (.failed exit.error)
        ∈ ((c.reply job.ticket (.failed exit.error)).leave line exit).history := by
  cases h with
  | pending hmem =>
    exact replied_of_leave (c := c.reply job.ticket (.failed exit.error)) hmem line exit
  | writing line' job' hphase' hid hticket =>
    rw [hphase] at hphase'
    cases hphase'
    rw [leave_eq, hticket]
    apply List.mem_append_right
    exact List.mem_cons_self

def Proceeds (event : Event) (c c' : Client) (id : Int64) (ticket : Nat) : Prop :=
  c'.InFlight id ticket ∨ ∃ reply, .replied ticket reply ∈ c'.history ∧ Resolves event c id reply

theorem Proceeds.of_takeInbound? {line : Nat} (hledger : Ledger c)
    (hheedless : c.lent ≠ none ∨ c.warned = false) (hphase : c.phase = .driving line)
    (hmem : (id, ticket) ∈ c.pending) (hturn : c.turn? = some c')
    (hinbound : c.takeInbound? line = some c') : Proceeds .turn c c' id ticket := by
  rcases takeInbound?_cases hinbound with ⟨l, message, rest, -, -, rfl⟩ | rfl
  . rcases answered_or_unanswered hledger.keys hmem (responsesOf message) with
      hwaits | ⟨response, hanswer, hcall⟩
    . exact .inl (.pending hwaits)
    . refine .inr ⟨.answered response, ?_, .answered response hcall⟩
      apply List.mem_append_left
      exact List.mem_reverse.2 (List.mem_map.2 ⟨_, hanswer, rfl⟩)
  . exact .inr ⟨_, replied_of_leave hmem line .lost,
      .interrupted (.hears line rfl hphase hheedless hturn)⟩

theorem Proceeds.of_heeding (h : c.InFlight id ticket) (hledger : Ledger c) (hlent : c.lent = none)
    (hwarned : c.warned) (hturn : c.turn? = some c') : Proceeds .turn c c' id ticket := by
  have hdriven := h.driven hledger
  unfold turn? at hturn
  cases hphase : c.phase with
  | driving line =>
    simp only [hphase, hlent, hwarned, if_true, Option.some.injEq] at hturn
    subst hturn
    cases h with
    | pending hmem => exact .inr ⟨_, replied_of_leave hmem line .shutdown, .closed⟩
    | writing line' job hphase' =>
      rw [hphase] at hphase'
      cases hphase'
  | writing line job =>
    simp only [hphase, hwarned, if_true, Option.some.injEq] at hturn
    subst hturn
    exact .inr ⟨_, replied_of_breakOff h hphase .shutdown, .closed⟩
  | connecting | backingOff | finishing | stopped =>
    rw [hphase] at hdriven
    exact absurd rfl hdriven

theorem pending_carryOut {line other : Nat} {rest : List Nat} (h : Custody c)
    (htake : c.Taking line other rest)
    : ({ c with mailbox := rest }.carryOut line other).pending = c.pending := by
  unfold carryOut
  dsimp only
  rw [h.hand_of_taking htake]
  dsimp only
  split
  . split <;> rfl
  . rfl
  . rw [lend_eq]
  . rfl

theorem Proceeds.of_heedless (h : c.InFlight id ticket) (hsound : Sound c)
    (hheedless : c.lent ≠ none ∨ c.warned = false) (hturn : c.turn? = some c')
    : Proceeds .turn c c' id ticket := by
  have hdriven := h.driven hsound.ledger
  have hwaits {line : Nat} (hphase : c.phase = .driving line) : (id, ticket) ∈ c.pending := by
    cases h with
    | pending hmem => exact hmem
    | writing line' job hphase' =>
      rw [hphase] at hphase'
      cases hphase'
  cases turn?_cases hturn with
  | hears line hphase hinbound =>
    exact .of_takeInbound? hsound.ledger hheedless hphase (hwaits hphase) hturn hinbound
  | takes line other rest htake =>
    refine .inl (.pending ?_)
    rw [pending_carryOut hsound.custody htake]
    exact hwaits htake.phase
  | reclaims hreclaim =>
    obtain ⟨borrower, loan, hlent, -, rfl⟩ := reclaim?_cases hreclaim
    cases h with
    | pending hmem => exact .inl (.pending hmem)
    | writing line job hphase hid hticket htransmitted =>
      exact .inl (.writing line job hphase hid hticket htransmitted)
  | quits line hphase hlent hwarned =>
    rcases hheedless with hlent' | hunwarned
    . exact absurd hlent hlent'
    . rw [hwarned] at hunwarned
      cases hunwarned
  | breaksOff line job hphase =>
    exact .inr ⟨_, replied_of_breakOff h hphase .shutdown, .closed⟩
  | stops hphase =>
    cases hp : c.phase <;> simp [hp, Phase.driven?, Phase.IsOffline] at hdriven hphase
  | closes line exit hphase =>
    rw [hphase] at hdriven
    exact absurd rfl hdriven

theorem Proceeds.of_turn (h : c.InFlight id ticket) (hsound : Sound c)
    (hturn : c.turn? = some c') : Proceeds .turn c c' id ticket := by
  by_cases hheedless : c.lent ≠ none ∨ c.warned = false
  . exact .of_heedless h hsound hheedless hturn
  . simp only [ne_eq, not_or, not_not, Bool.not_eq_false] at hheedless
    exact .of_heeding h hsound.ledger hheedless.1 hheedless.2 hturn

theorem Proceeds.of_await {line : Nat} {job : Job} {id' : Int64} (h : c.InFlight id ticket)
    (hsound : Sound c) (hphase : c.phase = .writing line job) (hid : job.id = some id')
    (hpending : c'.pending = c.pending.filter (·.1 ≠ id') ++ [(id', job.ticket)])
    (hdropped : ∀ earlier, c.pending.lookup id' = some earlier →
      .replied earlier .dropped ∈ c'.history)
    : Proceeds event c c' id ticket := by
  cases h with
  | writing line' job' hphase' hid' hticket =>
    rw [hphase] at hphase'
    cases hphase'
    rw [hid] at hid'
    cases hid'
    refine .inl (.pending ?_)
    rw [hpending, hticket]
    exact List.mem_append_right _ List.mem_cons_self
  | pending hmem =>
    by_cases heq : id = id'
    . subst heq
      have hlookup : c.pending.lookup id = some ticket := lookup_of_mem hsound.ledger.keys hmem
      refine .inr ⟨_, hdropped ticket hlookup, .dropped ?_⟩
      by_contra hcount
      rw [hsound.numbering.lookup_of_writing (Nat.le_of_not_lt hcount) hphase hid] at hlookup
      cases hlookup
    . refine .inl (.pending ?_)
      rw [hpending]
      exact List.mem_append_left _ (List.mem_filter.2 ⟨hmem, by simpa using heq⟩)

theorem Proceeds.of_writeReturns? {succeeds : Bool} (h : c.InFlight id ticket) (hsound : Sound c)
    (hreturns : c.writeReturns? succeeds = some c')
    : Proceeds (.writeReturns succeeds) c c' id ticket := by
  unfold writeReturns? at hreturns
  split at hreturns
  . next line job hphase =>
    split at hreturns
    . cases hreturns
    . next hunwarned =>
      split at hreturns
      . split at hreturns
        . cases hreturns
          cases hid : job.id with
          | some id' =>
            dsimp only
            refine .of_await h hsound hphase hid ?_ ?_
            . unfold await
              split <;> rfl
            . intro earlier hlookup
              simp [await, note, reply, hlookup]
          | none =>
            cases h with
            | pending hmem => exact .inl (.pending hmem)
            | writing line' job' hphase' hid' =>
              rw [hphase] at hphase'
              cases hphase'
              rw [hid] at hid'
              cases hid'
        . cases hreturns
      . next hfails =>
        cases hreturns
        have hfails : succeeds = false := by simpa using hfails
        subst hfails
        exact .inr ⟨_, replied_of_breakOff h hphase .lost,
          .interrupted (.writes line job rfl hphase (by simpa using hunwarned))⟩
  . cases hreturns

theorem InFlight.of_same (h : c.InFlight id ticket) (hphase : c'.phase = c.phase)
    (hpending : c'.pending = c.pending) : c'.InFlight id ticket := by
  cases h with
  | pending hmem => exact .pending (by rwa [hpending])
  | writing line job hwriting hid hticket htransmitted =>
    exact .writing line job (hphase.trans hwriting) hid hticket htransmitted

theorem Proceeds.look (h : Proceeds event c c' id ticket) : Proceeds event c c'.look id ticket := by
  rcases h with hflight | hresolved
  . exact .inl (hflight.of_same rfl rfl)
  . exact .inr hresolved

theorem InFlight.step (h : c.InFlight id ticket) (hsound : Sound c)
    (hstep : c.step? event = some c') : Proceeds event c c' id ticket := by
  have hdriven := h.driven hsound.ledger
  by_cases hlooks : event.Looks
  . cases event with
    | look =>
      cases hstep
      exact .inl (h.of_same rfl rfl)
    | turn =>
      obtain ⟨next, hturn, rfl⟩ := Option.map_eq_some_iff.1 hstep
      exact (Proceeds.of_turn h hsound hturn).look
    | writeReturns succeeds =>
      obtain ⟨next, hreturns, rfl⟩ := Option.map_eq_some_iff.1 hstep
      exact (Proceeds.of_writeReturns? h hsound hreturns).look
    | connects | failsToConnect | wakes =>
      -- There is a line, so the owner does not connect.
      obtain ⟨next, hnext, -⟩ := Option.map_eq_some_iff.1 hstep
      simp only [connects?, failsToConnect?, wakes?] at hnext
      split at hnext
      . next hphase _ =>
        rw [hphase] at hdriven
        exact absurd rfl hdriven
      . cases hnext
    | _ => exact hlooks.elim
  . by_cases hwrites : event = .transmits
    . subst hwrites
      obtain ⟨line, job, hphase, -, hfirst, rfl⟩ := transmits?_cases hstep
      cases h with
      | pending hmem => exact .inl (.pending hmem)
      | writing line' job' hphase' hid hticket htransmitted =>
        rw [hphase] at hphase'
        cases hphase'
        rw [htransmitted] at hfirst
        cases hfirst
    . obtain ⟨hphase, hpending, -, -⟩ := undisturbed_of_step? hlooks hwrites hstep
      exact .inl (h.of_same hphase hpending)

theorem InFlight.run (h : c.InFlight id ticket) (hrun : (start config).run? events = some c)
    (hafter : c.run? after = some c')
    : c'.InFlight id ticket ∨
        ∃ during event later mid reply, after = during ++ event :: later ∧
          c.run? during = some mid ∧ mid.InFlight id ticket ∧ mid.Resolves event id reply ∧
          c'.reply? ticket = some reply := by
  induction after generalizing events c with
  | nil =>
    cases hafter
    exact .inl h
  | cons event after ih =>
    obtain ⟨next, hstep, hrest⟩ := exists_step_of_foldlM hafter
    have hnext : (start config).run? (events ++ [event]) = some next := foldlM_snoc hrun hstep
    rcases h.step (sound_of_run? hrun) hstep with hflight | ⟨reply, hmem, hresolves⟩
    . rcases ih hflight hnext hrest with
        hstays | ⟨during, event', later, mid, reply, rfl, hduring, hmid, hresolves, hreply⟩
      . exact .inl hstays
      . refine .inr ⟨event :: during, event', later, mid, reply, rfl, ?_, hmid, hresolves, hreply⟩
        simpa [run?, hstep] using hduring
    . have hreply : next.reply? ticket = some reply :=
        reply?_of_replied (sound_of_run? hnext).ledger (refusing_of_run? hnext) hmem
      have hlater : Moves (fun _ => True) next c' := run?_moves hrest fun _ _ => trivial
      exact .inr ⟨[], event, after, c, reply, rfl, rfl, h, hresolves,
        reply?_of_suffix hlater.history_suffix hreply⟩

theorem Move.lent_none (h : c.warned ∧ c.lent = none) (hmove : Move A c c')
    : c'.warned ∧ c'.lent = none := by
  refine ⟨hmove.warned h.1, ?_⟩
  cases hmove with
  | lend line other rest htake =>
    have hunwarned := htake.unwarned
    rw [h.1] at hunwarned
    cases hunwarned
  | reclaim => rfl
  | _ => exact h.2

theorem InFlight.reply?_eq (h : c.InFlight id ticket) (hrun : (start config).run? events = some c)
    : c.reply? ticket = none := by
  apply reply?_of_held (sound_of_run? hrun).ledger (refusing_of_run? hrun)
  unfold held
  cases h with
  | pending hmem => exact List.mem_append_right _ (List.mem_map.2 ⟨_, hmem, rfl⟩)
  | writing line job hphase hid hticket =>
    apply List.mem_append_left
    apply List.mem_append_right
    simp [hphase, Phase.job?, hticket]

theorem Loses.replied {next : Client} (h : c.Loses event) (hflight : c.InFlight id ticket)
    (hstep : c.step? event = some next)
    : .replied ticket (.failed .interrupted) ∈ next.history := by
  cases h with
  | hears line hevent hphase hheedless hturn =>
    subst hevent
    obtain ⟨left, hturn', rfl⟩ := Option.map_eq_some_iff.1 hstep
    rw [hturn] at hturn'
    cases hturn'
    cases hflight with
    | pending hmem => exact replied_of_leave hmem line .lost
    | writing line' job hphase' =>
      rw [hphase] at hphase'
      cases hphase'
  | writes line job hevent hphase hunwarned =>
    subst hevent
    have hreturns : c.writeReturns? false
        = some ((c.reply job.ticket (.failed .interrupted)).leave line .lost) := by
      unfold writeReturns?
      rw [hphase]
      simp [hunwarned]
    obtain ⟨left, hreturns', rfl⟩ := Option.map_eq_some_iff.1 hstep
    rw [hreturns] at hreturns'
    cases hreturns'
    exact replied_of_breakOff hflight hphase .lost

theorem InFlight.interrupted_iff (h : c.InFlight id ticket)
    (hrun : (start config).run? events = some c) (hafter : c.run? after = some c')
    : c'.reply? ticket = some (.failed .interrupted) ↔
        ∃ during event later mid, after = during ++ event :: later ∧ c.run? during = some mid ∧
          mid.InFlight id ticket ∧ mid.Loses event := by
  have hrun' : (start config).run? (events ++ after) = some c' := by
    unfold run? at *
    rw [List.foldlM_append, hrun]
    exact hafter
  constructor
  . intro hinterrupted
    rcases h.run hrun hafter with
      hflight | ⟨during, event, later, mid, reply, rfl, hduring, hmid, hresolves, hreply⟩
    . rw [hflight.reply?_eq hrun'] at hinterrupted
      cases hinterrupted
    . rw [hinterrupted] at hreply
      cases hreply
      cases hresolves with
      | interrupted hloses => exact ⟨during, event, later, mid, rfl, hduring, hmid, hloses⟩
  . rintro ⟨during, event, later, mid, rfl, hduring, hmid, hloses⟩
    obtain ⟨next, hstep, hlater⟩ := exists_step_of_foldlM (foldlM_of_append hafter hduring)
    have hmoves : Moves (fun _ => True) next c' := run?_moves hlater fun _ _ => trivial
    have hmem := hmoves.history_suffix.subset (hloses.replied hmid hstep)
    exact reply?_of_replied (sound_of_run? hrun').ledger (refusing_of_run? hrun') hmem

theorem InFlight.not_interrupted (h : c.InFlight id ticket)
    (hrun : (start config).run? events = some c) (hafter : c.run? after = some c')
    (hwarned : c.warned) (hhome : c.lent = none)
    : c'.reply? ticket ≠ some (.failed .interrupted) := by
  intro hinterrupted
  obtain ⟨during, event, later, mid, -, hduring, -, hloses⟩ :=
    (h.interrupted_iff hrun hafter).1 hinterrupted
  have hmid : Moves (fun _ => True) c mid := run?_moves hduring fun _ _ => trivial
  obtain ⟨hwarned', hhome'⟩ := hmid.keep (P := fun c => c.warned ∧ c.lent = none)
    (fun _ _ => Move.lent_none) ⟨hwarned, hhome⟩
  cases hloses with
  | hears line hevent hphase hheedless =>
    rcases hheedless with hlent | hunwarned
    . exact hlent hhome'
    . rw [hwarned'] at hunwarned
      cases hunwarned
  | writes line job hevent hphase hunwarned =>
    rw [hwarned'] at hunwarned
    cases hunwarned

theorem close_eq (c : Client)
    : c.close.shutdown ∧ c.close.phase = c.phase ∧ c.close.pending = c.pending := by
  unfold close shutDown
  split
  . next hshut => exact ⟨hshut, rfl, rfl⟩
  . exact ⟨rfl, rfl, rfl⟩

/--
A call that is in flight when the client is closed waits on, or is resolved: with a response under
its own identifier, with the word that the client is closed, or with an interruption; or it is
dropped because its identifier is given out again, which takes more calls than there are identifiers.
It is interrupted exactly if the owner finds the line lost while its writer is lent, or in the one
thing that it does before it has looked; so never from the first look on that finds the writer at
home. Once the owner has stopped it is resolved, and the owner does stop if borrowers give the
writer back.
-/
theorem calls_in_flight_at_close {past : Client}
    (h : (start config).run? (before ++ .close :: after) = some c)
    (hpast : (start config).run? before = some past) (hflight : past.InFlight id ticket)
    : (c.reply? ticket = none ∧ c.InFlight id ticket ∨
        (∃ response, c.reply? ticket = some (.answered response) ∧
          callOf? response.id = some id) ∨
        c.reply? ticket = some (.failed .closed) ∨
        c.reply? ticket = some (.failed .interrupted) ∨
        c.reply? ticket = some .dropped ∧ 2 ^ 64 < c.numbered.length) ∧
      (c.reply? ticket = some (.failed .interrupted) ↔
        ∃ during event later mid, after = during ++ event :: later ∧
          (start config).run? (before ++ .close :: during) = some mid ∧
          mid.InFlight id ticket ∧ mid.Loses event) ∧
      (∀ during later mid, after = during ++ later →
        (start config).run? (before ++ .close :: during) = some mid → mid.InFlight id ticket →
          mid.warned → mid.lent = none → c.reply? ticket ≠ some (.failed .interrupted)) ∧
      (c.phase = .stopped → (c.reply? ticket).isSome) ∧
      c.Ends := by
  obtain ⟨hshut, hphase, hpending⟩ := close_eq past
  have hflight : past.close.InFlight id ticket := hflight.of_same hphase hpending
  have hclosed : (start config).run? (before ++ [.close]) = some past.close :=
    foldlM_snoc hpast rfl
  have hruns (during : List Event)
      : (start config).run? (before ++ .close :: during) = past.close.run? during := by
    unfold run? at *
    rw [List.foldlM_append, hpast]
    rfl
  have hafter : past.close.run? after = some c := by rw [← hruns, h]
  have hfate := hflight.run hclosed hafter
  refine ⟨?_, ?_, ?_, ?_, ?_⟩
  . rcases hfate with hstays | ⟨during, event, later, mid, reply, rfl, hduring, -, hresolves, hreply⟩
    . exact .inl ⟨hstays.reply?_eq h, hstays⟩
    . cases hresolves with
      | answered response hcall => exact .inr (.inl ⟨response, hreply, hcall⟩)
      | closed => exact .inr (.inr (.inl hreply))
      | interrupted => exact .inr (.inr (.inr (.inl hreply)))
      | dropped hcount =>
        have hmoves : Moves (fun _ => True) mid c :=
          run?_moves (foldlM_of_append hafter hduring) fun _ _ => trivial
        have hle := (hmoves.history_suffix.filterMap Occurrence.numbered?).length_le
        exact .inr (.inr (.inr (.inr ⟨hreply, Nat.lt_of_lt_of_le hcount hle⟩)))
  . simp only [hruns]
    exact hflight.interrupted_iff hclosed hafter
  . rintro during later mid rfl hmid hflies hwarned hhome
    rw [hruns] at hmid
    have hrun : (start config).run? (before ++ .close :: during) = some mid := by rw [hruns, hmid]
    exact hflies.not_interrupted hrun (foldlM_of_append hafter hmid) hwarned hhome
  . intro hstopped
    rcases hfate with hstays | ⟨-, -, -, -, reply, -, -, -, -, hreply⟩
    . have hdriven := hstays.driven (sound_of_run? h).ledger
      rw [hstopped] at hdriven
      exact absurd rfl hdriven
    . rw [hreply]
      rfl
  . have hmoves : Moves (fun _ => True) past.close c := run?_moves hafter fun _ _ => trivial
    exact ends_of_shutdown (sound_of_run? h).custody (hmoves.keep (fun _ _ => Move.shutdown) hshut)

def writtenCall : List Event :=
  [.issue (.call { method := "a" }), .connects, .turn, .transmits, .writeReturns true]

def lossAtClose : List Event :=
  [.arrives 0 (.error (.connectionClosed "")), .reads 0, .turn]

theorem calls_in_flight_at_close_of_loss
    : ∃ past c, (start {}).run? writtenCall = some past ∧ past.InFlight 1 0 ∧
        (start {}).run? (writtenCall ++ .close :: ([.look] ++ (lossAtClose ++ [.turn]))) = some c ∧
        c.reply? 0 ≠ some (.failed .interrupted) ∧ (c.reply? 0).isSome := by
  have hfirst : ((start {}).run? writtenCall).map (·.pending) = some [(1, 0)] := by
    decide +kernel
  have hlooked : ((start {}).run? (writtenCall ++ .close :: [.look])).map
      (fun c => (c.pending, c.warned, c.lent)) = some ([(1, 0)], true, none) := by
    decide +kernel
  have hlast : ((start {}).run? (writtenCall ++ .close :: ([.look] ++ (lossAtClose ++ [.turn])))).map
      (·.phase) = some .stopped := by
    decide +kernel
  obtain ⟨past, hpast, hpending⟩ := Option.map_eq_some_iff.1 hfirst
  obtain ⟨mid, hmid, hfacts⟩ := Option.map_eq_some_iff.1 hlooked
  simp only [Prod.mk.injEq] at hfacts
  obtain ⟨hwaits, hwarned, hhome⟩ := hfacts
  obtain ⟨c, hrun, hstopped⟩ := Option.map_eq_some_iff.1 hlast
  have hflight : past.InFlight 1 0 := .pending (by simp [hpending])
  obtain ⟨-, -, hnever, htold, -⟩ := calls_in_flight_at_close hrun hpast hflight
  exact ⟨past, c, hpast, hflight, hrun,
    hnever _ _ mid rfl hmid (.pending (by simp [hwaits])) hwarned hhome, htold hstopped⟩

def callBesideLoan : List Event :=
  writtenCall ++ [.issue .lend, .turn]

theorem interrupted_after_close
    : ∃ past c, (start {}).run? callBesideLoan = some past ∧ past.InFlight 1 0 ∧
        (start {}).run? (callBesideLoan ++ .close :: lossAtClose) = some c ∧
        c.reply? 0 = some (.failed .interrupted) := by
  have hfirst : ((start {}).run? callBesideLoan).map (·.pending) = some [(1, 0)] := by
    decide +kernel
  have hlast : ((start {}).run? (callBesideLoan ++ .close :: lossAtClose)).map (·.reply? 0)
      = some (some (.failed .interrupted)) := by
    decide +kernel
  obtain ⟨past, hpast, hpending⟩ := Option.map_eq_some_iff.1 hfirst
  obtain ⟨c, hrun, hreply⟩ := Option.map_eq_some_iff.1 hlast
  exact ⟨past, c, hpast, .pending (by simp [hpending]), hrun, hreply⟩

end JsonRpc.Client
