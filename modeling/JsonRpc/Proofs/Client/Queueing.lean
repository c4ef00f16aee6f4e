import JsonRpc.Proofs.Client.Lending
import JsonRpc.Proofs.Client.Telling

/-!
The queue of commands. Commands are handed to the writer in the order in which they came in, and a
lost connection changes nothing for those that are still queued.
-/

namespace JsonRpc.Client

variable {A : Event → Prop} {c c' : Client} {event : Event} {line ticket : Nat}

def entered (c : Client) : List Nat :=
  c.history.reverse.filterMap Occurrence.accepted?

def handed (c : Client) : List Nat :=
  c.history.reverse.filterMap Occurrence.begun?

def InOrder (c : Client) : Prop :=
  (c.handed ++ c.mailbox).Sublist c.entered

section InOrder

attribute [local simp] handed entered Occurrence.accepted? Occurrence.begun? List.filterMap_cons
  Function.comp_def InOrder

theorem InOrder.move (h : InOrder c) (hmove : Move A c c') : InOrder c' := by
  cases hmove with
  | accept command =>
    have := h.append (List.Sublist.refl [c.commands.length])
    simpa using this
  | enter first rest =>
    have := h.append (List.Sublist.refl [first])
    simpa using this
  | stop =>
    have := (List.sublist_append_left c.handed c.mailbox).trans h
    simpa using this
  -- What is taken is handed over next, or it is never handed over.
  | beginCall line ticket rest request htake | beginNotify line ticket rest request htake =>
    simpa [htake.mailbox] using h
  | skip line ticket rest htake | turnAway line ticket rest htake
  | dropCall line ticket rest request htake | lend line ticket rest htake =>
    unfold InOrder at h
    rw [htake.mailbox] at h
    have := ((List.sublist_cons_self ticket rest).append_left c.handed).trans h
    simpa using this
  | read line before after arrival => cases arrival <;> simpa [Except.toOption] using h
  | hangUp => cases hhand : c.hand <;> simpa using h
  | finishCall line job id => cases hlookup : c.pending.lookup id <;> simpa using h
  | queue | abandon | release | closers | look | arrive | backOff | reclaim => exact h
  | _ => simpa using h

end InOrder

theorem inOrder_of_run? {config : ClientConfig} {events : List Event}
    (h : (start config).run? events = some c) : InOrder c := by
  apply keeps_of_run? (fun _ _ => InOrder.move) _ h
  exact List.nil_sublist _

theorem mem_handed : ticket ∈ c.handed ↔ ∃ line id, .begun line ticket id ∈ c.history := by
  unfold handed
  rw [List.filterMap_reverse, List.mem_reverse, List.mem_filterMap]
  constructor
  . rintro ⟨o, hmem, ho⟩
    cases o <;> cases ho
    exact ⟨_, _, hmem⟩
  . rintro ⟨line, id, hmem⟩
    exact ⟨_, hmem, rfl⟩

theorem Sound.handed_nodup (h : Sound c) : c.handed.Nodup := by
  apply List.nodup_iff_count_le_one.2
  intro ticket
  have hle := h.handovers_le ticket
  unfold handed
  rw [List.filterMap_reverse, List.count_reverse]
  exact hle

def Leaving (c : Client) : Prop :=
  ∀ line, c.phase = .finishing line .shutdown → c.shutdown

theorem Leaving.move (h : Leaving c) (hmove : Move A c c') : Leaving c' := by
  intro line hphase
  cases hmove with
  | leave line' exit hphase' hexit =>
    cases hphase
    exact shutdown_of_warned (hexit rfl)
  | shutDown => rfl
  | connect | backOff | attempt | stop | hangUp | beginCall | beginNotify | transmit | finishCall
  | finishNotify | breakOff => cases hphase
  | _ => exact h line hphase

theorem leaving_of_run? {config : ClientConfig} {events : List Event}
    (h : (start config).run? events = some c) : Leaving c := by
  apply keeps_of_run? (fun _ _ => Leaving.move) _ h
  simp [Leaving, start]

inductive Queued (event : Event) (c c' : Client) : Prop where
  | kept (hkept : c.mailbox <+: c'.mailbox)
  | taken (line ticket : Nat) (hevent : event = .turn) (htake : c.Taking line ticket c'.mailbox)
    (hline : c'.phase.driven? = some line)
  | closed (hevent : event = .turn) (hshut : c.shutdown) (hstopped : c'.phase = .stopped)
    (hreplied : ∀ ticket ∈ c.mailbox,
      .replied ticket (refusal c.commands ticket .closed) ∈ c'.history)

theorem Move.mailbox_prefix (hmove : Move A c c') (hturn : ¬ A .turn)
    : c.mailbox <+: c'.mailbox := by
  cases hmove with
  | accept | enter => exact List.prefix_append _ _
  | stop hphase hevent => exact absurd hevent hturn
  | turnAway _ _ _ _ _ hevent | dropCall _ _ _ _ _ _ _ _ hevent
  | beginCall _ _ _ _ _ _ _ _ hevent | beginNotify _ _ _ _ _ _ _ hevent
  | skip _ _ _ _ _ hevent | lend _ _ _ _ _ _ hevent => exact absurd hevent hturn
  | _ => exact List.prefix_refl _

theorem Moves.mailbox_prefix (hmoves : Moves A c c') (hturn : ¬ A .turn)
    : c.mailbox <+: c'.mailbox := by
  exact hmoves.keep (P := fun next => c.mailbox <+: next.mailbox)
    (fun _ _ hstays hmove => hstays.trans (hmove.mailbox_prefix hturn)) (List.prefix_refl _)

theorem replied_of_stop (hmem : ticket ∈ c.mailbox)
    : .replied ticket (refusal c.commands ticket .closed) ∈ c.stop.history := by
  rw [stop_eq]
  simp only [List.mem_append, List.mem_reverse, List.mem_map]
  exact .inr (.inl ⟨ticket, hmem, rfl⟩)

theorem phase_stop (c : Client) : c.stop.phase = .stopped := by
  rw [stop_eq]

theorem replied_of_closeLine (hmem : ticket ∈ c.mailbox)
    : .replied ticket (refusal c.commands ticket .closed) ∈ (c.closeLine .shutdown).history := by
  unfold closeLine
  cases c.hand with
  | none => exact replied_of_stop hmem
  | some line =>
    exact replied_of_stop (c := { c with hand := none }.note (.lineClosed line)) hmem

theorem carryOut_taking {rest : List Nat} (h : Custody c) (htake : c.Taking line ticket rest)
    : ({ c with mailbox := rest }.carryOut line ticket).mailbox = rest ∧
        ({ c with mailbox := rest }.carryOut line ticket).phase.driven? = some line := by
  have hhand := h.hand_of_taking htake
  unfold carryOut
  dsimp only
  rw [hhand]
  dsimp only
  split
  . split
    . exact ⟨rfl, by simp [reply, note, htake.phase, Phase.driven?]⟩
    . exact ⟨rfl, rfl⟩
  . exact ⟨rfl, rfl⟩
  . rw [lend_eq]
    exact ⟨rfl, by simp [htake.phase, Phase.driven?]⟩
  . exact ⟨rfl, by simp [htake.phase, Phase.driven?]⟩

theorem Queued.of_carryOut {rest : List Nat} (h : Custody c) (htake : c.Taking line ticket rest)
    : Queued .turn c ({ c with mailbox := rest }.carryOut line ticket) := by
  obtain ⟨hrest, hdriven⟩ := carryOut_taking h htake
  exact .taken line ticket rfl (by rw [hrest]; exact htake) hdriven

theorem queued_of_turn? (h : Custody c) (hleaving : Leaving c) (hturn : c.turn? = some c')
    : Queued .turn c c' := by
  cases turn?_cases hturn with
  | stops hphase hwarned =>
    exact .closed rfl (shutdown_of_warned hwarned) (phase_stop c) fun _ => replied_of_stop
  | quits line =>
    rw [leave_eq]
    exact .kept (List.prefix_refl _)
  | hears line hphase hinbound =>
    rcases takeInbound?_cases hinbound with ⟨l, message, rest, -, -, rfl⟩ | rfl
    . exact .kept (List.prefix_refl _)
    . rw [leave_eq]
      exact .kept (List.prefix_refl _)
  | takes line ticket rest htake => exact .of_carryOut h htake
  | reclaims hreclaim =>
    obtain ⟨ticket, loan, -, -, rfl⟩ := reclaim?_cases hreclaim
    exact .kept (List.prefix_refl _)
  | breaksOff line job =>
    rw [leave_eq]
    exact .kept (List.prefix_refl _)
  | closes line exit hphase =>
    cases exit with
    | shutdown =>
      exact .closed rfl (hleaving line hphase) (phase_stop _) fun _ => replied_of_closeLine
    | lost =>
      unfold closeLine
      cases c.hand <;> exact .kept (List.prefix_refl _)

theorem Queued.look (h : Queued event c c') : Queued event c c'.look := by
  cases h with
  | kept hkept => exact .kept hkept
  | taken line ticket hevent htake hline => exact .taken line ticket hevent htake hline
  | closed hevent hshut hstopped hreplied => exact .closed hevent hshut hstopped hreplied

theorem queued_of_step? (h : Custody c) (hleaving : Leaving c) (hstep : c.step? event = some c')
    : Queued event c c' := by
  by_cases hevent : event = .turn
  . subst hevent
    obtain ⟨next, hturn, rfl⟩ := Option.map_eq_some_iff.1 hstep
    exact (queued_of_turn? h hleaving hturn).look
  . have hmoves : Moves (· = event) c c' := step?_moves hstep rfl
    exact .kept (hmoves.mailbox_prefix fun hturn => hevent hturn.symm)

theorem Move.driven?_none (h : c.phase.driven? = none) (hmove : Move A c c')
    (hconnects : ¬ A .connects) : c'.phase.driven? = none := by
  cases hmove with
  | connect hevent => exact absurd hevent hconnects
  | backOff | attempt | stop | leave | hangUp => rfl
  | beginCall _ _ _ _ htake | beginNotify _ _ _ _ htake =>
    rw [htake.phase] at h
    cases h
  | transmit _ _ _ hphase | finishCall _ _ _ hphase | finishNotify _ _ hphase
  | breakOff _ _ _ hphase =>
    rw [hphase] at h
    cases h
  | _ => exact h

def Waits (queue : List Nat) (c : Client) : Prop :=
  queue <+: c.mailbox ∨
    c.shutdown ∧ c.phase = .stopped ∧
      ∀ ticket ∈ queue, ∃ commands, c.reply? ticket = some (refusal commands ticket .closed)

section Waits

variable {config : ClientConfig} {before after : List Event} {queue : List Nat}

theorem Waits.step (h : Waits queue c) (hrun : (start config).run? before = some c)
    (hstep : c.step? event = some c') (hoffline : c'.phase.driven? = none) : Waits queue c' := by
  have hrun' : (start config).run? (before ++ [event]) = some c' := foldlM_snoc hrun hstep
  have hmoves : Moves (fun _ => True) c c' := step?_moves hstep trivial
  rcases h with hstays | ⟨hshut, hstopped, hreplied⟩
  . cases queued_of_step? (sound_of_run? hrun).custody (leaving_of_run? hrun) hstep with
    | kept hkept => exact .inl (hstays.trans hkept)
    | taken line ticket _ _ hline =>
      rw [hoffline] at hline
      cases hline
    | closed _ hshut hstopped hreplied =>
      refine .inr ⟨hmoves.keep (fun _ _ => Move.shutdown) hshut, hstopped, ?_⟩
      intro ticket hmem
      exact ⟨c.commands, reply?_of_replied (sound_of_run? hrun').ledger (refusing_of_run? hrun')
        (hreplied ticket (hstays.subset hmem))⟩
  . refine .inr ⟨?_, ?_, ?_⟩
    . exact hmoves.keep (fun _ _ => Move.shutdown) hshut
    . exact hmoves.keep (fun _ _ => Move.stopped) hstopped
    . intro ticket hmem
      obtain ⟨commands, hreply⟩ := hreplied ticket hmem
      exact ⟨commands, reply?_of_suffix hmoves.history_suffix hreply⟩

theorem Waits.run (h : Waits queue c) (hrun : (start config).run? before = some c)
    (hoffline : c.phase.driven? = none) (hconnects : .connects ∉ after)
    (hafter : c.run? after = some c') : Waits queue c' := by
  induction after generalizing before c with
  | nil =>
    cases hafter
    exact h
  | cons event after ih =>
    obtain ⟨next, hstep, hrest⟩ := exists_step_of_foldlM hafter
    simp only [List.mem_cons, not_or] at hconnects
    have hmoves : Moves (· = event) c next := step?_moves hstep rfl
    have hoffline' : next.phase.driven? = none :=
      hmoves.keep (P := fun next => next.phase.driven? = none)
        (fun _ _ h hmove => hmove.driven?_none h hconnects.1) hoffline
    exact ih (h.step hrun hstep hoffline') (foldlM_snoc hrun hstep) hoffline' hconnects.2 hrest

theorem queue_of_loss {past next : Client} {loss : Event}
    (h : (start config).run? (before ++ loss :: after) = some c)
    (hpast : (start config).run? before = some past) (hloss : past.step? loss = some next)
    (hoffline : next.phase.driven? = none) (hconnects : .connects ∉ after)
    : past.mailbox <+: c.mailbox ∧ (∀ ticket ∈ past.mailbox, c.reply? ticket = none) ∨
        c.shutdown ∧ c.phase = .stopped ∧ ∀ ticket ∈ past.mailbox, c.Told ticket .closed := by
  have hafter : next.run? after = some c := by
    obtain ⟨next', hstep, hrest⟩ := exists_step_of_foldlM (foldlM_of_append h hpast)
    rw [hloss] at hstep
    cases hstep
    exact hrest
  have hwaits : Waits past.mailbox next :=
    Waits.step (.inl (List.prefix_refl _)) hpast hloss hoffline
  rcases hwaits.run (foldlM_snoc hpast hloss) hoffline hconnects hafter with
    hstays | ⟨hshut, hstopped, hreplied⟩
  . refine .inl ⟨hstays, ?_⟩
    intro ticket hmem
    apply reply?_of_held (sound_of_run? h).ledger (refusing_of_run? h)
    unfold held
    rw [List.append_assoc]
    exact List.mem_append_left _ (hstays.subset hmem)
  . refine .inr ⟨hshut, hstopped, ?_⟩
    intro ticket hmem
    obtain ⟨commands, hreply⟩ := hreplied ticket hmem
    exact told_of_refusal hshut hreply

end Waits

end JsonRpc.Client
