import JsonRpc.Client.Scenario
import JsonRpc.Proofs.Client.Joining
import JsonRpc.Proofs.Client.Looking
import JsonRpc.Proofs.Client.Queueing

/-!
A client that has shut down. Once its owner has looked, in whatever phase that finds it, it takes no
new line and no command any more. What is queued and what is issued later is turned away, and a
write in progress is given up.
-/

namespace JsonRpc.Client

variable {A : Event → Prop} {past c c' : Client} {ticket : Nat} {config : ClientConfig}
  {before after incidents : List Incident}

/--
The owner takes a line, hands a command to its writer, sends something or does what a command asks
for. A borrower that has the writer may still send.
-/
def Occurrence.IsWork (lent : Option Nat) : Occurrence → Prop
  | .connected _ | .begun _ _ _ | .written _ _ | .replied _ .sent | .replied _ .lent => True
  | .transmitted _ ticket _ => lent ≠ some ticket
  | _ => False

structure Idles (past c : Client) : Prop where
  quiet : ∃ more, c.history = more ++ past.history ∧ ∀ o ∈ more, ¬ o.IsWork past.lent
  nextId : c.nextId = past.nextId
  lines : c.lines.length = past.lines.length
  lent : c.lent = past.lent ∨ c.lent = none

theorem Idles.refl (c : Client) : Idles c c :=
  ⟨⟨[], rfl, by simp⟩, rfl, rfl, .inl rfl⟩

theorem Idles.later (h : Idles past c) (more : List Occurrence)
    (hhistory : c'.history = more ++ c.history) (hmore : ∀ o ∈ more, ¬ o.IsWork past.lent)
    (hid : c'.nextId = c.nextId) (hlines : c'.lines.length = c.lines.length)
    (hlent : c'.lent = c.lent ∨ c'.lent = none) : Idles past c' := by
  obtain ⟨earlier, hpast, hearlier⟩ := h.quiet
  refine ⟨⟨more ++ earlier, ?_, ?_⟩, hid.trans h.nextId, hlines.trans h.lines, ?_⟩
  . rw [hhistory, hpast, List.append_assoc]
  . exact List.forall_mem_append.2 ⟨hmore, hearlier⟩
  . rcases hlent with hsame | hhome
    . rw [hsame]
      exact h.lent
    . exact .inr hhome

theorem Idles.same (h : Idles past c) (hhistory : c'.history = c.history)
    (hid : c'.nextId = c.nextId) (hlines : c'.lines.length = c.lines.length)
    (hlent : c'.lent = c.lent ∨ c'.lent = none) : Idles past c' := by
  exact h.later [] (by simpa using hhistory) (by simp) hid hlines hlent

theorem not_isWork_refusal (commands : List Command) (ticket : Nat) (error : ClientError)
    (lent : Option Nat) : ¬ (Occurrence.replied ticket (refusal commands ticket error)).IsWork lent := by
  unfold refusal
  split <;> exact id

theorem Taking.not_warned {line : Nat} {rest : List Nat} (htake : c.Taking line ticket rest)
    : ¬ c.warned := by
  rw [htake.unwarned]
  exact Bool.false_ne_true

theorem Idles.move (h : Idles past c) (hcustody : Custody c) (hwarned : c.warned)
    (hmove : Move A c c') : Idles past c' := by
  cases hmove with
  | queue | abandon | release | closers | look => exact h.same rfl rfl rfl (.inl rfl)
  | arrive => exact h.same rfl rfl (by simp) (.inl rfl)
  | reclaim => exact h.same rfl rfl rfl (.inr rfl)
  | accept | refuse | enter | attempt =>
    exact h.later [_] rfl (by simp [Occurrence.IsWork]) rfl rfl (.inl rfl)
  | borrowerWrites other loan message hevent hloan =>
    refine h.later [_] rfl ?_ rfl rfl (.inl rfl)
    -- Who has the writer now had it then, since nobody has borrowed it in between.
    obtain ⟨hlent, hloans, -⟩ := hcustody.lent_of_loan hloan
    have hticket : loan.ticket = other := by simpa using List.find?_some hloan
    rcases h.lent with hsame | hhome
    . simp [Occurrence.IsWork, ← hsame, hlent, hticket]
    . rw [hlent] at hhome
      cases hhome
  | read line before after arrival =>
    refine h.later _ rfl ?_ rfl (by simp) (.inl rfl)
    cases arrival <;> simp [Except.toOption, Occurrence.IsWork]
  | stop =>
    refine h.later _ (List.append_assoc _ _ _).symm ?_ rfl rfl (.inl rfl)
    rw [List.forall_mem_append]
    exact ⟨forall_mem_reverse_map fun _ => id,
      forall_mem_reverse_map fun t => not_isWork_refusal c.commands t .closed past.lent⟩
  | leave =>
    exact h.later _ rfl (forall_mem_reverse_map fun _ => id) rfl (by simp) (.inl rfl)
  | dispatch =>
    refine h.later _ (List.append_cons _ _ _) ?_ rfl (by simp) (.inl rfl)
    rw [List.forall_mem_append]
    exact ⟨forall_mem_reverse_map fun _ => id, by simp [Occurrence.IsWork]⟩
  | hangUp =>
    refine h.later _ rfl ?_ rfl rfl (.inl rfl)
    cases c.hand <;> simp [Occurrence.IsWork]
  | breakOff => exact h.later [_] rfl (by simp [Occurrence.IsWork]) rfl rfl (.inl rfl)
  | turnAway _ _ _ htake | dropCall _ _ _ _ htake | beginCall _ _ _ _ htake
  | beginNotify _ _ _ _ htake | skip _ _ _ htake | lend _ _ _ htake =>
    exact absurd hwarned htake.not_warned
  | shutDown hrunning =>
    have hshut := shutdown_of_warned hwarned
    rw [hrunning] at hshut
    cases hshut
  | connect _ _ hunwarned | backOff _ _ hunwarned | transmit _ _ _ _ hunwarned
  | finishCall _ _ _ _ hunwarned | finishNotify _ _ _ hunwarned =>
    rw [hunwarned] at hwarned
    cases hwarned

inductive Doomed (c : Client) (ticket : Nat) : Prop where
  | unissued (hissued : c.commands.length ≤ ticket)
  | queued (hmem : ticket ∈ c.mailbox)
  | waiting (hmem : ticket ∈ c.waiting)
  | forsaken (hgone : ticket ∈ c.abandoned) (hbarred : c.Barred ticket)
  | rejected (commands : List Command)
    (hreplied : .replied ticket (refusal commands ticket .closed) ∈ c.history)
  | refused (hrefused : .refused ticket ∈ c.history)

namespace Doomed

theorem move_unissued (hissued : c.commands.length ≤ ticket) (hmove : Move A c c')
    : Doomed c' ticket := by
  have hnew {command : Command} (hne : c.commands.length ≠ ticket)
      : (c.commands ++ [command]).length ≤ ticket := by
    rw [List.length_append, List.length_singleton]
    omega
  cases hmove with
  | accept command =>
    by_cases heq : c.commands.length = ticket
    . exact .queued (by simp [heq])
    . exact .unissued (hnew heq)
  | queue command =>
    by_cases heq : c.commands.length = ticket
    . exact .waiting (by simp [heq])
    . exact .unissued (hnew heq)
  | refuse command =>
    by_cases heq : c.commands.length = ticket
    . exact .refused (by simp [heq])
    . exact .unissued (hnew heq)
  | _ => exact .unissued hissued

theorem move_queued (hmem : ticket ∈ c.mailbox) (hwarned : c.warned) (hmove : Move A c c')
    : Doomed c' ticket := by
  cases hmove with
  | accept | enter => exact .queued (List.mem_append_left _ hmem)
  | stop =>
    refine .rejected c.commands ?_
    simp only [List.mem_append, List.mem_reverse, List.mem_map]
    exact .inr (.inl ⟨ticket, hmem, rfl⟩)
  | turnAway _ _ _ htake | dropCall _ _ _ _ htake | beginCall _ _ _ _ htake
  | beginNotify _ _ _ _ htake | skip _ _ _ htake | lend _ _ _ htake =>
    exact absurd hwarned htake.not_warned
  | _ => exact .queued hmem

theorem move_waiting (hmem : ticket ∈ c.waiting) (hledger : Ledger c) (hmove : Move A c c')
    : Doomed c' ticket := by
  cases hmove with
  | queue => exact .waiting (List.mem_append_left _ hmem)
  | enter first rest hfirst =>
    rw [hfirst] at hmem
    rcases List.mem_cons.1 hmem with rfl | hrest
    . exact .queued (by simp)
    . exact .waiting hrest
  | abandon other =>
    by_cases heq : ticket = other
    . subst heq
      refine .forsaken ?_ ?_
      . dsimp only
        split
        . assumption
        . exact List.mem_cons_self
      . obtain ⟨hissued, haccepted⟩ := hledger.outside_of_waiting hmem
        exact ⟨hissued, haccepted, by simp⟩
    . exact .waiting (List.mem_filter.2 ⟨hmem, by simpa using heq⟩)
  | stop => exact .refused (List.mem_append_left _ (by simpa using hmem))
  | _ => exact .waiting hmem

theorem move (h : Doomed c ticket) (hledger : Ledger c) (hwarned : c.warned)
    (hmove : Move A c c') : Doomed c' ticket := by
  have hsuffix := hmove.grows.2
  cases h with
  | unissued hissued => exact move_unissued hissued hmove
  | queued hmem => exact move_queued hmem hwarned hmove
  | waiting hmem => exact move_waiting hmem hledger hmove
  | forsaken hgone hbarred => exact .forsaken (hmove.abandoned hgone) (hbarred.move hmove)
  | rejected commands hreplied => exact .rejected commands (hsuffix.subset hreplied)
  | refused hrefused => exact .refused (hsuffix.subset hrefused)

end Doomed

theorem Barred.told_or_untold (h : c.Barred ticket) (hledger : Ledger c)
    : c.Told ticket .closed ∨ c.reply? ticket = none := by
  cases hreply : c.reply? ticket with
  | none => exact .inr rfl
  | some reply =>
    refine .inl ?_
    rcases mem_of_reply? hreply with hreplied | ⟨-, rfl⟩
    . have hbalance := hledger.balance ticket
      have hpos := settlements_pos hreplied
      have haccepted := h.accepted
      omega
    . exact told_of_failed hreply

theorem Ledger.reply?_of_waiting (h : Ledger c) (hrefusing : Refusing c)
    (hmem : ticket ∈ c.waiting) : c.reply? ticket = none := by
  cases hreply : c.reply? ticket with
  | none => rfl
  | some reply =>
    rcases mem_of_reply? hreply with hreplied | ⟨hrefused, -⟩
    . have haccepted := (h.outside_of_waiting hmem).2
      have hbalance := h.balance ticket
      have hpos := settlements_pos hreplied
      omega
    . exact absurd hmem (hrefusing ticket hrefused).waiting

def Unheard (c : Client) (ticket : Nat) : Prop :=
  c.reply? ticket = none ∧
    (c.phase ≠ .stopped ∧ (ticket ∈ c.mailbox ∨ ticket ∈ c.waiting) ∨
      ticket ∈ c.abandoned ∧ c.acceptances ticket = 0)

theorem Doomed.told (h : Doomed c ticket) (hledger : Ledger c) (hrefusing : Refusing c)
    (hshut : c.shutdown) (hissued : ticket < c.commands.length)
    : c.Told ticket .closed ∨ c.Unheard ticket := by
  cases h with
  | unissued hnot => omega
  | queued hmem =>
    refine .inr ⟨reply?_of_held hledger hrefusing ?_, .inl ⟨?_, .inl hmem⟩⟩
    . unfold held
      rw [List.append_assoc]
      exact List.mem_append_left _ hmem
    . intro hstopped
      rw [(hledger.stopped hstopped).1] at hmem
      cases hmem
  | waiting hmem =>
    refine .inr ⟨hledger.reply?_of_waiting hrefusing hmem, .inl ⟨?_, .inr hmem⟩⟩
    intro hstopped
    rw [(hledger.stopped hstopped).2] at hmem
    cases hmem
  | forsaken hgone hbarred =>
    rcases hbarred.told_or_untold hledger with htold | huntold
    . exact .inl htold
    . exact .inr ⟨huntold, .inr ⟨hgone, hbarred.accepted⟩⟩
  | rejected commands hreplied =>
    exact .inl (told_of_refusal hshut (reply?_of_replied hledger hrefusing hreplied))
  | refused hrefused =>
    have hsome := reply?_isSome_of_refused hrefused
    rcases (hrefusing ticket hrefused).told_or_untold hledger with htold | huntold
    . exact .inl htold
    . rw [huntold] at hsome
      cases hsome

def GivenUp (line : Nat) (job : Job) (c : Client) : Prop :=
  c.phase = .writing line job ∨ .replied job.ticket (.failed .closed) ∈ c.history

theorem GivenUp.move {line : Nat} {job : Job} (h : GivenUp line job c) (hwarned : c.warned)
    (hmove : Move A c c') : GivenUp line job c' := by
  rcases h with hphase | hreplied
  . cases hmove with
    | breakOff line' job' exit hphase' hexit =>
      rw [hphase] at hphase'
      cases hphase'
      cases hexit.2 hwarned
      exact .inr List.mem_cons_self
    | connect _ hphase' | leave _ _ hphase' | hangUp _ _ hphase' =>
      rw [hphase] at hphase'
      cases hphase'
    | attempt hphase' | stop hphase' =>
      rw [hphase] at hphase'
      exact hphase'.elim
    | beginCall _ _ _ _ htake | beginNotify _ _ _ _ htake => exact absurd hwarned htake.not_warned
    | backOff _ _ hunwarned | transmit _ _ _ _ hunwarned | finishCall _ _ _ _ hunwarned
    | finishNotify _ _ _ hunwarned =>
      rw [hunwarned] at hwarned
      cases hwarned
    | _ => exact .inl hphase
  . exact .inr (hmove.grows.2.subset hreplied)

structure Winding (past c : Client) : Prop where
  sound : Sound c
  warned : c.warned
  idles : Idles past c
  doomed : ∀ ticket, ticket ∈ past.mailbox ∨ ticket ∈ past.waiting ∨
    past.commands.length ≤ ticket → Doomed c ticket
  givenUp : ∀ line job, past.phase = .writing line job → GivenUp line job c

theorem Winding.start (hsound : Sound past) (hwarned : past.warned) : Winding past past := by
  refine ⟨hsound, hwarned, .refl past, ?_, fun _ _ => .inl⟩
  rintro ticket (hmem | hmem | hissued)
  . exact .queued hmem
  . exact .waiting hmem
  . exact .unissued hissued

theorem Winding.move (h : Winding past c) (hmove : Move A c c') : Winding past c' where
  sound := h.sound.move hmove
  warned := hmove.warned h.warned
  idles := h.idles.move h.sound.custody h.warned hmove
  doomed ticket hticket := (h.doomed ticket hticket).move h.sound.ledger h.warned hmove
  givenUp line job hphase := (h.givenUp line job hphase).move h.warned hmove

structure WindsUp (past c : Client) : Prop where
  idles : Idles past c
  queued : ∀ ticket, ticket ∈ past.mailbox ∨ ticket ∈ past.waiting ∨
    past.commands.length ≤ ticket → ticket < c.commands.length →
      c.Told ticket .closed ∨ c.Unheard ticket
  writing : ∀ line job, past.phase = .writing line job →
    past.lent = none ∧
      (c.Told job.ticket .closed ∨ c.phase = .writing line job ∧ c.reply? job.ticket = none)

theorem Winding.windsUp (h : Winding past c) (hcustody : Custody past) (hrefusing : Refusing c)
    : WindsUp past c where
  idles := h.idles
  queued ticket hticket hissued :=
    (h.doomed ticket hticket).told h.sound.ledger hrefusing (shutdown_of_warned h.warned) hissued
  writing line job hphase := by
    refine ⟨hcustody.writing (by rw [hphase]; rfl), ?_⟩
    rcases h.givenUp line job hphase with hstill | hreplied
    . refine .inr ⟨hstill, reply?_of_held h.sound.ledger hrefusing ?_⟩
      simp [held, hstill, Phase.job?]
    . exact .inl (told_of_failed (reply?_of_replied h.sound.ledger hrefusing hreplied))

theorem warned_of_undergoAll? (hshut : past.shutdown)
    (h : past.undergoAll? config after = some c)
    : c.warned ∨ ∀ incident ∈ after, ¬ (incident.event config).Looks := by
  have hboth : c.shutdown ∧
      (c.warned ∨ ∀ incident ∈ [] ++ after, ¬ (incident.event config).Looks) := by
    apply holds_of_foldlM (P := fun incidents c =>
      c.shutdown ∧ (c.warned ∨ ∀ incident ∈ incidents, ¬ (incident.event config).Looks)) _ _ h
    . rintro incidents c incident c' ⟨hshut, hlooked⟩ hundergo
      refine ⟨shutdown_of_undergo? hshut hundergo, ?_⟩
      rcases hlooked with hwarned | hnever
      -- What the owner knows it goes on knowing; else it learns of the shutdown in this step or not.
      . exact .inl ((moves_of_warned hwarned hundergo).keep (fun _ _ => Move.warned) hwarned)
      . by_cases hlooks : (incident.event config).Looks
        . exact .inl (warned_of_undergo? hshut hlooks hundergo)
        . exact .inr (List.forall_mem_append.2 ⟨hnever, by simpa using hlooks⟩)
    . exact ⟨hshut, .inr (by simp)⟩
  exact hboth.2

theorem Winding.undergoAll (h : Winding past past) (hundergo : past.undergoAll? config after = some c)
    : Winding past c := by
  exact keeps_of_foldlM (P := Winding past)
    (fun _ _ _ hwinding hstep =>
      (moves_of_warned hwinding.warned hstep).keep (fun _ _ => Winding.move) hwinding) h hundergo

theorem Refusing.breakDown (h : Refusing c) (hledger : Ledger c) : Refusing c.breakDown := by
  intro ticket hmem
  have hbefore : .refused ticket ∈ c.history ∨ ticket ∈ c.waiting := by
    rw [breakDown_eq] at hmem
    simp only [List.mem_append, List.mem_reverse, List.mem_map, List.mem_cons] at hmem
    rcases hmem with ⟨t, hwaits, heq⟩ | ⟨t, -, heq⟩ | heq | hold
    . cases heq
      exact .inr hwaits
    . cases heq
    . cases heq
    . exact .inl hold
  obtain ⟨hissued, haccepted⟩ : ticket < c.commands.length ∧ c.acceptances ticket = 0 := by
    rcases hbefore with hold | hwaits
    . exact ⟨(h ticket hold).issued, (h ticket hold).accepted⟩
    . exact hledger.outside_of_waiting hwaits
  rw [breakDown_eq]
  refine ⟨hissued, ?_, List.not_mem_nil⟩
  simpa [acceptances, Occurrence.accepted?, List.filterMap_cons, Function.comp_def] using haccepted

theorem refusing_of_undergoAll?
    (h : (start config).undergoAll? config.validated incidents = some c) : Refusing c := by
  exact (holds_of_undergoAll? (P := Refusing)
    (fun _ _ hsound hrefusing hmove => hrefusing.move hsound.ledger hmove)
    (fun _ hsound hrefusing _ => hrefusing.breakDown hsound.ledger)
    (by simp [Refusing, start]) h).2

theorem issue?_of_shutdown (hshut : c.shutdown) (command : Command) : c.issue? command = none := by
  unfold issue?
  rw [if_pos hshut]

theorem launch_of_shutdown (s : Scenario) (hshut : s.client.shutdown) (tag : String)
    (command : Command) (goal : Nat → Await) (timeout : Option Nat) (cancellable : Bool)
    : (s.launch tag (.ok command) goal timeout cancellable).completed
        = s.completed ++ [(tag, .error .closed)] ∧
      (s.launch tag (.ok command) goal timeout cancellable).client = s.client := by
  unfold Scenario.launch
  dsimp only
  rw [issue?_of_shutdown hshut]
  exact ⟨rfl, rfl⟩

/--
The owner knows of a shutdown from its next look on, which is behind the next thing that it does at
the latest, and at once if its writer is lent or a line is being left. From then on, in whatever
phase that finds it, it takes no line, gives out no identifier, begins no write and sends nothing;
only a borrower that has the writer at that moment still sends, so on a line that is being written
nothing is sent at all. The caller of a command that is queued then, waits for room or comes in later
is told that the client is closed, once the owner has stopped at the latest, unless it gave up before
the command came in. A write in progress stands still until the owner gives it up, and its caller is
told the same. Whoever issues a command behind the shutdown is told so at once, and the owner does
stop if borrowers give the writer back.
-/
theorem winds_up_of_shutdown
    (h : (start config).undergoAll? config.validated (before ++ after) = some c)
    (hpast : (start config).undergoAll? config.validated before = some past)
    (hshut : past.shutdown)
    : (c.warned ∨ ∀ incident ∈ after, ¬ (incident.event config.validated).Looks) ∧
      (past.watches = false → past.warned) ∧
      (past.warned → WindsUp past c) ∧
      (∀ s : Scenario, s.client = c → ∀ tag command goal timeout cancellable,
        c.issue? command = none ∧
          (s.launch tag (.ok command) goal timeout cancellable).completed
            = s.completed ++ [(tag, .error .closed)]) ∧
      c.Ends := by
  have hlater : past.undergoAll? config.validated after = some c := foldlM_of_append h hpast
  have hshut' : c.shutdown :=
    keeps_of_foldlM (P := fun c => c.shutdown = true) (fun _ _ _ => shutdown_of_undergo?) hshut hlater
  have hsound : Sound past := sound_of_undergoAll? hpast
  refine ⟨warned_of_undergoAll? hshut hlater, ?_, ?_, ?_,
    ends_of_shutdown (sound_of_undergoAll? h).custody hshut'⟩
  . exact fun hwatches => (watchful_of_undergoAll? hpast).warned hwatches hshut
  . intro hwarned
    have hwinding : Winding past c := (Winding.start hsound hwarned).undergoAll hlater
    exact hwinding.windsUp hsound.custody (refusing_of_undergoAll? h)
  . rintro s rfl tag command goal timeout cancellable
    exact ⟨issue?_of_shutdown hshut' command,
      (launch_of_shutdown s hshut' tag command goal timeout cancellable).1⟩

def closedWhileWriting : List Incident :=
  [.other (.issue (.call { method := "a" })), .other (.issue (.call { method := "b" })),
    .other (.issue (.notify { method := "n", notification := true })), .other (.issue .lend),
    .attemptSucceeds, .other .turn, .other .close, .other .look]

def lateCommand : List Incident :=
  [.other (.enqueue (.call { method := "c" })), .other .turn, .other .turn]

theorem winds_up_of_shutdown_while_writing
    : ∃ past c, (start {}).undergoAll? ({} : ClientConfig).validated closedWhileWriting
          = some past ∧
        (start {}).undergoAll? ({} : ClientConfig).validated (closedWhileWriting ++ lateCommand)
          = some c ∧
        Idles past c ∧ (∀ ticket < 5, c.Told ticket .closed) ∧
        ∀ command, c.issue? command = none := by
  have hfirst : ((start {}).undergoAll? ({} : ClientConfig).validated closedWhileWriting).map
      (fun c => (c.phase, c.mailbox, c.shutdown, c.warned, c.commands.length))
        = some (.writing 0 ⟨0, some 1, ({ method := "a" } : Request).numbered 1, false⟩, [1, 2, 3],
          true, true, 4) := by
    decide +kernel
  have hlast : ((start {}).undergoAll? ({} : ClientConfig).validated
      (closedWhileWriting ++ lateCommand)).map (fun c => (c.phase, c.abandoned, c.commands.length))
        = some (.stopped, [], 5) := by
    decide +kernel
  obtain ⟨past, hpast, hfacts⟩ := Option.map_eq_some_iff.1 hfirst
  simp only [Prod.mk.injEq] at hfacts
  obtain ⟨hphase, hmailbox, hshut, hwarned, hcommands⟩ := hfacts
  obtain ⟨c, hrun, hfacts⟩ := Option.map_eq_some_iff.1 hlast
  simp only [Prod.mk.injEq] at hfacts
  obtain ⟨hstopped, habandoned, hissued⟩ := hfacts
  obtain ⟨-, -, hwindsUp, hlater, -⟩ := winds_up_of_shutdown hrun hpast hshut
  obtain ⟨hidles, hqueued, hwriting⟩ := hwindsUp hwarned
  refine ⟨past, c, hpast, hrun, hidles, ?_, fun command =>
    (hlater { config := {}, client := c } rfl "" command .response none false).1⟩
  intro ticket hticket
  by_cases hfirst : ticket = 0
  . obtain ⟨-, htold | ⟨hstill, -⟩⟩ := hwriting 0 _ hphase
    . rw [hfirst]
      exact htold
    . rw [hstopped] at hstill
      cases hstill
  . have hdoomed : ticket ∈ past.mailbox ∨ ticket ∈ past.waiting ∨ past.commands.length ≤ ticket := by
      rw [hmailbox, hcommands]
      simp only [List.mem_cons, List.not_mem_nil, or_false]
      omega
    rcases hqueued ticket hdoomed (by omega) with htold | ⟨-, ⟨hgoing, -⟩ | ⟨hgone, -⟩⟩
    . exact htold
    . exact absurd hstopped hgoing
    . rw [habandoned] at hgone
      cases hgone

def closedBehindLoan : List Incident :=
  [.other (.issue .lend), .attemptSucceeds, .other .turn, .other (.issue (.call { method := "a" })),
    .other .close]

/--
Between a shutdown and the look that finds it an attempt to connect may succeed, and the owner may
take a command and give out an identifier. And a call that is queued at a shutdown ends with its
deadline if that comes first.
-/
theorem works_behind_shutdown
    : (∃ past c, (start {}).undergoAll? ({} : ClientConfig).validated [.other .shutDown] = some past ∧
        past.shutdown ∧ past.hand = none ∧
        past.undergoAll? ({} : ClientConfig).validated [.attemptSucceeds] = some c ∧
        c.hand = some 0) ∧
      (∃ past c, (start {}).undergoAll? ({} : ClientConfig).validated
          [.other (.issue (.call { method := "a" })), .attemptSucceeds, .other .close] = some past ∧
        past.shutdown ∧ past.mailbox = [0] ∧
        past.undergoAll? ({} : ClientConfig).validated [.other .turn] = some c ∧
        c.nextId = past.nextId + 1 ∧
        c.history = .begun 0 0 (some past.nextId) :: past.history) ∧
      ∃ past, (start {}).undergoAll? ({} : ClientConfig).validated closedBehindLoan = some past ∧
        past.shutdown ∧ past.mailbox = [1] ∧
        ({ tag := "c", deadline := some 50, progress := .running (.response 1) } : Task).poll? 100
            past
          = some (past.giveUp 1,
              { tag := "c", deadline := some 50, progress := .finished (.error .deadlineExceeded) }) := by
  exact ⟨⟨_, _, rfl, rfl, rfl, rfl, rfl⟩, ⟨_, _, rfl, rfl, rfl, rfl, rfl, rfl⟩, _, rfl, rfl, rfl, rfl⟩

end JsonRpc.Client
