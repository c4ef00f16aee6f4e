import JsonRpc.Proofs.Client.Borrowing
import JsonRpc.Proofs.Client.Closing
import JsonRpc.Proofs.Client.Resolution

/-!
A lent writer. Its borrower is the only one that writes until the writer is home again, and it
cannot write any more once it has given the writer back. No line is left without its writer.
-/

namespace JsonRpc.Client

variable {A : Event → Prop} {c c' : Client} {event : Event} {line ticket : Nat}

structure Rests (A : Event → Prop) (ticket : Nat) (c c' : Client) : Prop where
  nextId : c'.nextId = c.nextId
  writes : ∃ more, c'.history = more ++ c.history ∧
    ∀ o ∈ more, o.writtenOn? ≠ none →
      ∃ line message, A (.borrowerWrites ticket message) ∧ o = .transmitted line ticket message

theorem Rests.of_note {more : List Occurrence} (hid : c'.nextId = c.nextId)
    (hhistory : c'.history = more ++ c.history) (hquiet : ∀ o ∈ more, o.writtenOn? = none)
    : Rests A ticket c c' := by
  refine ⟨hid, more, hhistory, ?_⟩
  intro o ho hwritten
  exact absurd (hquiet o ho) hwritten

theorem Rests.of_same (hid : c'.nextId = c.nextId) (hhistory : c'.history = c.history)
    : Rests A ticket c c' := by
  refine ⟨hid, [], hhistory, ?_⟩
  simp

theorem Rests.trans {b : Client} (h : Rests A ticket c b) (h' : Rests A ticket b c')
    : Rests A ticket c c' := by
  obtain ⟨more, hhistory, hwrites⟩ := h.writes
  obtain ⟨more', hhistory', hwrites'⟩ := h'.writes
  refine ⟨h'.nextId.trans h.nextId, more' ++ more, ?_, ?_⟩
  . rw [hhistory', hhistory, List.append_assoc]
  . exact List.forall_mem_append.2 ⟨hwrites', hwrites⟩

theorem Move.rests (h : Custody c) (hmove : Move A c c') (hturn : ¬ A .turn)
    (hlent : c.lent = some ticket) : c'.lent = some ticket ∧ Rests A ticket c c' := by
  have haway (hhome : c.lent = none) : False := by
    rw [hlent] at hhome
    cases hhome
  have hidle (hwriting : c.phase.job?.isSome) : False := haway (h.writing hwriting)
  have hquiet (more : List Occurrence) (hmore : ∀ o ∈ more, o.writtenOn? = none)
      (hlent' : c'.lent = c.lent) (hid : c'.nextId = c.nextId)
      (hhistory : c'.history = more ++ c.history)
      : c'.lent = some ticket ∧ Rests A ticket c c' :=
    ⟨hlent'.trans hlent, .of_note hid hhistory hmore⟩
  cases hmove with
  | beginCall _ _ _ _ htake | beginNotify _ _ _ _ htake | lend _ _ _ htake | turnAway _ _ _ htake
  | dropCall _ _ _ _ htake | skip _ _ _ htake => exact (haway htake.lent).elim
  | transmit line job hevent hphase | finishCall line job id hphase
  | finishNotify line job hphase | breakOff line job exit hphase =>
    exact (hidle (by rw [hphase]; rfl)).elim
  | reclaim ticket loan hlent hloan hevent => exact absurd hevent hturn
  | hangUp line exit hphase hlent hevent => exact absurd hevent hturn
  | borrowerWrites ticket' loan message hevent hloan =>
    obtain ⟨hlent', -⟩ := h.lent_of_loan hloan
    have hticket : loan.ticket = ticket' := by simpa using List.find?_some hloan
    rw [hlent] at hlent'
    cases hlent'
    rw [hticket]
    refine ⟨hlent, rfl, [_], rfl, ?_⟩
    simp [hevent]
  | queue | abandon | release | closers | look | arrive | backOff =>
    exact hquiet [] (by simp) rfl rfl rfl
  | accept | refuse | enter | shutDown | connect | attempt =>
    exact hquiet [_] (by simp [Occurrence.writtenOn?]) rfl rfl rfl
  | read line before after arrival =>
    refine hquiet _ ?_ rfl rfl rfl
    cases arrival <;> simp [Except.toOption, Occurrence.writtenOn?]
  | stop =>
    refine hquiet _ ?_ rfl rfl (List.append_assoc _ _ _).symm
    rw [List.forall_mem_append]
    exact ⟨forall_mem_reverse_map fun _ => rfl, forall_mem_reverse_map fun _ => rfl⟩
  | leave => exact hquiet _ (forall_mem_reverse_map fun _ => rfl) rfl rfl rfl
  | dispatch =>
    refine hquiet _ ?_ rfl rfl (List.append_cons _ _ _)
    rw [List.forall_mem_append]
    exact ⟨forall_mem_reverse_map fun _ => rfl, by simp [Occurrence.writtenOn?]⟩

theorem Moves.rests (h : Custody c) (hmoves : Moves A c c') (hturn : ¬ A .turn)
    (hlent : c.lent = some ticket) : Rests A ticket c c' := by
  have hkept : Custody c' ∧ c'.lent = some ticket ∧ Rests A ticket c c' := by
    apply hmoves.keep _ ⟨h, hlent, .of_same rfl rfl⟩
    rintro next next' ⟨hcustody, hnext, hrests⟩ hmove
    obtain ⟨hnext', hrests'⟩ := hmove.rests hcustody hturn hnext
    exact ⟨hcustody.move hmove, hnext', hrests.trans hrests'⟩
  exact hkept.2.2

theorem turn?_cases_of_lent (h : Custody c) (hlent : c.lent = some ticket)
    (hturn : c.turn? = some c')
    : c.reclaim? = some c' ∨ ∃ line, c.phase = .driving line ∧ c.takeInbound? line = some c' := by
  obtain ⟨-, line, hline, -⟩ := h.away hlent
  cases turn?_cases hturn with
  | reclaims hreclaim => exact .inl hreclaim
  | hears line hphase hinbound => exact .inr ⟨line, hphase, hinbound⟩
  | stops hphase =>
    rw [Custody.line?_of_isOffline hphase] at hline
    cases hline
  | breaksOff line job hphase =>
    have := h.writing (by simp [hphase, Phase.job?])
    rw [hlent] at this
    cases this
  | quits _ _ hhome | closes _ _ _ hhome =>
    rw [hlent] at hhome
    cases hhome
  | takes _ _ _ htake =>
    rw [htake.lent] at hlent
    cases hlent

theorem takeInbound?_cases (h : c.takeInbound? line = some c')
    : (∃ l message rest, c.lines[line]? = some l ∧ l.buffer = .ok message :: rest ∧
        c' = { c with
          lines := c.lines.modify line fun l => { l with buffer := rest }
          pending := unanswered c.pending (responsesOf message)
          history := ((answers c.pending (responsesOf message)).map fun a =>
            .replied a.1 (.answered a.2)).reverse ++ .dispatched line message :: c.history }) ∨
      c' = c.leave line .lost := by
  unfold takeInbound? at h
  split at h
  . next inbox message rest reading hline =>
    cases h
    rw [dispatch_eq]
    exact .inl ⟨_, message, rest, hline, rfl, rfl⟩
  . cases h
    exact .inr rfl
  . cases h

theorem rests_of_takeInbound? (h : c.takeInbound? line = some c') : Rests A ticket c c' := by
  rcases takeInbound?_cases h with ⟨l, message, rest, -, -, rfl⟩ | rfl
  . refine .of_note rfl (List.append_cons _ _ _) ?_
    rw [List.forall_mem_append]
    exact ⟨forall_mem_reverse_map fun _ => rfl, by simp [Occurrence.writtenOn?]⟩
  . rw [leave_eq]
    exact .of_note rfl rfl (forall_mem_reverse_map fun _ => rfl)

theorem rests_of_step? (h : Custody c) (hlent : c.lent = some ticket)
    (hstep : c.step? event = some c') : Rests (· = event) ticket c c' := by
  by_cases hevent : event = .turn
  . subst hevent
    obtain ⟨next, hturn, rfl⟩ := Option.map_eq_some_iff.1 hstep
    rcases turn?_cases_of_lent h hlent hturn with hreclaim | ⟨line, -, hinbound⟩
    . obtain ⟨_, loan, -, -, rfl⟩ := reclaim?_cases hreclaim
      exact .of_same rfl rfl
    . exact (rests_of_takeInbound? hinbound).trans (.of_same rfl rfl)
  . exact Moves.rests h (step?_moves hstep rfl) (fun hturn => hevent hturn.symm) hlent

theorem dispatches_of_loan (h : Custody c) (hloan : c.loans ≠ []) (hphase : c.phase = .driving line)
    {l : Line} {message : Bytes} {rest : List (Except TransportError Bytes)}
    (hline : c.lines[line]? = some l) (hbuffer : l.buffer = .ok message :: rest)
    : ∃ c', c.turn? = some c' ∧ c'.loans = c.loans ∧
        c'.history = ((answers c.pending (responsesOf message)).map fun a =>
          .replied a.1 (.answered a.2)).reverse ++ .dispatched line message :: c.history := by
  obtain ⟨inbox, buffer, reading⟩ := l
  subst hbuffer
  have hinbound : c.takeInbound? line = some (({ c with
      lines := c.lines.modify line fun l => { l with buffer := rest } }.note
        (.dispatched line message)).dispatch message) := by
    unfold takeInbound?
    rw [hline]
  cases hlent : c.lent with
  | none => exact absurd (h.home hlent).1 hloan
  | some ticket =>
    obtain ⟨-, _, -, ⟨-, hreturning⟩ | ⟨hloans, -⟩⟩ := h.away hlent
    . have hreclaim : c.reclaim? = none := by simp [reclaim?, hlent, hreturning]
      have hturn : c.turn? = c.takeInbound? line := by
        unfold turn?
        rw [hphase, hlent]
        dsimp only
        rw [hreclaim]
        rfl
      rw [hturn, hinbound, dispatch_eq]
      exact ⟨_, rfl, rfl, rfl⟩
    . exact absurd hloans hloan

theorem line?_of_step? (h : Custody c) (hlent : c.lent = some ticket)
    (hline : c.phase.line? = some line) (hstep : c.step? event = some c')
    : c'.phase.line? = some line := by
  by_cases hevent : event = .turn
  . subst hevent
    obtain ⟨next, hturn, rfl⟩ := Option.map_eq_some_iff.1 hstep
    rcases turn?_cases_of_lent h hlent hturn with hreclaim | ⟨line', hphase, hinbound⟩
    . obtain ⟨_, loan, -, -, rfl⟩ := reclaim?_cases hreclaim
      exact hline
    . rw [hphase] at hline
      rcases takeInbound?_cases hinbound with ⟨l, message, rest, -, -, rfl⟩ | rfl
      . rw [← hline, ← hphase]
        rfl
      . rw [← hline, leave_eq]
        rfl
  . have hmoves : Moves (· = event) c c' := step?_moves hstep rfl
    exact line?_of_moves h hmoves (fun hturn => hevent hturn.symm) hline

theorem closes_of_step? {config : ClientConfig} {events : List Event}
    (h : (start config).run? events = some c) (hline : c.phase.line? = some line)
    (hstep : c.step? event = some c') (hleft : c'.phase.line? ≠ some line)
    : c.hand = some line ∧ c.loans = [] ∧ c.returning = [] ∧ c.closes line = 0 ∧
        c'.closes line = 1 := by
  have hcustody := (sound_of_run? h).custody
  have hclosing : Closing c' := closing_of_run? (foldlM_snoc h hstep)
  have hmoves : Moves (· = event) c c' := step?_moves hstep rfl
  cases hlent : c.lent with
  | some ticket => exact absurd (line?_of_step? hcustody hlent hline hstep) hleft
  | none =>
    obtain ⟨hloans, hreturning, hhand⟩ := hcustody.home hlent
    exact ⟨hhand.trans hline, hloans, hreturning, (closing_of_run? h).closes_of_live hline,
      closes_of_left hcustody hclosing hmoves hline hleft⟩

theorem line?_closeLine (c : Client) (exit : Exit) : (c.closeLine exit).phase.line? = none := by
  unfold closeLine
  cases exit with
  | shutdown =>
    dsimp only
    rw [stop_eq]
    rfl
  | lost => rfl

theorem leaves_of_finishing (h : Custody c) {exit : Exit} (hphase : c.phase = .finishing line exit)
    (hloans : c.loans = [])
    : ∃ turns c', (∀ event ∈ turns, event = .turn) ∧ c.run? turns = some c' ∧
        c'.phase.line? = none := by
  have hclose {c : Client} (hphase : c.phase = .finishing line exit) (hlent : c.lent = none)
      : c.turn? = some (c.closeLine exit) := by
    unfold turn?
    rw [hphase, hlent]
  cases hlent : c.lent with
  | none =>
    refine ⟨[.turn], (c.closeLine exit).look, by simp, ?_, line?_closeLine c exit⟩
    simp [run?, step?, hclose hphase hlent]
  | some ticket =>
    obtain ⟨-, line', -, ⟨hloans', -⟩ | ⟨-, hreturning⟩⟩ := h.away hlent
    . rw [hloans] at hloans'
      cases hloans'
    . obtain ⟨next, hturn, hnext, hhome⟩ : ∃ next, c.turn? = some next ∧
          next.phase = .finishing line exit ∧ next.lent = none := by
        refine ⟨{ c with hand := some line', lent := none, returning := [] }, ?_, hphase, rfl⟩
        unfold turn?
        rw [hphase, hlent]
        simp [reclaim?, hlent, hreturning, hphase]
      have hlast : next.look.turn? = some (next.look.closeLine exit) := hclose hnext hhome
      refine ⟨[.turn, .turn], (next.look.closeLine exit).look, by simp, ?_,
        line?_closeLine next.look exit⟩
      simp [run?, step?, hturn, hlast]

structure WriterKept (config : ClientConfig) (incidents : List Incident) (c : Client) : Prop where
  place : c.hand.toList ++ c.loans.map (·.line) ++ c.returning.map (·.line) = c.phase.line?.toList
  atHand : ∀ line, c.phase = .driving line → c.lent = none → c.hand = some line
  unclaimed : ∀ ticket, c.lent = some ticket → ticket ∈ c.abandoned →
    ∃ line, c.phase.line? = some line ∧ c.returning = [⟨ticket, line⟩]
  givenBack : ∀ before incident after past ticket, incidents = before ++ incident :: after →
    (start config).undergoAll? config.validated before = some past →
      .replied ticket .lent ∈ past.history →
        incident = .other (.release ticket) ∨ incident = .other (.giveUp ticket) →
          ∀ message, c.borrowerWrites? ticket message = none
  rests : ∀ ticket event c', c.lent = some ticket → c.step? event = some c' →
    Rests (· = event) ticket c c'
  hears : ∀ line l message rest, c.loans ≠ [] → c.phase = .driving line →
    c.lines[line]? = some l → l.buffer = .ok message :: rest →
      ∃ c', c.turn? = some c' ∧ c'.loans = c.loans ∧
        c'.history = ((answers c.pending (responsesOf message)).map fun a =>
          .replied a.1 (.answered a.2)).reverse ++ .dispatched line message :: c.history
  closing : Closing c
  closes : ∀ line event c', c.phase.line? = some line → c.step? event = some c' →
    c'.phase.line? ≠ some line →
      c.hand = some line ∧ c.loans = [] ∧ c.returning = [] ∧ c.closes line = 0 ∧ c'.closes line = 1
  leaves : ∀ line exit, c.phase = .finishing line exit → c.loans = [] →
    ∃ turns c', (∀ event ∈ turns, event = .turn) ∧ c.run? turns = some c' ∧ c'.phase.line? = none

/--
The writer of the live line is in one place: in the owner's hand, with a borrower or on its way
back. It is in the owner's hand when a command is taken, so that none is turned away for want of it.
One that was lent to a caller who has given up is on its way back, and a borrower that gives it back
never writes again. As long as it is lent the owner gives out no identifier, writes nothing and
hands out what was read. Each line that was left is closed once, behind all that was written on it
and before another line is connected, in one step and with the writer at home; and an owner that is
done with a line comes to this by itself, if borrowers give the writer back. All this holds unless
the owner broke down, which no owner with safe settings does.
-/
theorem writer_in_custody {config : ClientConfig} {incidents : List Incident}
    (h : (start config).undergoAll? config.validated incidents = some c)
    : (.brokeDown ∉ c.history → WriterKept config incidents c) ∧
      (config.validated.IsSafe → .brokeDown ∉ c.history) := by
  refine ⟨fun hup => ?_, fun hsafe => up_of_isSafe hsafe h⟩
  have hrun := run?_of_undergoAll? h hup
  have hcustody := (sound_of_run? hrun).custody
  constructor
  case place =>
    rw [List.append_assoc, ← List.map_append]
    exact hcustody.writer
  case atHand =>
    intro line hphase hlent
    obtain ⟨-, -, hhand⟩ := hcustody.home hlent
    rw [hhand, hphase]
    rfl
  case unclaimed =>
    intro ticket hlent hgone
    obtain ⟨-, line, hline, ⟨hloans, -⟩ | ⟨-, hreturning⟩⟩ := hcustody.away hlent
    . have hpresent := attended_of_run? hrun ⟨ticket, line⟩ (by simp [hloans])
      exact absurd hgone hpresent
    . exact ⟨line, hline, hreturning⟩
  case givenBack =>
    rintro before incident after past ticket rfl hpast hlent hincident
    have hevent : incident.event config.validated = .release ticket ∨
        incident.event config.validated = .giveUp ticket := by
      rcases hincident with rfl | rfl
      . exact .inl rfl
      . exact .inr rfl
    rw [List.map_append, List.map_cons] at hrun
    exact (returned_of_run? hrun (run?_of_past h hup hpast) hlent hevent).borrowerWrites?_eq
  case rests =>
    intro ticket event c' hlent hstep
    exact rests_of_step? hcustody hlent hstep
  case hears =>
    intro line l message rest hloans hphase hline hbuffer
    exact dispatches_of_loan hcustody hloans hphase hline hbuffer
  case closing => exact closing_of_run? hrun
  case closes =>
    intro line event c' hline hstep hleft
    exact closes_of_step? hrun hline hstep hleft
  case leaves =>
    intro line exit hphase hloans
    exact leaves_of_finishing hcustody hphase hloans

def lentWriter : List Incident :=
  [.other (.issue .lend), .other (.issue .lend), .other (.giveUp 1), .attemptSucceeds, .other .turn,
    .other (.borrowerWrites 0 [120]), .other (.arrives 0 (.ok [121])), .other (.reads 0),
    .other .turn]

def returnedWriter : List Incident :=
  [.other .turn, .other .turn, .other (.arrives 0 (.error (.connectionClosed ""))),
    .other (.reads 0), .other .turn, .other .turn, .other .turn, .attemptSucceeds]

theorem writer_in_custody_of_returnedWriter
    : ∃ c, (start {}).undergoAll? ({} : ClientConfig).validated
          (lentWriter ++ .other (.release 0) :: returnedWriter) = some c ∧
        c.phase = .driving 1 ∧ c.hand = some 1 ∧ c.closes 0 = 1 ∧
        (∀ message, c.borrowerWrites? 0 message = none) ∧
        ∀ later earlier, c.history = later ++ .connected 1 :: earlier → .lineClosed 0 ∈ earlier := by
  have hlend : ((start {}).undergoAll? ({} : ClientConfig).validated lentWriter).map
      (fun c => decide (.replied 0 .lent ∈ c.history)) = some true := by
    decide +kernel
  have hlast : ((start {}).undergoAll? ({} : ClientConfig).validated
      (lentWriter ++ .other (.release 0) :: returnedWriter)).map
        (fun c => (c.phase, c.lent, c.lines.length)) = some (.driving 1, none, 2) := by
    decide +kernel
  obtain ⟨past, hpast, hlent⟩ := Option.map_eq_some_iff.1 hlend
  obtain ⟨c, hrun, hfacts⟩ := Option.map_eq_some_iff.1 hlast
  obtain ⟨hphase, hhome, hlines⟩ : c.phase = .driving 1 ∧ c.lent = none ∧ c.lines.length = 2 := by
    simpa using hfacts
  have hsafe : ({} : ClientConfig).validated.IsSafe := ⟨by decide +kernel, by decide +kernel⟩
  obtain ⟨hkept, hup⟩ := writer_in_custody hrun
  have hkept := hkept (hup hsafe)
  refine ⟨c, hrun, hphase, hkept.atHand 1 hphase hhome, ?_, ?_, ?_⟩
  . rw [hkept.closing.closes, if_pos ⟨by omega, by simp [hphase, Phase.line?]⟩]
  . exact hkept.givenBack lentWriter _ returnedWriter past 0 rfl hpast (of_decide_eq_true hlent)
      (.inl rfl)
  . intro later earlier hsplit
    exact hkept.closing.ordered 1 later earlier hsplit 0 (by omega)

end JsonRpc.Client
