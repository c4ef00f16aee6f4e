import JsonRpc.Proofs.Client.Outbound
import JsonRpc.Proofs.Client.Queueing
import JsonRpc.Proofs.Client.WireId

/-!
What is sent, and what its callers are told. Calls are sent under consecutive numbers and those
abandoned in time not at all; the caller of a notification, or of a write that fails, learns so.
-/

namespace JsonRpc.Client

variable {A : Event → Prop} {c c' : Client} {line ticket : Nat}

def Issued (c : Client) : Prop :=
  ∀ line ticket id, .begun line ticket id ∈ c.history →
    ∃ request, requestOf? c.commands ticket id = some request

theorem begun_of_move (hmove : Move A c c') {id : Option Int64}
    (h : .begun line ticket id ∈ c'.history)
    : .begun line ticket id ∈ c.history ∨
        ∃ rest request, c.Taking line ticket rest ∧
          requestOf? c.commands ticket id = some request ∧ (ticket ∈ c.abandoned → id = none) := by
  cases hmove with
  | beginCall line' ticket' rest request htake hhand hcommand hpresent =>
    rcases List.mem_cons.1 h with heq | hold
    . cases heq
      refine .inr ⟨rest, request.numbered c.nextId, htake, by simp [requestOf?, hcommand], ?_⟩
      exact fun hgone => absurd hgone hpresent
    . exact .inl hold
  | beginNotify line' ticket' rest request htake hhand hcommand =>
    rcases List.mem_cons.1 h with heq | hold
    . cases heq
      exact .inr ⟨rest, request, htake, by simp [requestOf?, hcommand], fun _ => rfl⟩
    . exact .inl hold
  | queue | abandon | release | closers | look | arrive | backOff | reclaim | skip => exact .inl h
  | read line' before after arrival =>
    cases arrival <;> exact .inl (by simpa [Except.toOption] using h)
  | hangUp => cases hhand : c.hand <;> exact .inl (by simpa [hhand] using h)
  | finishCall line' job id =>
    cases hlookup : c.pending.lookup id <;> exact .inl (by simpa [hlookup] using h)
  | _ => exact .inl (by simpa using h)

theorem Issued.move (h : Issued c) (hmove : Move A c c') : Issued c' := by
  intro line ticket id hmem
  obtain ⟨⟨more, hmore⟩, -⟩ := hmove.grows
  obtain ⟨request, hrequest⟩ : ∃ request, requestOf? c.commands ticket id = some request := by
    rcases begun_of_move hmove hmem with hold | ⟨-, request, -, hrequest, -⟩
    . exact h line ticket id hold
    . exact ⟨request, hrequest⟩
  rw [hmore]
  exact ⟨request, requestOf?_append hrequest more⟩

theorem issued_of_run? {config : ClientConfig} {events : List Event}
    (h : (start config).run? events = some c) : Issued c := by
  apply keeps_of_run? (fun _ _ => Issued.move) _ h
  simp [Issued, start]

theorem outbound_of_run? {config : ClientConfig} {events : List Event}
    (h : (start config).run? events = some c) : Outbound (· ∈ events) c := by
  apply holds_of_run? (fun _ _ hsound hc => Outbound.move hc hsound) _ h
  simp [Outbound, start]

theorem Outbound.of_event {config : ClientConfig} {incidents : List Incident}
    (h : Outbound (· ∈ incidents.map (·.event config)) c)
    : Outbound (fun event => .other event ∈ incidents) c := by
  intro line ticket message hmem
  cases h line ticket message hmem with
  | written id request hrequest hbegun hmessage =>
    exact .written id request hrequest hbegun hmessage
  | borrowed hlend hevent =>
    obtain ⟨incident, hincident, heq⟩ := List.mem_map.1 hevent
    cases Incident.eq_other heq rfl
    exact .borrowed hlend hincident

theorem id_of_requestOf? {commands : List Command} {id : Int64} {request : Request}
    (h : requestOf? commands ticket (some id) = some request)
    : request.id = .text (WireId.format id) := by
  unfold requestOf? at h
  split at h
  . next heq =>
    cases heq
    cases h
    rfl
  . next heq => cases heq
  . cases h

def Occurrence.call? (commands : List Command) : Occurrence → Option Request
  | .begun _ ticket (some id) => requestOf? commands ticket (some id)
  | _ => none

def calls (c : Client) : List Request :=
  c.history.reverse.filterMap (Occurrence.call? c.commands)

theorem ids_of_issued {commands : List Command} {history : List Occurrence}
    (h : ∀ line ticket id, .begun line ticket id ∈ history →
      ∃ request, requestOf? commands ticket id = some request)
    : (history.filterMap (Occurrence.call? commands)).map (·.id)
        =
      (history.filterMap Occurrence.numbered?).map fun e => .text (WireId.format e.2.2) := by
  induction history with
  | nil => rfl
  | cons o history ih =>
    have hrest := ih fun line ticket id hmem => h line ticket id (List.mem_cons_of_mem _ hmem)
    cases o with
    | begun line ticket id =>
      cases id with
      | none => exact hrest
      | some id =>
        obtain ⟨request, hrequest⟩ := h line ticket (some id) List.mem_cons_self
        simp only [List.filterMap_cons, Occurrence.call?, hrequest, Occurrence.numbered?,
          List.map_cons, id_of_requestOf? hrequest, hrest]
    | _ => exact hrest

theorem Issued.length_calls (h : Issued c) : c.calls.length = c.numbered.length := by
  have := congrArg List.length (ids_of_issued h)
  simpa [calls, numbered, List.filterMap_reverse] using this

def numbers (count : Nat) : List Int64 :=
  (identifiers count).reverse

theorem length_numbers (count : Nat) : (numbers count).length = count := by
  unfold numbers
  rw [List.length_reverse]
  induction count with
  | zero => rfl
  | succ count ih => rw [identifiers, List.length_cons, ih]

theorem Numbering.ids_calls (h : Numbering c) (hissued : Issued c)
    : c.calls.map (·.id) = (numbers c.calls.length).map fun id => .text (WireId.format id) := by
  unfold numbers
  rw [hissued.length_calls, ← h.identifiers, calls, List.filterMap_reverse, List.map_reverse,
    ids_of_issued hissued]
  simp [numbered, Function.comp_def]

theorem pairwise_numbers {count : Nat} (hcount : count < 2 ^ 63)
    : (numbers count).Pairwise (· < ·) := by
  unfold numbers
  rw [List.pairwise_reverse]
  induction count with
  | zero => exact List.Pairwise.nil
  | succ count ih =>
    rw [identifiers, List.pairwise_cons]
    exact ⟨fun id hid => lt_of_mem_identifiers hcount hid, ih (by omega)⟩

theorem pos_of_mem_numbers {count : Nat} (hcount : count < 2 ^ 63) {id : Int64}
    (hid : id ∈ numbers count) : 0 < id := by
  obtain ⟨k, hk, rfl⟩ := mem_identifiers.1 (List.mem_reverse.1 hid)
  exact (Int64.ofNat_lt_iff_lt (a := 0) (by omega) (by omega)).2 (by omega)

theorem nodup_ids {count : Nat} (hcount : count < 2 ^ 63)
    : ((numbers count).map fun id => Id.text (WireId.format id)).Nodup := by
  have hinjective : Function.Injective fun id => Id.text (WireId.format id) := by
    intro a b h
    exact WireId.eq_of_format (Id.text.inj h)
  apply List.Nodup.map hinjective
  unfold numbers
  rw [List.nodup_reverse]
  exact identifiers_nodup (by omega)

structure Forgone (c : Client) (ticket : Nat) : Prop where
  gone : ticket ∈ c.abandoned
  call : ∃ request, c.commands[ticket]? = some (.call request)
  unsent : ticket ∉ c.handed

theorem Forgone.move (h : Forgone c ticket) (hmove : Move A c c') : Forgone c' ticket := by
  obtain ⟨⟨more, hmore⟩, -⟩ := hmove.grows
  obtain ⟨hgone, ⟨request, hcall⟩, hunsent⟩ := h
  refine ⟨?_, ⟨request, ?_⟩, ?_⟩
  . exact hmove.abandoned hgone
  . rw [hmore]
    exact getElem?_append_of_eq_some hcall more
  . intro hhanded
    obtain ⟨line, id, hbegun⟩ := mem_handed.1 hhanded
    rcases begun_of_move hmove hbegun with hold | ⟨-, _, -, hrequest, hid⟩
    . exact hunsent (mem_handed.2 ⟨line, id, hold⟩)
    . rw [hid hgone] at hrequest
      have := notify_of_requestOf? hrequest
      simp [hcall] at this

theorem forgone_of_run? {config : ClientConfig} {before after : List Event} {past : Client}
    (h : (start config).run? (before ++ after) = some c)
    (hpast : (start config).run? before = some past) (hforgone : Forgone past ticket)
    : Forgone c ticket := by
  have hmoves : Moves (fun _ => True) past c :=
    run?_moves (foldlM_of_append h hpast) fun _ _ => trivial
  exact hmoves.keep (fun _ _ => Forgone.move) hforgone

theorem Forgone.not_transmitted (h : Forgone c ticket) (houtbound : Outbound A c) (line : Nat)
    (message : Bytes) : .transmitted line ticket message ∉ c.history := by
  intro hmem
  cases houtbound line ticket message hmem with
  | written id request hrequest hbegun => exact h.unsent (mem_handed.2 ⟨line, id, hbegun⟩)
  | borrowed hlend =>
    obtain ⟨request, hcall⟩ := h.call
    rw [hlend] at hcall
    cases hcall

structure Notifying (c : Client) : Prop where
  sent : ∀ ticket, .replied ticket .sent ∈ c.history → ∃ line, .written line ticket ∈ c.history
  written : ∀ line ticket, .written line ticket ∈ c.history →
    ∃ id, Sent c.commands c.history line ticket id ∧
      (id = none → .replied ticket .sent ∈ c.history)

theorem sent_of_move (hmove : Move A c c') (h : .replied ticket .sent ∈ c'.history)
    : .replied ticket .sent ∈ c.history ∨ ∃ line, .written line ticket ∈ c'.history := by
  cases hmove with
  | finishNotify line job =>
    simp only [List.mem_cons] at h
    rcases h with heq | heq | hold
    . cases heq
      exact .inr ⟨line, by simp⟩
    . cases heq
    . exact .inl hold
  | stop =>
    simp only [List.mem_append, List.mem_reverse, List.mem_map] at h
    rcases h with ⟨t, -, heq⟩ | ⟨t, -, heq⟩ | hold
    . cases heq
    . unfold refusal at heq
      split at heq <;> cases heq
    . exact .inl hold
  | turnAway line ticket' rest =>
    rcases List.mem_cons.1 h with heq | hold
    . unfold refusal at heq
      split at heq <;> cases heq
    . exact .inl hold
  | queue | abandon | release | closers | look | arrive | backOff | reclaim | skip => exact .inl h
  | read line' before after arrival =>
    cases arrival <;> exact .inl (by simpa [Except.toOption] using h)
  | hangUp => cases hhand : c.hand <;> exact .inl (by simpa [hhand] using h)
  | finishCall line' job id =>
    cases hlookup : c.pending.lookup id <;> exact .inl (by simpa [hlookup] using h)
  | _ => exact .inl (by simpa using h)

theorem written_of_move (hwriting : Writing c) (hmove : Move A c c')
    (h : .written line ticket ∈ c'.history)
    : .written line ticket ∈ c.history ∨
        ∃ id, Sent c'.commands c'.history line ticket id ∧
          (id = none → .replied ticket .sent ∈ c'.history) := by
  cases hmove with
  | finishCall line' job id hphase hrunning hid htransmitted =>
    simp only [List.mem_append, Option.mem_toList, Option.map_eq_some_iff, List.mem_cons] at h
    rcases h with ⟨earlier, -, heq⟩ | heq | hold
    . cases heq
    . cases heq
      have hsent := hwriting.sent_of_job hphase htransmitted
      exact .inr ⟨job.id, hsent.later (List.sublist_append_right _ _), by simp [hid]⟩
    . exact .inl hold
  | finishNotify line' job hphase hrunning hid htransmitted =>
    simp only [List.mem_cons] at h
    rcases h with heq | heq | hold
    . cases heq
    . cases heq
      have hsent := hwriting.sent_of_job hphase htransmitted
      exact .inr ⟨job.id, hsent.later (List.sublist_cons_self _ _), by simp⟩
    . exact .inl hold
  | queue | abandon | release | closers | look | arrive | backOff | reclaim | skip => exact .inl h
  | read line' before after arrival =>
    cases arrival <;> exact .inl (by simpa [Except.toOption] using h)
  | hangUp => cases hhand : c.hand <;> exact .inl (by simpa [hhand] using h)
  | _ => exact .inl (by simpa using h)

theorem Notifying.move (h : Notifying c) (hwriting : Writing c) (hmove : Move A c c')
    : Notifying c' := by
  obtain ⟨⟨more, hmore⟩, hsuffix⟩ := hmove.grows
  constructor
  . intro ticket hmem
    rcases sent_of_move hmove hmem with hold | hnew
    . obtain ⟨line, hwritten⟩ := h.sent ticket hold
      exact ⟨line, hsuffix.subset hwritten⟩
    . exact hnew
  . intro line ticket hmem
    rcases written_of_move hwriting hmove hmem with hold | hnew
    . obtain ⟨id, hsent, hreplied⟩ := h.written line ticket hold
      rw [hmore]
      exact ⟨id, hsent.mono hsuffix.sublist, fun hid => hsuffix.subset (hreplied hid)⟩
    . exact hnew

theorem notifying_of_run? {config : ClientConfig} {events : List Event}
    (h : (start config).run? events = some c) : Notifying c := by
  apply holds_of_run? (fun _ _ hsound hc => Notifying.move hc hsound.writing) _ h
  constructor <;> simp [start]

theorem Sent.notification {commands : List Command} {history : List Occurrence}
    {id : Option Int64} {request : Request} (h : Sent commands history line ticket id)
    (hcommand : commands[ticket]? = some (.notify request)) : id = none := by
  cases id with
  | none => rfl
  | some id =>
    obtain ⟨call, hcall⟩ := h.call
    rw [hcommand] at hcall
    cases hcall

theorem sent_iff_written {config : ClientConfig} {events : List Event} {request : Request}
    (h : (start config).run? events = some c) (hcommand : c.commands[ticket]? = some (.notify request))
    : (Await.sent ticket).outcome? c = some (.ok .done) ↔ ∃ line, .written line ticket ∈ c.history := by
  have hnotifying := notifying_of_run? h
  constructor
  . intro houtcome
    obtain ⟨reply, hreply, hsent⟩ := Option.map_eq_some_iff.1 houtcome
    cases reply with
    | sent =>
      rcases mem_of_reply? hreply with hreplied | ⟨-, heq⟩
      . exact hnotifying.sent ticket hreplied
      . cases heq
    | answered | lent | failed | dropped => cases hsent
  . rintro ⟨line, hwritten⟩
    obtain ⟨id, hsent, hreplied⟩ := hnotifying.written line ticket hwritten
    have hreply := reply?_of_replied (sound_of_run? h).ledger (refusing_of_run? h)
      (hreplied (hsent.notification hcommand))
    simp [Await.outcome?, hreply, Reply.toSent, Except.map]

theorem replied_of_failedWrite {job : Job} (hphase : c.phase = .writing line job)
    (hstep : c.step? (.writeReturns false) = some c')
    : .replied job.ticket (.failed .interrupted) ∈ c'.history := by
  simp only [step?, writeReturns?, hphase, Bool.false_eq_true, if_false] at hstep
  split at hstep
  . cases hstep
  . cases hstep
    rw [leave_eq]
    exact List.mem_append_right _ List.mem_cons_self

theorem replied_of_abandonedWrite {job : Job} (hphase : c.phase = .writing line job)
    (hstep : c.step? .turn = some c')
    : c.shutdown ∧ .replied job.ticket (.failed .closed) ∈ c'.history := by
  simp only [step?, turn?, hphase] at hstep
  split at hstep
  . next hwarned =>
    cases hstep
    rw [leave_eq]
    exact ⟨shutdown_of_warned hwarned, List.mem_append_right _ List.mem_cons_self⟩
  . cases hstep

theorem told_of_past {config : ClientConfig} {before after : List Event} {past : Client}
    {error : ClientError} (h : (start config).run? (before ++ after) = some c)
    (hpast : (start config).run? before = some past)
    (hmem : .replied ticket (.failed error) ∈ past.history) : c.Told ticket error := by
  have hmoves : Moves (fun _ => True) past c :=
    run?_moves (foldlM_of_append h hpast) fun _ _ => trivial
  apply told_of_failed
  exact reply?_of_suffix hmoves.history_suffix
    (reply?_of_replied (sound_of_run? hpast).ledger (refusing_of_run? hpast) hmem)

structure SentInOrder (config : ClientConfig) (incidents : List Incident) (c : Client) : Prop where
  order : (c.handed ++ c.mailbox).Sublist c.entered
  once : c.handed.Nodup
  waits : ∀ before loss after past next, incidents = before ++ loss :: after →
    (start config).undergoAll? config.validated before = some past →
      past.undergo? config.validated loss = some next → next.phase.driven? = none →
        .attemptSucceeds ∉ after →
          past.mailbox <+: c.mailbox ∧ (∀ ticket ∈ past.mailbox, c.reply? ticket = none) ∨
            c.shutdown ∧ c.phase = .stopped ∧ ∀ ticket ∈ past.mailbox, c.Told ticket .closed
  issued : Issued c
  outbound : Outbound (fun event => .other event ∈ incidents) c
  identifiers : c.calls.length < 2 ^ 63 → ∃ ids : List Int64, ids.length = c.calls.length ∧
    c.calls.map (·.id) = ids.map (fun id => .text (WireId.format id)) ∧
    ids.Pairwise (· < ·) ∧ (∀ id ∈ ids, 0 < id) ∧ (c.calls.map (·.id)).Nodup ∧
    c.nextId = Int64.ofNat (c.calls.length + 1)
  forgone : ∀ before after past ticket, incidents = before ++ after →
    (start config).undergoAll? config.validated before = some past → Forgone past ticket →
      ticket ∉ c.handed ∧ ∀ line message, .transmitted line ticket message ∉ c.history
  notified : ∀ ticket request, c.commands[ticket]? = some (.notify request) →
    ((Await.sent ticket).outcome? c = some (.ok .done) ↔ ∃ line, .written line ticket ∈ c.history)
  written : ∀ line ticket, .written line ticket ∈ c.history →
    ∃ id, Sent c.commands c.history line ticket id
  failed : ∀ before incident after past line job, incidents = before ++ incident :: after →
    (start config).undergoAll? config.validated before = some past →
      past.phase = .writing line job →
        (incident = .other (.writeReturns false) → c.Told job.ticket .interrupted) ∧
        (incident = .other .turn → past.shutdown ∧ c.Told job.ticket .closed)

/--
The commands handed to the writer come, each once, in the order in which they entered the mailbox,
and before all that is still queued. What is queued when a connection is lost waits in its place for
the next one, with nobody told anything, unless the client closes first. What leaves is the request
of a command that was handed over, or a borrower's message; the calls are numbered from one in the
order in which they are handed over, and a call abandoned before that has no number and is never
sent. Whoever sends a notification succeeds exactly if it was written; whoever had a write that
failed is told that it was interrupted, or closed if it was given up for the shutdown. All this holds
unless the owner broke down, which no owner with safe settings does.
-/
theorem commands_sent_in_order {config : ClientConfig} {incidents : List Incident}
    (h : (start config).undergoAll? config.validated incidents = some c)
    : (.brokeDown ∉ c.history → SentInOrder config incidents c) ∧
      (config.validated.IsSafe → .brokeDown ∉ c.history) := by
  refine ⟨fun hup => ?_, fun hsafe => up_of_isSafe hsafe h⟩
  have hrun := run?_of_undergoAll? h hup
  have hsound := sound_of_run? hrun
  have hissued := issued_of_run? hrun
  have houtbound := outbound_of_run? hrun
  constructor
  case order => exact inOrder_of_run? hrun
  case once => exact hsound.handed_nodup
  case waits =>
    rintro before loss after past next rfl hpast hloss hoffline hconnects
    have hstep := step?_of_past h hup hpast hloss
    have hnever : .connects ∉ after.map (·.event config.validated) := by
      intro hmem
      obtain ⟨incident, hincident, heq⟩ := List.mem_map.1 hmem
      cases incident with
      | attemptSucceeds => exact hconnects hincident
      | attemptFails => cases heq
      | other event =>
        have hmem : .other event ∈ before ++ loss :: after := by simp [hincident]
        have hends := endsAttempt_of_mem h hmem
        change event = .connects at heq
        rw [heq] at hends
        cases hends
    rw [List.map_append, List.map_cons] at hrun
    exact queue_of_loss hrun (run?_of_past h hup hpast) hstep hoffline hnever
  case issued => exact hissued
  case outbound => exact houtbound.of_event
  case identifiers =>
    intro hcount
    have hids := hsound.numbering.ids_calls hissued
    refine ⟨numbers c.calls.length, ?_, hids, pairwise_numbers hcount, ?_, ?_, ?_⟩
    . exact length_numbers c.calls.length
    . exact fun id hid => pos_of_mem_numbers hcount hid
    . rw [hids]
      exact nodup_ids hcount
    . rw [hissued.length_calls]
      exact hsound.numbering.next
  case forgone =>
    rintro before after past ticket rfl hpast hforgone
    rw [List.map_append] at hrun
    have hlast := forgone_of_run? hrun (run?_of_past h hup hpast) hforgone
    exact ⟨hlast.unsent, hlast.not_transmitted houtbound⟩
  case notified =>
    intro ticket request hcommand
    exact sent_iff_written hrun hcommand
  case written =>
    intro line ticket hwritten
    obtain ⟨id, hsent, -⟩ := (notifying_of_run? hrun).written line ticket hwritten
    exact ⟨id, hsent⟩
  case failed =>
    rintro before incident after past line job rfl hpast hphase
    have hpast' := run?_of_past h hup hpast
    rw [List.map_append, List.map_cons] at hrun
    obtain ⟨next, hstep, hrest⟩ := exists_step_of_foldlM (foldlM_of_append hrun hpast')
    have hnext := foldlM_snoc hpast' hstep
    rw [List.append_cons] at hrun
    constructor
    . rintro rfl
      exact told_of_past hrun hnext (replied_of_failedWrite hphase hstep)
    . rintro rfl
      obtain ⟨hshut, hreplied⟩ := replied_of_abandonedWrite hphase hstep
      exact ⟨hshut, told_of_past hrun hnext hreplied⟩

def queuedCommands : List Incident :=
  [.other (.issue (.call { method := "a" })), .other (.issue (.call { method := "b" })),
    .other (.issue (.notify { method := "n", notification := true })),
    .other (.issue (.call { method := "c" })), .other (.giveUp 1), .attemptSucceeds, .other .turn]

def laterSending : List Incident :=
  [.attemptSucceeds, .other .turn, .other .turn, .other .transmits, .other (.writeReturns true),
    .other .turn, .other .transmits]

theorem commands_sent_in_order_of_failedWrite
    : ∃ lost c, (start {}).undergoAll? ({} : ClientConfig).validated
          (queuedCommands ++ .other (.writeReturns false) :: [.other .turn]) = some lost ∧
        (start {}).undergoAll? ({} : ClientConfig).validated (queuedCommands ++
          .other (.writeReturns false) :: .other .turn :: laterSending) = some c ∧
        [1, 2, 3] <+: lost.mailbox ∧ (∀ ticket ∈ [1, 2, 3], lost.reply? ticket = none) ∧
        c.handed.Nodup ∧ c.Told 0 .interrupted ∧ 1 ∉ c.handed ∧
        (Await.sent 2).outcome? c = some (.ok .done) ∧
        c.calls.length = 2 ∧ (c.calls.map (·.id)).Nodup := by
  have hqueued : ((start {}).undergoAll? ({} : ClientConfig).validated queuedCommands).map
      (fun c => decide (c.mailbox = [1, 2, 3] ∧
        c.phase = .writing 0 ⟨0, some 1, ({ method := "a" } : Request).numbered 1, false⟩ ∧
        1 ∈ c.abandoned ∧ c.commands[1]? = some (.call { method := "b" }) ∧ 1 ∉ c.handed))
        = some true := by
    decide +kernel
  have hfailed : ((start {}).undergoAll? ({} : ClientConfig).validated
      (queuedCommands ++ [.other (.writeReturns false)])).map (fun c => c.phase.driven?)
        = some none := by
    decide +kernel
  have hwaits : ((start {}).undergoAll? ({} : ClientConfig).validated
      (queuedCommands ++ .other (.writeReturns false) :: [.other .turn])).map (fun c => c.shutdown)
        = some false := by
    decide +kernel
  have hlast : ((start {}).undergoAll? ({} : ClientConfig).validated
      (queuedCommands ++ .other (.writeReturns false) :: .other .turn :: laterSending)).map
        (fun c => decide (c.commands[2]? = some (.notify { method := "n", notification := true }) ∧
          .written 1 2 ∈ c.history ∧ c.calls.length = 2)) = some true := by
    decide +kernel
  obtain ⟨past, hpast, hfacts⟩ := Option.map_eq_some_iff.1 hqueued
  obtain ⟨hmailbox, hphase, hgone, hcall, hunsent⟩ := of_decide_eq_true hfacts
  obtain ⟨next, hnext, hoffline⟩ := Option.map_eq_some_iff.1 hfailed
  obtain ⟨_, hloss, rfl⟩ : ∃ s, past.undergo? ({} : ClientConfig).validated
      (.other (.writeReturns false)) = some s ∧ s = next := by
    obtain ⟨s, hstep, hrest⟩ := exists_step_of_foldlM (foldlM_of_append hnext hpast)
    exact ⟨s, hstep, Option.some.inj hrest⟩
  obtain ⟨lost, hlost, hopen⟩ := Option.map_eq_some_iff.1 hwaits
  obtain ⟨c, hc, hfacts⟩ := Option.map_eq_some_iff.1 hlast
  obtain ⟨hnotify, hwritten, hcount⟩ := of_decide_eq_true hfacts
  have hsafe : ({} : ClientConfig).validated.IsSafe := ⟨by decide +kernel, by decide +kernel⟩
  obtain ⟨hkept, hup⟩ := commands_sent_in_order hlost
  have hqueue := (hkept (hup hsafe)).waits
  obtain ⟨hsent, hup⟩ := commands_sent_in_order hc
  have hsent := hsent (hup hsafe)
  obtain ⟨-, -, -, -, -, hids, -⟩ := hsent.identifiers (by omega)
  have hwaiting := hqueue _ _ _ past _ rfl hpast hloss hoffline (by simp)
  rw [hmailbox, hopen] at hwaiting
  obtain ⟨hstays, hunanswered⟩ | ⟨hshut, -⟩ := hwaiting
  . refine ⟨lost, c, hlost, hc, hstays, hunanswered, hsent.once, ?_, ?_, ?_, hcount, hids⟩
    . exact (hsent.failed _ _ _ past 0 _ rfl hpast hphase).1 rfl
    . exact (hsent.forgone _ _ past 1 rfl hpast ⟨hgone, ⟨_, hcall⟩, hunsent⟩).1
    . exact (hsent.notified 2 _ hnotify).2 ⟨1, hwritten⟩
  . cases hshut

end JsonRpc.Client
