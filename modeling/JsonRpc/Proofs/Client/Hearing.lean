import JsonRpc.Client.Task
import JsonRpc.Proofs.Client.Correlation
import JsonRpc.Proofs.Client.Driving

/-!
Responses that are read before a line is lost. A call waits under its identifier before anything
that was read after it was handed over is handed out, and all that was read is handed out before a
failure to read is found. So a call is not told of a loss that its response was read before.
-/

namespace JsonRpc.Client

variable {A : Event → Prop} {c c' past : Client} {event : Event} {config : ClientConfig}
  {before after : List Event} {line ticket : Nat} {id : Int64} {message : Bytes}

def Line.EndsInFailure (l : Line) : Prop :=
  ∀ front error rest, l.buffer = front ++ .error error :: rest → rest = [] ∧ l.reading = false

namespace Line.EndsInFailure

variable {l after : Line} {arrival : Except TransportError Bytes}

theorem stop (l : Line) : l.stop.EndsInFailure := by
  intro front error rest hbuffer
  simp [Line.stop] at hbuffer

theorem read {room : Nat} (h : l.EndsInFailure) (hread : l.read? room = some (arrival, after))
    : after.EndsInFailure := by
  unfold read? at hread
  split at hread
  . cases hread
  . split at hread
    . next hopen =>
      cases hread
      have hreading : l.reading = true := (Bool.and_eq_true _ _ ▸ hopen).1
      intro front error rest hbuffer
      dsimp only at hbuffer
      rcases List.append_eq_append_iff.1 hbuffer with ⟨middle, -, hlast⟩ | ⟨middle, hfront, hlast⟩
      . cases middle with
        | nil =>
          obtain ⟨rfl, rfl⟩ := List.cons.inj hlast
          exact ⟨rfl, rfl⟩
        | cons first middle => simp at hlast
      . -- A failure further up would have ended the reading.
        cases middle with
        | nil =>
          obtain ⟨rfl, rfl⟩ := List.cons.inj hlast
          exact ⟨rfl, rfl⟩
        | cons first middle =>
          obtain ⟨rfl, -⟩ := List.cons.inj hlast
          rw [(h front error middle hfront).2] at hreading
          cases hreading
    . cases hread

theorem dispatch {rest : List (Except TransportError Bytes)} (h : l.EndsInFailure)
    (hbuffer : l.buffer = arrival :: rest) : EndsInFailure { l with buffer := rest } := by
  intro front error behind hrest
  apply h (arrival :: front) error behind
  rw [hbuffer, List.cons_append, ← hrest]

end Line.EndsInFailure

def Ended (c : Client) : Prop :=
  ∀ line, (c.line line).EndsInFailure

theorem Ended.move (h : Ended c) (hmove : Move A c c') : Ended c' := by
  intro line
  have hline := h line
  cases hmove with
  | arrive changed arrival =>
    unfold Client.line at *
    rcases getElem?_modify_getD c.lines changed line (fun l => { l with inbox := l.inbox ++ [arrival] })
      with heq | ⟨-, heq⟩
    . rw [heq]
      exact hline
    . rw [heq]
      exact hline
  | leave changed =>
    unfold Client.line at *
    rcases getElem?_modify_getD c.lines changed line Line.stop with heq | ⟨-, heq⟩
    . rw [heq]
      exact hline
    . rw [heq]
      exact .stop _
  | read changed before after arrival hbefore hread =>
    by_cases hchanged : changed = line
    . subst hchanged
      have hafter := hline
      unfold Client.line at hafter
      rw [hbefore] at hafter
      have hlt := (List.getElem?_eq_some_iff.1 hbefore).1
      simpa [Client.line, hlt] using hafter.read hread
    . simpa [Client.line, hchanged] using hline
  | dispatch changed before message rest hphase hbefore hbuffer =>
    unfold Client.line at *
    by_cases hchanged : changed = line
    . subst hchanged
      rw [hbefore] at hline
      simpa [List.getElem?_modify, hbefore] using hline.dispatch hbuffer
    . simpa [List.getElem?_modify, hchanged] using hline
  | connect =>
    unfold Client.line at *
    rw [getElem?_append_getD]
    exact hline
  | _ => exact hline

theorem ended_of_run? {events : List Event} (h : (start config).run? events = some c)
    : Ended c := by
  apply keeps_of_run? (fun _ _ => Ended.move) _ h
  intro line front error rest hbuffer
  simp [start, Client.line] at hbuffer

def Answered (c : Client) (line ticket : Nat) (id : Int64) : Prop :=
  ∃ response message, .replied ticket (.answered response) ∈ c.history ∧
    .received line message ∈ c.history ∧ response ∈ responsesOf message ∧
    callOf? response.id = some id

inductive Decided (c : Client) (line ticket : Nat) (id : Int64) : Prop where
  | answered (hanswered : c.Answered line ticket id)
  | failed (error : ClientError) (hfailed : .replied ticket (.failed error) ∈ c.history)

theorem Decided.later (h : c.Decided line ticket id) (hsuffix : c.history <:+ c'.history)
    : c'.Decided line ticket id := by
  cases h with
  | answered hanswered =>
    obtain ⟨response, message, hreplied, hreceived, hresponse, hcall⟩ := hanswered
    exact .answered ⟨response, message, hsuffix.subset hreplied, hsuffix.subset hreceived,
      hresponse, hcall⟩
  | failed error hfailed => exact .failed error (hsuffix.subset hfailed)

inductive Awaited (c : Client) (ticket : Nat) (id : Int64) : Prop where
  | pending (hmem : (id, ticket) ∈ c.pending)
  | writing (line : Nat) (job : Job) (hphase : c.phase = .writing line job)
    (hticket : job.ticket = ticket) (hid : job.id = some id)

theorem Awaited.same (h : c.Awaited ticket id) (hphase : c'.phase = c.phase)
    (hpending : c'.pending = c.pending) : c'.Awaited ticket id := by
  cases h with
  | pending hmem => exact .pending (hpending ▸ hmem)
  | writing line job hwriting hticket hid =>
    exact .writing line job (hphase.trans hwriting) hticket hid

theorem Awaited.pending_of_driving (h : c.Awaited ticket id) (hphase : c.phase = .driving line)
    : (id, ticket) ∈ c.pending := by
  cases h with
  | pending hmem => exact hmem
  | writing line job hwriting =>
    rw [hphase] at hwriting
    cases hwriting

def Occurrence.IsMute : Occurrence → Prop
  | .begun _ _ (some _) | .received _ _ => False
  | _ => True

def Names (message : Bytes) (id : Int64) : Prop :=
  ∃ response ∈ responsesOf message, callOf? response.id = some id

/--
Calls that were begun on the driven line wait as long as they are not decided, and messages that
were read on it after that, and that name them, are not handed out before.
-/
structure Hearing (c : Client) (line : Nat) : Prop where
  begun : ∀ ticket id, .begun line ticket (some id) ∈ c.history →
    c.Awaited ticket id ∨ c.Decided line ticket id
  unread : ∀ later message earlier ticket id,
    c.history = later ++ .received line message :: earlier →
      .begun line ticket (some id) ∈ earlier → Names message id →
        message ∈ (c.line line).unread ∨ c.Decided line ticket id

namespace Hearing

theorem of_fresh (h : ∀ ticket id, .begun line ticket id ∉ c.history) : Hearing c line := by
  constructor
  . intro ticket id hbegun
    exact absurd hbegun (h ticket (some id))
  . intro later message earlier ticket id hsplit hbegun
    have : .begun line ticket (some id) ∈ c.history := by simp [hsplit, hbegun]
    exact absurd this (h ticket (some id))

theorem later (h : Hearing c line) (more : List Occurrence)
    (hhistory : c'.history = more ++ c.history)
    (hbegun : ∀ ticket id, .begun line ticket (some id) ∈ more → c'.Awaited ticket id)
    (hreceived : ∀ message, .received line message ∈ more → message ∈ (c'.line line).unread)
    (hawaited : ∀ ticket id, c.Awaited ticket id →
      c'.Awaited ticket id ∨ c'.Decided line ticket id)
    (hunread : ∀ message ∈ (c.line line).unread, message ∈ (c'.line line).unread ∨
      ∀ ticket id, .begun line ticket (some id) ∈ c.history → Names message id →
        c'.Decided line ticket id)
    : Hearing c' line := by
  have hsuffix : c.history <:+ c'.history := ⟨more, hhistory.symm⟩
  constructor
  . intro ticket id hmem
    rw [hhistory] at hmem
    rcases List.mem_append.1 hmem with hnew | hold
    . exact .inl (hbegun ticket id hnew)
    . rcases h.begun ticket id hold with hwaits | hdecided
      . exact hawaited ticket id hwaits
      . exact .inr (hdecided.later hsuffix)
  . intro later message earlier ticket id hsplit hmem hnames
    by_cases hnew : .received line message ∈ more
    . exact .inl (hreceived message hnew)
    . rw [hhistory] at hsplit
      obtain ⟨middle, -, hold⟩ := split_of_not_mem hsplit hnew
      rcases h.unread middle message earlier ticket id hold hmem hnames with hunheard | hdecided
      . have hmem : .begun line ticket (some id) ∈ c.history := by simp [hold, hmem]
        rcases hunread message hunheard with hstays | hdecides
        . exact .inl hstays
        . exact .inr (hdecides ticket id hmem hnames)
      . exact .inr (hdecided.later hsuffix)

theorem of_mute (h : Hearing c line) (more : List Occurrence)
    (hhistory : c'.history = more ++ c.history) (hmute : ∀ o ∈ more, o.IsMute)
    (hawaited : ∀ ticket id, c.Awaited ticket id →
      c'.Awaited ticket id ∨ c'.Decided line ticket id)
    (hunread : (c'.line line).unread = (c.line line).unread) : Hearing c' line := by
  apply h.later more hhistory
  . exact fun ticket id hmem => (hmute _ hmem).elim
  . exact fun message hmem => (hmute _ hmem).elim
  . exact hawaited
  . exact fun message hmem => .inl (hunread ▸ hmem)

theorem of_same (h : Hearing c line) (more : List Occurrence)
    (hhistory : c'.history = more ++ c.history) (hmute : ∀ o ∈ more, o.IsMute)
    (hphase : c'.phase = c.phase) (hpending : c'.pending = c.pending)
    (hunread : (c'.line line).unread = (c.line line).unread) : Hearing c' line := by
  exact h.of_mute more hhistory hmute (fun _ _ hwaits => .inl (hwaits.same hphase hpending)) hunread

theorem move_read (h : Hearing c line) {changed : Nat} {before after : Line}
    {arrival : Except TransportError Bytes} (hbefore : c.lines[changed]? = some before)
    (hread : before.read? c.inboundBuffer = some (arrival, after))
    (hlines : c'.lines = c.lines.set changed after)
    (hhistory : c'.history = (arrival.toOption.map (.received changed)).toList ++ c.history)
    (hphase : c'.phase = c.phase) (hpending : c'.pending = c.pending) : Hearing c' line := by
  have hlt := (List.getElem?_eq_some_iff.1 hbefore).1
  have hunread : (c'.line line).unread = (c.line line).unread ++
      if changed = line then arrival.toOption.toList else [] := by
    unfold Client.line
    rw [hlines]
    by_cases hchanged : changed = line
    . subst hchanged
      rw [List.getElem?_set_self hlt, hbefore, if_pos rfl]
      unfold Line.unread
      rw [Option.getD_some, (Line.places_of_read? hread).2, List.filterMap_append]
      cases arrival <;> rfl
    . rw [List.getElem?_set_ne hchanged, if_neg hchanged, List.append_nil]
  apply h.later _ hhistory
  . intro ticket id hmem
    cases arrival <;> simp [Except.toOption] at hmem
  . intro message hmem
    cases arrival with
    | error cause => simp [Except.toOption] at hmem
    | ok latest =>
      simp only [Except.toOption, Option.map_some, Option.toList_some, List.mem_singleton,
        Occurrence.received.injEq] at hmem
      obtain ⟨rfl, rfl⟩ := hmem
      rw [hunread, if_pos rfl]
      simp [Except.toOption]
  . exact fun _ _ hwaits => .inl (hwaits.same hphase hpending)
  . intro message hmem
    rw [hunread]
    exact .inl (List.mem_append_left _ hmem)

theorem move_dispatch (h : Hearing c line) (hkeys : (c.pending.map Prod.fst).Nodup)
    (horderly : Orderly c) {before : Line} {message : Bytes}
    {rest : List (Except TransportError Bytes)} (hphase : c.phase = .driving line)
    (hline : c.lines[line]? = some before) (hbuffer : before.buffer = .ok message :: rest)
    (hlines : c'.lines = c.lines.modify line fun l => { l with buffer := rest })
    (hpending : c'.pending = unanswered c.pending (responsesOf message))
    (hhistory : c'.history = ((answers c.pending (responsesOf message)).map fun a =>
      .replied a.1 (.answered a.2)).reverse ++ .dispatched line message :: c.history)
    : Hearing c' line := by
  have hreceived := horderly.received_of_buffer hline hbuffer
  have hanswered {ticket : Nat} {response : Response} {id : Int64}
      (hanswer : (ticket, response) ∈ answers c.pending (responsesOf message))
      (hresponse : response ∈ responsesOf message) (hcall : callOf? response.id = some id)
      : c'.Decided line ticket id := by
    refine .answered ⟨response, message, ?_, ?_, hresponse, hcall⟩
    . rw [hhistory]
      apply List.mem_append_left
      exact List.mem_reverse.2 (List.mem_map.2 ⟨_, hanswer, rfl⟩)
    . rw [hhistory]
      exact List.mem_append_right _ (List.mem_cons_of_mem _ hreceived)
  rw [List.append_cons] at hhistory
  have hmute : ∀ o ∈ ((answers c.pending (responsesOf message)).map fun a =>
      Occurrence.replied a.1 (.answered a.2)).reverse ++ [.dispatched line message], o.IsMute := by
    rw [List.forall_mem_append]
    exact ⟨forall_mem_reverse_map fun _ => trivial, by simp [Occurrence.IsMute]⟩
  apply h.later _ hhistory
  . exact fun ticket id hmem => (hmute _ hmem).elim
  . exact fun message hmem => (hmute _ hmem).elim
  . intro ticket id hwaits
    rcases answered_or_unanswered hkeys (hwaits.pending_of_driving hphase) (responsesOf message)
      with hstays | ⟨response, hanswer, hcall⟩
    . exact .inl (.pending (hpending ▸ hstays))
    . have hmem := List.mem_map_of_mem (f := Prod.snd) hanswer
      exact .inr (hanswered hanswer ((answers_sublist _).subset hmem) hcall)
  . intro other hmem
    have hold : (c.line line).unread = message :: rest.filterMap Except.toOption := by
      simp [Client.line, hline, Line.unread, hbuffer, Except.toOption]
    have hnew : (c'.line line).unread = rest.filterMap Except.toOption := by
      simp [Client.line, hlines, hline, Line.unread]
    rw [hold] at hmem
    rw [hnew]
    rcases List.mem_cons.1 hmem with rfl | hrest
    . right
      rintro ticket id hbegun ⟨response, hresponse, hcall⟩
      rcases h.begun ticket id hbegun with hwaits | hdecided
      . obtain ⟨answer, hanswer, hmem, hnames⟩ :=
          answered_of_named hkeys (hwaits.pending_of_driving hphase) hresponse hcall
        exact hanswered hanswer hmem hnames
      . exact hdecided.later ⟨_, hhistory.symm⟩
    . exact .inl hrest

theorem move_end (h : Hearing c line) {job : Job} (more : List Occurrence)
    (hhistory : c'.history = more ++ c.history) (hmute : ∀ o ∈ more, o.IsMute)
    (hphase : c.phase = .writing line job)
    (hjob : ∀ id, job.id = some id → c'.Awaited job.ticket id ∨ c'.Decided line job.ticket id)
    (hpending : ∀ e ∈ c.pending, e ∈ c'.pending) (hlines : c'.lines = c.lines)
    : Hearing c' line := by
  refine h.of_mute more hhistory hmute ?_ (by unfold Client.line; rw [hlines])
  intro ticket id hwaits
  cases hwaits with
  | pending hmem => exact .inl (.pending (hpending _ hmem))
  | writing line' job' hwriting hticket hid =>
    rw [hphase] at hwriting
    cases hwriting
    rw [← hticket]
    exact hjob id hid

theorem move (h : Hearing c line) (hsound : Sound c) (horderly : Orderly c)
    (hcount : c.numbered.length ≤ 2 ^ 64) (hdriven : c.phase.driven? = some line)
    (hdriven' : c'.phase.driven? = some line) (hmove : Move A c c') : Hearing c' line := by
  cases hmove with
  | queue | abandon | release | closers | look | reclaim | skip =>
    exact h.of_same [] rfl (by simp) rfl rfl rfl
  | accept | refuse | enter | borrowerWrites | shutDown | turnAway | dropCall | lend =>
    exact h.of_same [_] rfl (by simp [Occurrence.IsMute]) rfl rfl rfl
  | arrive changed arrival =>
    refine h.of_same [] rfl (by simp) rfl rfl ?_
    unfold Client.line
    rcases getElem?_modify_getD c.lines changed line (fun l => { l with inbox := l.inbox ++ [arrival] })
      with heq | ⟨-, heq⟩
    . rw [heq]
    . rw [heq]
      rfl
  | read changed before after arrival hbefore hread =>
    exact h.move_read hbefore hread rfl rfl rfl rfl
  | connect hevent hphase =>
    rw [hphase] at hdriven
    cases hdriven
  | backOff | leave | hangUp => cases hdriven'
  | attempt hphase | stop hphase =>
    rw [driven?_of_isOffline hphase] at hdriven
    cases hdriven
  | dispatch other before message rest hphase hline hbuffer =>
    rw [hphase] at hdriven
    cases hdriven
    exact h.move_dispatch hsound.ledger.keys horderly hphase hline hbuffer rfl rfl rfl
  | beginCall other ticket rest request htake =>
    rw [htake.phase] at hdriven
    cases hdriven
    apply h.later [_] rfl
    . intro t id hmem
      cases List.mem_singleton.1 hmem
      exact .writing line _ rfl rfl rfl
    . exact fun message hmem => nomatch List.mem_singleton.1 hmem
    . exact fun t id hwaits => .inl (.pending (hwaits.pending_of_driving htake.phase))
    . exact fun message hmem => .inl hmem
  | beginNotify other ticket rest request htake =>
    refine h.of_mute [_] rfl (by simp [Occurrence.IsMute]) ?_ rfl
    exact fun t id hwaits => .inl (.pending (hwaits.pending_of_driving htake.phase))
  | transmit other job hevent hphase =>
    rw [hphase] at hdriven
    cases hdriven
    refine h.move_end [_] rfl (by simp [Occurrence.IsMute]) hphase ?_ (fun _ => id) rfl
    exact fun id hid => .inl (.writing line _ rfl rfl hid)
  | finishCall other job id hphase hrunning hid =>
    rw [hphase] at hdriven
    cases hdriven
    -- Nobody else waits under the identifier, so that nobody is dropped for the new call.
    have hfree := hsound.numbering.lookup_of_writing hcount hphase hid
    refine h.move_end _ (List.append_cons _ _ _) ?_ hphase ?_ ?_ rfl
    . rw [hfree]
      simp [Occurrence.IsMute]
    . rintro id' hid'
      rw [hid] at hid'
      cases hid'
      exact .inl (.pending (by simp))
    . intro e he
      have hne : e.1 ≠ id := by
        rintro rfl
        simpa using List.lookup_eq_none_iff.1 hfree e he
      exact List.mem_append_left _ (List.mem_filter.2 ⟨he, by simpa using hne⟩)
  | finishNotify other job hphase hrunning hid =>
    rw [hphase] at hdriven
    cases hdriven
    refine h.move_end [_, _] rfl (by simp [Occurrence.IsMute]) hphase ?_ (fun _ => id) rfl
    intro id' hid'
    rw [hid] at hid'
    cases hid'
  | breakOff other job exit hphase =>
    rw [hphase] at hdriven
    cases hdriven
    refine h.move_end [_] rfl (by simp [Occurrence.IsMute]) hphase ?_ (fun _ => id) rfl
    exact fun id hid => .inr (.failed exit.error List.mem_cons_self)

end Hearing

def Attentive (c : Client) : Prop :=
  c.numbered.length ≤ 2 ^ 64 → ∀ line, c.phase.driven? = some line → Hearing c line

theorem Attentive.move (h : Attentive c) (hsound : Sound c) (horderly : Orderly c)
    (hsited : Sited c) (hmove : Move A c c') : Attentive c' := by
  intro hcount line hdriven
  have hcount : c.numbered.length ≤ 2 ^ 64 :=
    Nat.le_trans hmove.numbered_suffix.length_le hcount
  have hlines := driven?_of_moves hsound.custody (.single hmove) hdriven
  by_cases hsame : c.phase.driven? = some line
  . exact (h hcount line hsame).move hsound horderly hcount hsame hdriven hmove
  . apply Hearing.of_fresh
    intro ticket id hbegun
    rcases hlines with hdriven | hnew
    . exact hsame hdriven
    . -- A command is begun on the line that is driven, and that is not a new one.
      rcases begun_of_move hmove hbegun with hold | ⟨rest, -, htake, -⟩
      . have := hsited line ticket id hold
        omega
      . exact hsame (by rw [htake.phase]; rfl)

theorem attentive_of_run? {events : List Event} (h : (start config).run? events = some c)
    : Attentive c := by
  have hboth : Orderly c ∧ Sited c ∧ Attentive c := by
    apply holds_of_run? (P := fun c => Orderly c ∧ Sited c ∧ Attentive c) _ _ h
    . rintro c c' hsound ⟨horderly, hsited, hattentive⟩ hmove
      exact ⟨horderly.move hmove, hsited.move hsound.custody hmove,
        hattentive.move hsound horderly hsited hmove⟩
    . exact ⟨Orderly.start config, by simp [Sited, start], by simp [Attentive, start, Phase.driven?]⟩
  exact hboth.2.2

structure FindsLoss (c : Client) (line : Nat) : Prop where
  phase : c.phase = .driving line
  failed : ∃ l error rest, c.lines[line]? = some l ∧ l.buffer = .error error :: rest

theorem FindsLoss.step?_eq (h : c.FindsLoss line) (hunwarned : c.warned = false)
    (hlent : c.reclaim? = none) : c.step? .turn = some (c.leave line .lost).look := by
  obtain ⟨l, error, rest, hline, hbuffer⟩ := h.failed
  have hinbound : c.takeInbound? line = some (c.leave line .lost) := by
    obtain ⟨inbox, buffer, reading⟩ := l
    cases hbuffer
    unfold takeInbound?
    rw [hline]
  have hturn : c.turn? = some (c.leave line .lost) := by
    unfold turn?
    rw [h.phase]
    dsimp only
    split
    . simp [hunwarned, hinbound]
    . simp [hlent, hinbound]
  unfold step?
  rw [hturn]
  rfl

theorem FindsLoss.unread_eq (h : c.FindsLoss line) (hended : Ended c)
    : (c.line line).unread = [] := by
  obtain ⟨l, error, rest, hline, hbuffer⟩ := h.failed
  have hl : c.line line = l := by simp [Client.line, hline]
  have hlast := (hended line [] error rest (by rw [hl, hbuffer]; rfl)).1
  rw [hl, Line.unread, hbuffer, hlast]
  rfl

def HeardBack (c : Client) (line ticket : Nat) (id : Int64) : Prop :=
  ∃ later message earlier, c.history = later ++ .received line message :: earlier ∧
    .begun line ticket (some id) ∈ earlier ∧ Names message id

/--
When the owner finds that reading the line has failed, and so will leave it as lost, each call that
a response was read to is already answered: by a response under its identifier that was read on the
line, which its caller learns in the end. It is enough that the response was read after the call was
handed to the writer, alone or among others, whether or not the write had returned by then. So it is
until the 64-bit identifiers run out and two calls have the same.
-/
theorem answered_before_loss
    (h : (start config).run? (before ++ after) = some c)
    (hpast : (start config).run? before = some past)
    (hcount : past.numbered.length ≤ 2 ^ 64) (hloss : past.FindsLoss line)
    : (past.warned = false → past.reclaim? = none →
        past.step? .turn = some (past.leave line .lost).look) ∧
      ∀ ticket id, past.HeardBack line ticket id →
        ∃ response message, .received line message ∈ past.history ∧
          response ∈ responsesOf message ∧ callOf? response.id = some id ∧
          past.reply? ticket = some (.answered response) ∧
          c.reply? ticket = some (.answered response) ∧
          (Await.response ticket).outcome? c = some (.ok (.response response)) := by
  refine ⟨hloss.step?_eq, ?_⟩
  rintro ticket id ⟨later, message, earlier, hsplit, hbegun, hnames⟩
  have hdriven : past.phase.driven? = some line := by rw [hloss.phase]; rfl
  have hhearing := attentive_of_run? hpast hcount line hdriven
  rcases hhearing.unread later message earlier ticket id hsplit hbegun hnames with hunread | hdecided
  . rw [hloss.unread_eq (ended_of_run? hpast)] at hunread
    cases hunread
  . cases hdecided with
    | failed error hfailed =>
      -- None of the calls that were begun on a driven line has failed.
      have hmem : .begun line ticket (some id) ∈ past.history := by simp [hsplit, hbegun]
      have hfailure : ticket ∈ past.failures := List.mem_filterMap.2 ⟨_, hfailed, rfl⟩
      exact absurd hfailure (unfailing_of_run? hpast line ticket (some id) hdriven hmem)
    | answered hanswered =>
      obtain ⟨response, read, hreplied, hreceived, hresponse, hcall⟩ := hanswered
      have hmoves : Moves (fun _ => True) past c :=
        run?_moves (foldlM_of_append h hpast) fun _ _ => trivial
      have hreply :=
        reply?_of_replied (sound_of_run? hpast).ledger (refusing_of_run? hpast) hreplied
      have hlast := reply?_of_suffix hmoves.history_suffix hreply
      refine ⟨response, read, hreceived, hresponse, hcall, hreply, hlast, ?_⟩
      simp [Await.outcome?, hlast, Reply.toResponse, Except.map]

def firstAnswer : Bytes :=
  Response.encode { id := .text "1", outcome := .result .null }

def answerWhileWriting : List Event :=
  [.issue (.call { method := "a" }), .connects, .turn, .transmits, .arrives 0 (.ok firstAnswer),
    .arrives 0 (.error (.connectionClosed "")), .reads 0, .reads 0, .writeReturns true, .turn]

theorem answered_before_loss_while_writing
    : ∃ past c, (start {}).run? answerWhileWriting = some past ∧
        (start {}).run? (answerWhileWriting ++ [.turn]) = some c ∧
        past.step? .turn = some (past.leave 0 .lost).look ∧
        ∃ response, callOf? response.id = some 1 ∧
          (Await.response 0).outcome? c = some (.ok (.response response)) := by
  have hfirst : ((start {}).run? answerWhileWriting).map (fun c => decide (c.phase = .driving 0 ∧
      c.warned = false ∧ c.lent = none ∧ c.numbered = [(0, 0, 1)] ∧
      c.lines.map (·.buffer) = [[.error (.connectionClosed "")]] ∧
      c.history[3]? = some (.received 0 firstAnswer) ∧ .begun 0 0 (some 1) ∈ c.history.drop 4))
      = some true := by
    decide +kernel
  have hlast : ((start {}).run? (answerWhileWriting ++ [.turn])).isSome = true := by
    decide +kernel
  have hresponses : (responsesOf firstAnswer).map (fun r => callOf? r.id) = [some 1] := by
    decide +kernel
  obtain ⟨past, hpast, hfacts⟩ := Option.map_eq_some_iff.1 hfirst
  obtain ⟨hphase, hunwarned, hlent, hnumbered, hbuffers, hreceived, hbegun⟩ :=
    of_decide_eq_true hfacts
  obtain ⟨c, hrun⟩ := Option.isSome_iff_exists.1 hlast
  obtain ⟨l, hlines, hbuffer⟩ := List.map_eq_singleton_iff.1 hbuffers
  have hloss : past.FindsLoss 0 := ⟨hphase, l, _, [], by rw [hlines]; rfl, hbuffer⟩
  have hheard : past.HeardBack 0 0 1 := by
    obtain ⟨hlt, heq⟩ := List.getElem?_eq_some_iff.1 hreceived
    refine ⟨past.history.take 3, firstAnswer, past.history.drop 4, ?_, hbegun, ?_⟩
    . rw [← heq, List.getElem_cons_drop, List.take_append_drop]
    . have hmem : some 1 ∈ (responsesOf firstAnswer).map (fun r => callOf? r.id) := by
        rw [hresponses]
        exact List.mem_singleton_self _
      exact List.mem_map.1 hmem
  obtain ⟨hturn, hanswered⟩ :=
    answered_before_loss hrun hpast (by rw [hnumbered]; decide) hloss
  obtain ⟨response, message, -, -, hcall, -, -, houtcome⟩ := hanswered 0 1 hheard
  exact ⟨past, c, hpast, hrun, hturn hunwarned (by simp [reclaim?, hlent]), response, hcall, houtcome⟩

end JsonRpc.Client
