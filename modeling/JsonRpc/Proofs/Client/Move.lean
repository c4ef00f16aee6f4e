import JsonRpc.Client.Run
import JsonRpc.Proofs.Run
import Mathlib.Logic.Relation

/-!
What a client can do. Every event leads through one or more moves; a move says in one place which
parts of the client change, and under which conditions. What all moves keep, every run keeps.
-/

namespace JsonRpc.Client

def refusal (commands : List Command) (ticket : Nat) (error : ClientError) : Reply :=
  match commands[ticket]? with
  | some .lend => .dropped
  | _ => .failed error

theorem reject_eq (c : Client) (ticket : Nat) (error : ClientError)
    : c.reject ticket error = c.reply ticket (refusal c.commands ticket error) := by
  unfold reject refusal
  cases c.commands[ticket]? with
  | none => rfl
  | some command => cases command <;> rfl

theorem foldl_note {α : Type} (f : α → Occurrence) (xs : List α) (c : Client)
    : xs.foldl (fun c x => c.note (f x)) c
        =
      { c with history := (xs.map f).reverse ++ c.history } := by
  induction xs generalizing c with
  | nil => rfl
  | cons x xs ih =>
    rw [List.foldl_cons, ih]
    simp [note]

theorem foldl_reject (error : ClientError) (tickets : List Nat) (c : Client)
    : tickets.foldl (fun c ticket => c.reject ticket error) c
        =
      { c with
        history := (tickets.map fun t => .replied t (refusal c.commands t error)).reverse ++
          c.history } := by
  induction tickets generalizing c with
  | nil => rfl
  | cons ticket tickets ih =>
    rw [List.foldl_cons, ih, reject_eq]
    simp [reply, note]

theorem failPending_eq (c : Client) (exit : Exit)
    : c.failPending exit
        =
      { c with
        pending := []
        history := (c.pending.map fun e => .replied e.2 (.failed exit.error)).reverse ++
          c.history } := by
  unfold failPending reply
  rw [foldl_note (fun e : Int64 × Nat => .replied e.2 (.failed exit.error))]

theorem leave_eq (c : Client) (line : Nat) (exit : Exit)
    : c.leave line exit
        =
      { c with
        lines := c.lines.modify line Line.stop
        phase := .finishing line exit
        pending := []
        history := (c.pending.map fun e => .replied e.2 (.failed exit.error)).reverse ++
          c.history } := by
  unfold leave
  rw [failPending_eq]

theorem stop_eq (c : Client)
    : c.stop
        =
      { c with
        phase := .stopped
        mailbox := []
        waiting := []
        history := (c.waiting.map .refused).reverse ++
          ((c.mailbox.map fun t => .replied t (refusal c.commands t .closed)).reverse ++
            c.history) } := by
  unfold stop
  dsimp only
  rw [foldl_reject, foldl_note]

theorem lend_eq (c : Client) (ticket line : Nat)
    : c.lend ticket line
        =
      { c with
        hand := none
        lent := some ticket
        loans := if ticket ∈ c.abandoned then c.loans else c.loans ++ [⟨ticket, line⟩]
        returning := if ticket ∈ c.abandoned then c.returning ++ [⟨ticket, line⟩] else c.returning
        history := .replied ticket .lent :: c.history } := by
  by_cases hgone : ticket ∈ c.abandoned
  . simp [lend, reply, note, hgone]
  . simp [lend, reply, note, hgone]

def recipient? (pending : List (Int64 × Nat)) (response : Response) : Option (Int64 × Nat) :=
  (callOf? response.id).bind fun id => (pending.lookup id).map (id, ·)

def answers (pending : List (Int64 × Nat)) : List Response → List (Nat × Response)
  | [] => []
  | response :: responses =>
    match recipient? pending response with
    | none => answers pending responses
    | some (id, ticket) =>
      (ticket, response) :: answers (pending.filter (·.1 ≠ id)) responses

def unanswered (pending : List (Int64 × Nat)) : List Response → List (Int64 × Nat)
  | [] => pending
  | response :: responses =>
    match recipient? pending response with
    | none => unanswered pending responses
    | some (id, _) => unanswered (pending.filter (·.1 ≠ id)) responses

theorem deliver_eq (c : Client) (response : Response)
    : c.deliver response
        =
      match recipient? c.pending response with
      | none => c
      | some (id, ticket) =>
        { c with pending := c.pending.filter (·.1 ≠ id) }.reply ticket (.answered response) := by
  unfold deliver recipient?
  cases callOf? response.id with
  | none => rfl
  | some id =>
    dsimp only [Option.bind_some]
    cases c.pending.lookup id <;> rfl

theorem foldl_deliver (responses : List Response) (c : Client)
    : responses.foldl deliver c
        =
      { c with
        pending := unanswered c.pending responses
        history := ((answers c.pending responses).map fun a => .replied a.1 (.answered a.2)).reverse
          ++ c.history } := by
  induction responses generalizing c with
  | nil => rfl
  | cons response responses ih =>
    rw [List.foldl_cons, ih, deliver_eq, answers, unanswered]
    cases recipient? c.pending response with
    | none => rfl
    | some recipient => simp [reply, note]

def responsesOf (message : Bytes) : List Response :=
  (Response.decodeBatch message).toOption.getD []

theorem dispatch_eq (c : Client) (message : Bytes)
    : c.dispatch message
        =
      { c with
        pending := unanswered c.pending (responsesOf message)
        history := ((answers c.pending (responsesOf message)).map fun a =>
          .replied a.1 (.answered a.2)).reverse ++ c.history } := by
  unfold dispatch responsesOf
  cases Response.decodeBatch message with
  | error e => rfl
  | ok responses =>
    dsimp only
    rw [foldl_deliver]
    rfl

def Phase.driven? : Phase → Option Nat
  | .driving line | .writing line _ => some line
  | _ => none

def Phase.line? : Phase → Option Nat
  | .driving line | .writing line _ | .finishing line _ => some line
  | _ => none

def Phase.job? : Phase → Option Job
  | .writing _ job => some job
  | _ => none

def Phase.IsOffline : Phase → Prop
  | .connecting | .backingOff _ => True
  | _ => False

theorem shutdown_of_warned {c : Client} (h : c.warned) : c.shutdown := by
  unfold warned at h
  exact (Bool.and_eq_true_iff.1 h).1

structure Taking (c : Client) (line ticket : Nat) (rest : List Nat) : Prop where
  phase : c.phase = .driving line
  unwarned : c.warned = false
  lent : c.lent = none
  inbound : c.takeInbound? line = none
  mailbox : c.mailbox = ticket :: rest

/--
What a client does in one piece. A move in which something outside takes part belongs to an event,
and `A` says which events there may be.
-/
inductive Move (A : Event → Prop) (c : Client) : Client → Prop where
  | accept (command : Command) (hphase : c.phase ≠ .stopped) :
    Move A c { c with
      commands := c.commands ++ [command]
      mailbox := c.mailbox ++ [c.commands.length]
      history := .accepted c.commands.length :: c.history }
  | queue (command : Command) (hphase : c.phase ≠ .stopped) :
    Move A c { c with
      commands := c.commands ++ [command]
      waiting := c.waiting ++ [c.commands.length] }
  | refuse (command : Command) (hphase : c.phase = .stopped) :
    Move A c { c with
      commands := c.commands ++ [command]
      history := .refused c.commands.length :: c.history }
  | enter (ticket : Nat) (rest : List Nat) (hwaiting : c.waiting = ticket :: rest) :
    Move A c { c with
      waiting := rest
      mailbox := c.mailbox ++ [ticket]
      history := .accepted ticket :: c.history }
  | abandon (ticket : Nat) (hevent : A (.giveUp ticket)) :
    Move A c { c with
      waiting := c.waiting.filter (· ≠ ticket)
      abandoned := if ticket ∈ c.abandoned then c.abandoned else ticket :: c.abandoned }
  | release (ticket : Nat) (loan : Loan) (hloan : c.loan? ticket = some loan) :
    Move A c { c with
      loans := c.loans.filter (·.ticket ≠ ticket)
      returning := c.returning ++ [loan] }
  | borrowerWrites (ticket : Nat) (loan : Loan) (message : Bytes)
    (hevent : A (.borrowerWrites ticket message)) (hloan : c.loan? ticket = some loan) :
    Move A c { c with history := .transmitted loan.line loan.ticket message :: c.history }
  | shutDown (hrunning : c.shutdown = false) :
    Move A c { c with shutdown := true, history := .shutDown :: c.history }
  | closers (closers : List Closer) (joinable : Bool) :
    Move A c { c with closers, joinable }
  | look :
    Move A c { c with assured := c.watches && !c.shutdown }
  | arrive (line : Nat) (arrival : Except TransportError Bytes)
    (hevent : A (.arrives line arrival)) :
    Move A c { c with lines := c.lines.modify line fun l => { l with inbox := l.inbox ++ [arrival] } }
  | read (line : Nat) (before after : Line) (arrival : Except TransportError Bytes)
    (hline : c.lines[line]? = some before)
    (hread : before.read? c.inboundBuffer = some (arrival, after)) :
    Move A c { c with
      lines := c.lines.set line after
      history := (arrival.toOption.map (.received line)).toList ++ c.history }
  | connect (hevent : A .connects) (hphase : c.phase = .connecting)
    (hunwarned : c.warned = false) :
    Move A c { c with
      phase := .driving c.lines.length
      lines := c.lines ++ [{}]
      hand := some c.lines.length
      history := .connected c.lines.length :: c.history }
  | backOff (wake : Nat) (hphase : c.phase = .connecting) (hunwarned : c.warned = false) :
    Move A c { c with phase := .backingOff wake }
  | attempt (hphase : c.phase.IsOffline) :
    Move A c { c with phase := .connecting, history := .attempted :: c.history }
  | stop (hphase : c.phase.IsOffline) (hevent : A .turn) :
    Move A c { c with
      phase := .stopped
      mailbox := []
      waiting := []
      history := (c.waiting.map .refused).reverse ++
        ((c.mailbox.map fun t => .replied t (refusal c.commands t .closed)).reverse ++ c.history) }
  | leave (line : Nat) (exit : Exit) (hphase : c.phase = .driving line)
    (hexit : exit = .shutdown → c.warned) :
    Move A c { c with
      lines := c.lines.modify line Line.stop
      phase := .finishing line exit
      pending := []
      history := (c.pending.map fun e => .replied e.2 (.failed exit.error)).reverse ++ c.history }
  | dispatch (line : Nat) (before : Line) (message : Bytes) (rest : List (Except TransportError Bytes))
    (hphase : c.phase = .driving line) (hline : c.lines[line]? = some before)
    (hbuffer : before.buffer = .ok message :: rest) :
    Move A c { c with
      lines := c.lines.modify line fun l => { l with buffer := rest }
      pending := unanswered c.pending (responsesOf message)
      history := ((answers c.pending (responsesOf message)).map fun a =>
        .replied a.1 (.answered a.2)).reverse ++ .dispatched line message :: c.history }
  | reclaim (ticket : Nat) (loan : Loan) (hlent : c.lent = some ticket)
    (hloan : c.returning.find? (·.ticket = ticket) = some loan) (hevent : A .turn) :
    Move A c { c with
      hand := some loan.line
      lent := none
      returning := c.returning.filter (·.ticket ≠ ticket) }
  | hangUp (line : Nat) (exit : Exit) (hphase : c.phase = .finishing line exit)
    (hlent : c.lent = none) (hevent : A .turn) :
    Move A c { c with
      phase := .connecting
      hand := none
      history := (c.hand.map .lineClosed).toList ++ c.history }
  | turnAway (line ticket : Nat) (rest : List Nat) (htake : c.Taking line ticket rest)
    (hhand : c.hand = none) (hevent : A .turn) :
    Move A c { c with
      mailbox := rest
      history := .replied ticket (refusal c.commands ticket .interrupted) :: c.history }
  | dropCall (line ticket : Nat) (rest : List Nat) (request : Request)
    (htake : c.Taking line ticket rest) (hhand : c.hand ≠ none)
    (hcommand : c.commands[ticket]? = some (.call request))
    (hgone : ticket ∈ c.abandoned) (hevent : A .turn) :
    Move A c { c with mailbox := rest, history := .replied ticket .dropped :: c.history }
  | beginCall (line ticket : Nat) (rest : List Nat) (request : Request)
    (htake : c.Taking line ticket rest) (hhand : c.hand ≠ none)
    (hcommand : c.commands[ticket]? = some (.call request))
    (hpresent : ticket ∉ c.abandoned) (hevent : A .turn) :
    Move A c { c with
      mailbox := rest
      nextId := c.nextId + 1
      phase := .writing line { ticket, id := some c.nextId, request := request.numbered c.nextId }
      history := .begun line ticket (some c.nextId) :: c.history }
  | beginNotify (line ticket : Nat) (rest : List Nat) (request : Request)
    (htake : c.Taking line ticket rest) (hhand : c.hand ≠ none)
    (hcommand : c.commands[ticket]? = some (.notify request)) (hevent : A .turn) :
    Move A c { c with
      mailbox := rest
      phase := .writing line { ticket, id := none, request }
      history := .begun line ticket none :: c.history }
  | skip (line ticket : Nat) (rest : List Nat) (htake : c.Taking line ticket rest)
    (hcommand : c.commands[ticket]? = none) (hevent : A .turn) :
    Move A c { c with mailbox := rest }
  | lend (line ticket : Nat) (rest : List Nat) (htake : c.Taking line ticket rest)
    (hhand : c.hand ≠ none) (hcommand : c.commands[ticket]? = some .lend) (hevent : A .turn) :
    Move A c { c with
      mailbox := rest
      hand := none
      lent := some ticket
      loans := if ticket ∈ c.abandoned then c.loans else c.loans ++ [⟨ticket, line⟩]
      returning := if ticket ∈ c.abandoned then c.returning ++ [⟨ticket, line⟩] else c.returning
      history := .replied ticket .lent :: c.history }
  | transmit (line : Nat) (job : Job) (hevent : A .transmits) (hphase : c.phase = .writing line job)
    (hunwarned : c.warned = false) (hfirst : job.transmitted = false) :
    Move A c { c with
      phase := .writing line { job with transmitted := true }
      history := .transmitted line job.ticket job.request.encode :: c.history }
  | finishCall (line : Nat) (job : Job) (id : Int64) (hphase : c.phase = .writing line job)
    (hunwarned : c.warned = false) (hid : job.id = some id) (htransmitted : job.transmitted) :
    Move A c { c with
      phase := .driving line
      pending := c.pending.filter (·.1 ≠ id) ++ [(id, job.ticket)]
      history := ((c.pending.lookup id).map (.replied · .dropped)).toList ++
        .written line job.ticket :: c.history }
  | finishNotify (line : Nat) (job : Job) (hphase : c.phase = .writing line job)
    (hunwarned : c.warned = false) (hid : job.id = none) (htransmitted : job.transmitted) :
    Move A c { c with
      phase := .driving line
      history := .replied job.ticket .sent :: .written line job.ticket :: c.history }
  | breakOff (line : Nat) (job : Job) (exit : Exit) (hphase : c.phase = .writing line job)
    (hexit : exit = .shutdown ↔ c.warned) :
    Move A c { c with
      phase := .driving line
      history := .replied job.ticket (.failed exit.error) :: c.history }

inductive Turn (c : Client) : Client → Prop where
  | stops (hphase : c.phase.IsOffline) (hwarned : c.warned) : Turn c c.stop
  | quits (line : Nat) (hphase : c.phase = .driving line) (hlent : c.lent = none)
    (hwarned : c.warned) :
    Turn c (c.leave line .shutdown)
  | hears (line : Nat) {c' : Client} (hphase : c.phase = .driving line)
    (hinbound : c.takeInbound? line = some c') :
    Turn c c'
  | takes (line ticket : Nat) (rest : List Nat) (htake : c.Taking line ticket rest) :
    Turn c ({ c with mailbox := rest }.carryOut line ticket)
  | reclaims {c' : Client} (hreclaim : c.reclaim? = some c') : Turn c c'
  | breaksOff (line : Nat) (job : Job) (hphase : c.phase = .writing line job)
    (hwarned : c.warned) :
    Turn c ((c.reply job.ticket (.failed .closed)).leave line .shutdown)
  | closes (line : Nat) (exit : Exit) (hphase : c.phase = .finishing line exit)
    (hlent : c.lent = none) :
    Turn c (c.closeLine exit)

abbrev Moves (A : Event → Prop) : Client → Client → Prop :=
  Relation.ReflTransGen (Move A)

section Moves

variable {A : Event → Prop}

theorem enqueue_moves (c : Client) (command : Command) : Moves A c (c.enqueue command) := by
  unfold enqueue
  dsimp only
  split
  . next hstopped => exact .single (.refuse command (by simpa [isStopped] using hstopped))
  . next hopen =>
    have hphase : c.phase ≠ .stopped := by simpa [isStopped] using hopen
    split
    . exact .single (.accept command hphase)
    . exact .single (.queue command hphase)

theorem enter?_moves {c c' : Client} (h : c.enter? = some c') : Moves A c c' := by
  unfold enter? at h
  split at h
  . cases h
  . next ticket rest hwaiting =>
    split at h
    . cases h
      exact .single (.enter ticket rest hwaiting)
    . cases h

theorem release_moves (c : Client) (ticket : Nat) : Moves A c (c.release ticket) := by
  unfold release
  split
  . next loan hloan => exact .single (.release ticket loan hloan)
  . exact .refl

theorem giveUp_moves (c : Client) (ticket : Nat) (hevent : A (.giveUp ticket))
    : Moves A c (c.giveUp ticket) := by
  unfold giveUp
  apply Relation.ReflTransGen.trans
  . exact .single (.abandon ticket hevent)
  . apply release_moves

theorem borrowerWrites?_moves {c c' : Client} {ticket : Nat} {message : Bytes}
    (h : c.borrowerWrites? ticket message = some c') (hevent : A (.borrowerWrites ticket message))
    : Moves A c c' := by
  unfold borrowerWrites? at h
  obtain ⟨loan, hloan, rfl⟩ := Option.map_eq_some_iff.1 h
  exact .single (.borrowerWrites ticket loan message hevent hloan)

theorem shutDown_moves (c : Client) : Moves A c c.shutDown := by
  unfold shutDown
  split
  . exact .refl
  . next hrunning => exact .single (.shutDown (by simpa using hrunning))

theorem close_moves (c : Client) : Moves A c c.close := by
  unfold close
  apply Relation.ReflTransGen.trans
  . apply shutDown_moves
  . exact .single (.closers _ _)

theorem closerTurn?_moves {c c' : Client} {closer : Nat} (h : c.closerTurn? closer = some c')
    : Moves A c c' := by
  unfold closerTurn? at h
  split at h
  . split at h
    . split at h <;> cases h <;> exact .single (.closers _ _)
    . cases h
  . split at h <;> cases h
    exact .single (.closers _ _)
  . cases h

theorem abandonClose_moves (c : Client) (closer : Nat) : Moves A c (c.abandonClose closer) := by
  exact .single (.closers _ _)

theorem arrives_moves (c : Client) (line : Nat) (arrival : Except TransportError Bytes)
    (hevent : A (.arrives line arrival)) : Moves A c (c.arrives line arrival) := by
  exact .single (.arrive line arrival hevent)

theorem reads?_moves {c c' : Client} {line : Nat} (h : c.reads? line = some c') : Moves A c c' := by
  unfold reads? at h
  obtain ⟨⟨arrival, after⟩, hread, rfl⟩ := Option.map_eq_some_iff.1 h
  obtain ⟨before, hline, hread⟩ := Option.bind_eq_some_iff.1 hread
  have : Move A c _ := .read line before after arrival hline hread
  cases arrival <;> exact .single this

theorem connects?_cases {c c' : Client} (h : c.connects? = some c')
    : c.phase = .connecting ∧ c.warned = false ∧
        c' = { c with
          phase := .driving c.lines.length
          lines := c.lines ++ [({} : Line)]
          hand := some c.lines.length
          history := .connected c.lines.length :: c.history } := by
  unfold connects? at h
  split at h
  . next hphase hunwarned =>
    cases h
    exact ⟨hphase, hunwarned, rfl⟩
  . cases h

theorem connects?_moves {c c' : Client} (h : c.connects? = some c') (hevent : A .connects)
    : Moves A c c' := by
  obtain ⟨hphase, hunwarned, rfl⟩ := connects?_cases h
  exact .single (.connect hevent hphase hunwarned)

theorem failsToConnect?_cases {c c' : Client} {wake : Nat} (h : c.failsToConnect? wake = some c')
    : c.phase = .connecting ∧ c.warned = false ∧ c' = { c with phase := .backingOff wake } := by
  unfold failsToConnect? at h
  split at h
  . next hphase hunwarned =>
    cases h
    exact ⟨hphase, hunwarned, rfl⟩
  . cases h

theorem failsToConnect?_moves {c c' : Client} {wake : Nat} (h : c.failsToConnect? wake = some c')
    : Moves A c c' := by
  obtain ⟨hphase, hunwarned, rfl⟩ := failsToConnect?_cases h
  exact .single (.backOff wake hphase hunwarned)

theorem wakes?_moves {c c' : Client} (h : c.wakes? = some c') : Moves A c c' := by
  unfold wakes? at h
  split at h
  . next hphase hunwarned =>
    cases h
    exact .single (.attempt (by rw [hphase]; trivial))
  . cases h

theorem transmits?_cases {c c' : Client} (h : c.transmits? = some c')
    : ∃ line job, c.phase = .writing line job ∧ c.warned = false ∧ job.transmitted = false ∧
        c' = { c with phase := .writing line { job with transmitted := true } }.note
          (.transmitted line job.ticket job.request.encode) := by
  unfold transmits? at h
  split at h
  . next line job hphase =>
    split at h
    . cases h
    . next hnot =>
      cases h
      simp only [Bool.or_eq_true, not_or, Bool.not_eq_true] at hnot
      exact ⟨line, job, hphase, hnot.1, hnot.2, rfl⟩
  . cases h

theorem transmits?_moves {c c' : Client} (h : c.transmits? = some c') (hevent : A .transmits)
    : Moves A c c' := by
  obtain ⟨line, job, hphase, hunwarned, hfirst, rfl⟩ := transmits?_cases h
  exact .single (.transmit line job hevent hphase hunwarned hfirst)

theorem stop_moves {c : Client} (hphase : c.phase.IsOffline) (hevent : A .turn)
    : Moves A c c.stop := by
  rw [stop_eq]
  exact .single (.stop hphase hevent)

theorem leave_moves {c : Client} {line : Nat} {exit : Exit} (hphase : c.phase = .driving line)
    (hexit : exit = .shutdown → c.warned) : Moves A c (c.leave line exit) := by
  rw [leave_eq]
  exact .single (.leave line exit hphase hexit)

theorem breakOff_moves {c : Client} {line : Nat} {job : Job} {exit : Exit}
    (hphase : c.phase = .writing line job) (hexit : exit = .shutdown ↔ c.warned)
    : Moves A c ((c.reply job.ticket (.failed exit.error)).leave line exit) := by
  -- The caller is told first, and then the line is left.
  apply Relation.ReflTransGen.tail (b := { c with
    phase := .driving line
    history := .replied job.ticket (.failed exit.error) :: c.history })
  . exact .single (.breakOff line job exit hphase hexit)
  . rw [leave_eq]
    exact .leave line exit rfl hexit.1

theorem closeLine_moves {c : Client} {line : Nat} {exit : Exit}
    (hphase : c.phase = .finishing line exit) (hlent : c.lent = none) (hevent : A .turn)
    : Moves A c (c.closeLine exit) := by
  apply Relation.ReflTransGen.trans
  . exact .single (.hangUp line exit hphase hlent hevent)
  . cases exit with
    | shutdown =>
      have : Moves A _ _ := stop_moves (c := { c with
        phase := .connecting
        hand := none
        history := (c.hand.map .lineClosed).toList ++ c.history }) trivial hevent
      rw [stop_eq] at this
      unfold closeLine
      cases hhand : c.hand <;> simpa [hhand, stop_eq, note] using this
    | lost =>
      have : Move A _ _ := .attempt (c := { c with
        phase := .connecting
        hand := none
        history := (c.hand.map .lineClosed).toList ++ c.history }) trivial
      unfold closeLine
      cases hhand : c.hand <;> exact .single (by simpa [hhand, attempt, note] using this)

theorem reclaim?_cases {c c' : Client} (h : c.reclaim? = some c')
    : ∃ ticket loan, c.lent = some ticket ∧ c.returning.find? (·.ticket = ticket) = some loan ∧
        c' = { c with
          hand := some loan.line
          lent := none
          returning := c.returning.filter (·.ticket ≠ ticket) } := by
  unfold reclaim? at h
  split at h
  . cases h
  . next ticket hlent =>
    obtain ⟨loan, hloan, rfl⟩ := Option.map_eq_some_iff.1 h
    exact ⟨ticket, loan, hlent, hloan, rfl⟩

theorem reclaim?_moves {c c' : Client} (h : c.reclaim? = some c') (hevent : A .turn)
    : Moves A c c' := by
  obtain ⟨ticket, loan, hlent, hloan, rfl⟩ := reclaim?_cases h
  exact .single (.reclaim ticket loan hlent hloan hevent)

theorem takeInbound?_moves {c c' : Client} {line : Nat} (hphase : c.phase = .driving line)
    (h : c.takeInbound? line = some c') : Moves A c c' := by
  unfold takeInbound? at h
  split at h
  . next inbox message rest reading hline =>
    cases h
    rw [dispatch_eq]
    exact .single (.dispatch line _ message rest hphase hline rfl)
  . cases h
    exact leave_moves hphase (by simp)
  . cases h

theorem carryOut_moves {c : Client} {line ticket : Nat} {rest : List Nat}
    (htake : c.Taking line ticket rest) (hevent : A .turn)
    : Moves A c ({ c with mailbox := rest }.carryOut line ticket) := by
  unfold carryOut
  dsimp only
  split
  . next hhand =>
    rw [reject_eq]
    apply Relation.ReflTransGen.trans
    . exact .single (.turnAway line ticket rest htake hhand hevent)
    . exact leave_moves htake.phase (by simp)
  . next hhand =>
    have hhand : c.hand ≠ none := by simp [hhand]
    split
    . next request hcommand =>
      split
      . next hgone =>
        exact .single (.dropCall line ticket rest request htake hhand hcommand hgone hevent)
      . next hpresent =>
        exact .single (.beginCall line ticket rest request htake hhand hcommand hpresent hevent)
    . next request hcommand =>
      exact .single (.beginNotify line ticket rest request htake hhand hcommand hevent)
    . next hcommand =>
      rw [lend_eq]
      exact .single (.lend line ticket rest htake hhand hcommand hevent)
    . next hcommand => exact .single (.skip line ticket rest htake hcommand hevent)

theorem writeReturns?_moves {c c' : Client} {succeeds : Bool}
    (h : c.writeReturns? succeeds = some c') : Moves A c c' := by
  unfold writeReturns? at h
  split at h
  . next line job hphase =>
    split at h
    . cases h
    . next hwarned =>
      have hunwarned : c.warned = false := by simpa using hwarned
      split at h
      . split at h
        . next htransmitted =>
          cases h
          split
          . next id hid =>
            have : Move A c _ := .finishCall line job id hphase hunwarned hid htransmitted
            unfold await note
            dsimp only
            cases hlookup : c.pending.lookup id <;>
              exact .single (by simpa [hlookup, reply, note] using this)
          . next hid => exact .single (.finishNotify line job hphase hunwarned hid htransmitted)
        . cases h
      . cases h
        exact breakOff_moves hphase (by simp [hunwarned])
  . cases h

theorem turn?_cases {c c' : Client} (h : c.turn? = some c') : Turn c c' := by
  -- The cases are the phases, in each of which the owner looks for work in the order of `turn?`.
  unfold turn? at h
  split at h
  . next hphase =>
    split at h <;> cases h
    next hwarned => exact .stops (by rw [hphase]; trivial) hwarned
  . next wake hphase =>
    split at h <;> cases h
    next hwarned => exact .stops (by rw [hphase]; trivial) hwarned
  . next line hphase =>
    split at h
    . next hlent =>
      split at h
      . next hwarned =>
        cases h
        exact .quits line hphase hlent hwarned
      . next hwarned =>
        cases hinbound : c.takeInbound? line with
        | some next =>
          rw [hinbound] at h
          cases h
          exact .hears line hphase hinbound
        | none =>
          rw [hinbound] at h
          change c.take? line = some c' at h
          unfold take? at h
          split at h
          . cases h
          . next ticket rest hmailbox =>
            cases h
            exact .takes line ticket rest
              ⟨hphase, by simpa using hwarned, hlent, hinbound, hmailbox⟩
    . cases hreclaim : c.reclaim? with
      | some next =>
        rw [hreclaim] at h
        cases h
        exact .reclaims hreclaim
      | none =>
        rw [hreclaim] at h
        exact .hears line hphase h
  . next line job hphase =>
    split at h <;> cases h
    next hwarned => exact .breaksOff line job hphase hwarned
  . next line exit hphase =>
    split at h
    . next hlent =>
      cases h
      exact .closes line exit hphase hlent
    . exact .reclaims h
  . cases h

theorem turn?_moves {c c' : Client} (h : c.turn? = some c') (hevent : A .turn)
    : Moves A c c' := by
  cases turn?_cases h with
  | stops hphase => exact stop_moves hphase hevent
  | quits line hphase _ hwarned => exact leave_moves hphase fun _ => hwarned
  | hears line hphase hinbound => exact takeInbound?_moves hphase hinbound
  | takes line ticket rest htake => exact carryOut_moves htake hevent
  | reclaims hreclaim => exact reclaim?_moves hreclaim hevent
  | breaksOff line job hphase hwarned => exact breakOff_moves hphase (by simp [hwarned])
  | closes line exit hphase hlent => exact closeLine_moves hphase hlent hevent

theorem step?_moves {c c' : Client} {event : Event} (h : c.step? event = some c')
    (hevent : A event) : Moves A c c' := by
  cases event with
  | issue command =>
    simp only [step?, issue?] at h
    split at h <;> cases h
    apply enqueue_moves
  | enqueue command =>
    cases h
    apply enqueue_moves
  | enter => exact enter?_moves h
  | giveUp ticket =>
    cases h
    exact giveUp_moves _ _ hevent
  | look =>
    cases h
    exact .single .look
  | turn =>
    obtain ⟨next, hturn, rfl⟩ := Option.map_eq_some_iff.1 h
    exact (turn?_moves hturn hevent).tail .look
  | connects =>
    obtain ⟨next, hconnects, rfl⟩ := Option.map_eq_some_iff.1 h
    exact (connects?_moves hconnects hevent).tail .look
  | failsToConnect wake =>
    obtain ⟨next, hfails, rfl⟩ := Option.map_eq_some_iff.1 h
    exact (failsToConnect?_moves hfails).tail .look
  | wakes =>
    obtain ⟨next, hwakes, rfl⟩ := Option.map_eq_some_iff.1 h
    exact (wakes?_moves hwakes).tail .look
  | transmits => exact transmits?_moves h hevent
  | writeReturns succeeds =>
    obtain ⟨next, hreturns, rfl⟩ := Option.map_eq_some_iff.1 h
    exact (writeReturns?_moves hreturns).tail .look
  | arrives line arrival =>
    cases h
    exact arrives_moves _ _ _ hevent
  | reads line => exact reads?_moves h
  | borrowerWrites ticket message => exact borrowerWrites?_moves h hevent
  | release ticket =>
    cases h
    apply release_moves
  | shutDown =>
    cases h
    apply shutDown_moves
  | close =>
    cases h
    apply close_moves
  | closerTurn closer => exact closerTurn?_moves h
  | abandonClose closer =>
    cases h
    apply abandonClose_moves

theorem run?_moves {events : List Event} {c c' : Client} (h : c.run? events = some c')
    (hevents : ∀ event ∈ events, A event) : Moves A c c' := by
  induction events generalizing c with
  | nil =>
    cases h
    exact .refl
  | cons event events ih =>
    obtain ⟨next, hstep, hrest⟩ := exists_step_of_foldlM h
    simp only [List.forall_mem_cons] at hevents
    exact (step?_moves hstep hevents.1).trans (ih hrest hevents.2)

theorem Moves.keep {P : Client → Prop} (hkeep : ∀ c c', P c → Move A c c' → P c') {c c' : Client}
    (h : Moves A c c') (hc : P c) : P c' := by
  induction h with
  | refl => exact hc
  | tail _ hmove ih => exact hkeep _ _ ih hmove

theorem keeps_of_run? {P : Client → Prop} {events : List Event}
    (hkeep : ∀ c c', P c → Move (· ∈ events) c c' → P c') {config : ClientConfig}
    (hstart : P (start config)) {c : Client} (h : (start config).run? events = some c) : P c := by
  exact (run?_moves h fun _ hevent => hevent).keep hkeep hstart

end Moves

end JsonRpc.Client
