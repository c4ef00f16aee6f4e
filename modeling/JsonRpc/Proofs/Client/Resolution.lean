import JsonRpc.Proofs.Client.Breakdown
import JsonRpc.Proofs.Client.Looking
import Mathlib.Algebra.Group.Nat.Defs

/-!
How commands are resolved. Each accepted command is resolved at most once, in a way that fits it,
and none is left once the owner has stopped.
-/

namespace JsonRpc.Client

variable {A : Event → Prop}

inductive Command.Permits : Command → Reply → Prop where
  | answered (request : Request) (response : Response) :
    Permits (.call request) (.answered response)
  | dropped (request : Request) : Permits (.call request) .dropped
  | sent (request : Request) : Permits (.notify request) .sent
  | callFailed (request : Request) (exit : Exit) : Permits (.call request) (.failed exit.error)
  | notifyFailed (request : Request) (exit : Exit) : Permits (.notify request) (.failed exit.error)
  | lent : Permits .lend .lent
  | turnedAway : Permits .lend .dropped

def MayDrop (c : Client) (ticket : Nat) : Command → Prop
  | .call _ => ticket ∈ c.abandoned
  | .notify _ => False
  | .lend => c.phase = .stopped

def Fits (c : Client) (ticket : Nat) (reply : Reply) : Prop :=
  ∃ command, c.commands[ticket]? = some command ∧ command.Permits reply ∧
    (reply = .dropped → c.numbered.length ≤ 2 ^ 64 → c.MayDrop ticket command)

theorem Writing.call_of_pending {c : Client} (h : Writing c) {e : Int64 × Nat}
    (he : e ∈ c.pending) : ∃ request, c.commands[e.2]? = some (.call request) := by
  obtain ⟨line, -, hsent⟩ := h.pending e he
  exact hsent.call

theorem permits_refusal {c : Client} (h : Ledger c) {ticket : Nat} (hmem : ticket ∈ c.mailbox)
    (exit : Exit)
    : ∃ command, c.commands[ticket]? = some command ∧
        command.Permits (refusal c.commands ticket exit.error) ∧
        (refusal c.commands ticket exit.error = .dropped → command = .lend) := by
  have hlt := h.lt_of_mem_mailbox hmem
  have hsome : c.commands[ticket]? = some c.commands[ticket] := List.getElem?_eq_getElem hlt
  refine ⟨c.commands[ticket], hsome, ?_⟩
  unfold refusal
  rw [hsome]
  cases c.commands[ticket] with
  | call request => exact ⟨.callFailed request exit, by simp⟩
  | notify request => exact ⟨.notifyFailed request exit, by simp⟩
  | lend => exact ⟨.turnedAway, by simp⟩

theorem permits_failure {c : Client} (h : Writing c) {line : Nat} {job : Job}
    (hphase : c.phase = .writing line job) (exit : Exit)
    : ∃ command, c.commands[job.ticket]? = some command ∧
        command.Permits (.failed exit.error) := by
  obtain ⟨hrequest, -⟩ := h.job line job hphase
  cases hid : job.id with
  | some id =>
    rw [hid] at hrequest
    obtain ⟨request, hcommand⟩ := call_of_requestOf? hrequest
    exact ⟨_, hcommand, .callFailed request exit⟩
  | none =>
    rw [hid] at hrequest
    exact ⟨_, notify_of_requestOf? hrequest, .notifyFailed job.request exit⟩

theorem Move.abandoned {c c' : Client} {ticket : Nat} (h : ticket ∈ c.abandoned)
    (hmove : Move A c c') : ticket ∈ c'.abandoned := by
  cases hmove with
  | abandon ticket' =>
    dsimp only
    split
    . exact h
    . exact List.mem_cons_of_mem _ h
  | _ => exact h

theorem Move.stopped {c c' : Client} (h : c.phase = .stopped) (hmove : Move A c c')
    : c'.phase = .stopped := by
  cases hmove with
  | connect hevent hphase | backOff wake hphase | leave line exit hphase | hangUp line exit hphase
  | transmit line job hevent hphase | finishCall line job id hphase | finishNotify line job hphase
  | breakOff line job exit hphase =>
    rw [hphase] at h
    cases h
  | attempt hphase =>
    rw [h] at hphase
    exact hphase.elim
  | beginCall line ticket rest request htake | beginNotify line ticket rest request htake =>
    rw [htake.phase] at h
    cases h
  | stop => rfl
  | _ => exact h

theorem MayDrop.move {c c' : Client} {ticket : Nat} {command : Command}
    (h : c.MayDrop ticket command) (hmove : Move A c c') : c'.MayDrop ticket command := by
  cases command with
  | call request => exact Move.abandoned h hmove
  | notify => exact h
  | lend => exact Move.stopped h hmove

theorem Fits.move {c c' : Client} {ticket : Nat} {reply : Reply} (h : c.Fits ticket reply)
    (hmove : Move A c c') : c'.Fits ticket reply := by
  obtain ⟨command, hcommand, hpermits, hdrop⟩ := h
  obtain ⟨⟨more, hmore⟩, -⟩ := hmove.grows
  refine ⟨command, ?_, hpermits, ?_⟩
  . rw [hmore]
    exact getElem?_append_of_eq_some hcommand more
  . intro hdropped hcount
    have hle := hmove.numbered_suffix.length_le
    exact (hdrop hdropped (by omega)).move hmove

theorem fits_of_move {c c' : Client} (h : Sound c) (hmove : Move A c c') {ticket : Nat}
    {reply : Reply} (hmem : .replied ticket reply ∈ c'.history)
    : .replied ticket reply ∈ c.history ∨ c'.Fits ticket reply := by
  have hcalls := hmove.numbered_suffix.length_le
  cases hmove with
  | queue | abandon | release | closers | look | arrive | backOff | reclaim | skip => exact .inl hmem
  | accept | refuse | enter | borrowerWrites | shutDown | connect | attempt | beginCall | beginNotify
  | transmit =>
    exact .inl (by simpa using hmem)
  | read line before after arrival =>
    cases arrival <;> exact .inl (by simpa [Except.toOption] using hmem)
  | hangUp => cases hhand : c.hand <;> exact .inl (by simpa [hhand] using hmem)
  | stop hphase =>
    simp only [List.mem_append, List.mem_reverse, List.mem_map] at hmem
    rcases hmem with ⟨t, -, heq⟩ | ⟨t, ht, heq⟩ | hmem
    . cases heq
    . cases heq
      obtain ⟨command, hcommand, hpermits, hlend⟩ := permits_refusal h.ledger ht .shutdown
      refine .inr ⟨command, hcommand, hpermits, ?_⟩
      intro hdropped _
      rw [hlend hdropped]
      rfl
    . exact .inl hmem
  | leave line exit =>
    simp only [List.mem_append, List.mem_reverse, List.mem_map] at hmem
    rcases hmem with ⟨e, he, heq⟩ | hmem
    . cases heq
      obtain ⟨request, hcommand⟩ := h.writing.call_of_pending he
      exact .inr ⟨_, hcommand, .callFailed request exit, by simp⟩
    . exact .inl hmem
  | dispatch line before message rest =>
    simp only [List.mem_append, List.mem_reverse, List.mem_map, List.mem_cons] at hmem
    rcases hmem with ⟨answer, hanswer, heq⟩ | heq | hmem
    . cases heq
      obtain ⟨id, -, hpending⟩ := exists_of_mem_answers hanswer
      obtain ⟨request, hcommand⟩ := h.writing.call_of_pending hpending
      exact .inr ⟨_, hcommand, .answered request answer.2, by simp⟩
    . cases heq
    . exact .inl hmem
  | turnAway line ticket' rest htake hhand =>
    -- The writer is in the owner's hand whenever a command is taken.
    rw [h.custody.hand_of_taking htake] at hhand
    cases hhand
  | dropCall line ticket' rest request htake hhand hcommand hgone =>
    rcases List.mem_cons.1 hmem with heq | hmem
    . cases heq
      exact .inr ⟨_, hcommand, .dropped request, fun _ _ => hgone⟩
    . exact .inl hmem
  | lend line ticket' rest htake hhand hcommand =>
    rcases List.mem_cons.1 hmem with heq | hmem
    . cases heq
      exact .inr ⟨_, hcommand, .lent, by simp⟩
    . exact .inl hmem
  | finishCall line job id hphase hrunning hid =>
    simp only [List.mem_append, Option.mem_toList, Option.map_eq_some_iff, List.mem_cons] at hmem
    rcases hmem with ⟨earlier, hlookup, heq⟩ | heq | hmem
    . cases heq
      obtain ⟨request, hcommand⟩ := h.writing.call_of_pending (mem_of_lookup hlookup)
      refine .inr ⟨_, hcommand, .dropped request, ?_⟩
      -- Nobody waits under the identifier of the call that is written.
      intro _ hcount
      have hcount := Nat.le_trans hcalls hcount
      rw [h.numbering.lookup_of_writing hcount hphase hid] at hlookup
      cases hlookup
    . cases heq
    . exact .inl hmem
  | finishNotify line job hphase hrunning hid =>
    simp only [List.mem_cons] at hmem
    rcases hmem with heq | heq | hmem
    . cases heq
      obtain ⟨hrequest, -⟩ := h.writing.job line job hphase
      rw [hid] at hrequest
      exact .inr ⟨_, notify_of_requestOf? hrequest, .sent job.request, by simp⟩
    . cases heq
    . exact .inl hmem
  | breakOff line job exit hphase =>
    rcases List.mem_cons.1 hmem with heq | hmem
    . cases heq
      obtain ⟨command, hcommand, hpermits⟩ := permits_failure h.writing hphase exit
      exact .inr ⟨command, hcommand, hpermits, by simp⟩
    . exact .inl hmem

theorem Fits.breakDown {c : Client} {ticket : Nat} {reply : Reply} (h : c.Fits ticket reply)
    : c.breakDown.Fits ticket reply := by
  obtain ⟨command, hcommand, hpermits, hdrop⟩ := h
  refine ⟨command, by rwa [breakDown_eq], hpermits, ?_⟩
  intro hdropped hcount
  rw [numbered_breakDown] at hcount
  have hmay := hdrop hdropped hcount
  rw [breakDown_eq]
  cases command with
  | call | notify => exact hmay
  | lend => rfl

def Fitting (c : Client) : Prop :=
  ∀ ticket reply, .replied ticket reply ∈ c.history →
    c.Fits ticket reply ∨ reply = .dropped ∧ .brokeDown ∈ c.history

theorem Fitting.move {c c' : Client} (h : Fitting c) (hsound : Sound c) (hmove : Move A c c')
    : Fitting c' := by
  intro ticket reply hmem
  rcases fits_of_move hsound hmove hmem with hold | hnew
  . rcases h ticket reply hold with hfits | ⟨hdropped, hbroken⟩
    . exact .inl (hfits.move hmove)
    . exact .inr ⟨hdropped, hmove.grows.2.subset hbroken⟩
  . exact .inl hnew

theorem Fitting.breakDown {c : Client} (h : Fitting c) : Fitting c.breakDown := by
  intro ticket reply hmem
  have hbroken := mem_breakDown c
  have hreplied : reply = .dropped ∨ .replied ticket reply ∈ c.history := by
    rw [breakDown_eq] at hmem
    simp only [List.mem_append, List.mem_reverse, List.mem_map, List.mem_cons] at hmem
    rcases hmem with ⟨t, -, heq⟩ | ⟨t, -, heq⟩ | heq | hold
    . cases heq
    . cases heq
      exact .inl rfl
    . cases heq
    . exact .inr hold
  rcases hreplied with hdropped | hold
  . exact .inr ⟨hdropped, hbroken⟩
  . rcases h ticket reply hold with hfits | ⟨hdropped, -⟩
    . exact .inl hfits.breakDown
    . exact .inr ⟨hdropped, hbroken⟩

def Event.IsOwn : Event → Prop
  | .look | .turn | .release _ => True
  | _ => False

/-- The owner comes to its end by itself, once borrowers give its writer back. -/
def Ends (c : Client) : Prop :=
  ∃ events c', (∀ e ∈ events, e.IsOwn) ∧ c.run? events = some c' ∧ c'.phase = .stopped

theorem ends_of_step {c next : Client} (event : Event) (hown : event.IsOwn)
    (hstep : c.step? event = some next) (h : next.Ends) : c.Ends := by
  obtain ⟨events, c', hevents, hrun, hstopped⟩ := h
  refine ⟨event :: events, c', ?_, ?_, hstopped⟩
  . intro e he
    rcases List.mem_cons.1 he with rfl | he
    . exact hown
    . exact hevents e he
  . unfold run? at *
    rw [List.foldlM_cons, hstep]
    exact hrun

theorem ends_of_turn {c next : Client} (hturn : c.turn? = some next) (h : next.look.Ends)
    : c.Ends := by
  apply ends_of_step .turn trivial _ h
  unfold step?
  rw [hturn]
  rfl

theorem ends_of_stopped {c : Client} (h : c.phase = .stopped) : c.Ends := by
  exact ⟨[], c, by simp, rfl, h⟩

theorem ends_stop (c : Client) : c.stop.look.Ends := by
  apply ends_of_stopped
  rw [stop_eq]
  rfl

theorem warned_of_shutdown {c : Client} (h : c.shutdown) : c.look.warned := by
  rw [warned_look, h]

theorem ends_of_isOffline {c : Client} (hphase : c.phase.IsOffline) (hwarned : c.warned)
    : c.Ends := by
  have hturn : c.turn? = some c.stop := by
    unfold turn?
    cases hp : c.phase with
    | connecting | backingOff => exact if_pos hwarned
    | driving | writing | finishing | stopped =>
      rw [hp] at hphase
      exact hphase.elim
  exact ends_of_turn hturn (ends_stop c)

theorem ends_of_finishing {c : Client} {line : Nat} {exit : Exit}
    (hphase : c.phase = .finishing line exit) (hlent : c.lent = none) (hshut : c.shutdown)
    : c.Ends := by
  have hturn : c.turn? = some (c.closeLine exit) := by
    unfold turn?
    rw [hphase, hlent]
  apply ends_of_turn hturn
  unfold closeLine
  cases exit with
  | shutdown => apply ends_stop
  | lost =>
    apply ends_of_isOffline
    . trivial
    . apply warned_of_shutdown
      cases hhand : c.hand <;> simpa [attempt, note] using hshut

theorem ends_of_driving {c : Client} {line : Nat} (hphase : c.phase = .driving line)
    (hlent : c.lent = none) (hwarned : c.warned) (hshut : c.shutdown) : c.Ends := by
  have hturn : c.turn? = some (c.leave line .shutdown) := by
    unfold turn?
    rw [hphase, hlent]
    exact if_pos hwarned
  apply ends_of_turn hturn
  rw [leave_eq]
  exact ends_of_finishing rfl hlent hshut

theorem ends_of_writing {c : Client} {line : Nat} {job : Job} (hphase : c.phase = .writing line job)
    (hlent : c.lent = none) (hwarned : c.warned) (hshut : c.shutdown) : c.Ends := by
  have hturn : c.turn?
      = some ((c.reply job.ticket (.failed .closed)).leave line .shutdown) := by
    unfold turn?
    rw [hphase]
    exact if_pos hwarned
  apply ends_of_turn hturn
  rw [leave_eq]
  exact ends_of_finishing rfl hlent hshut

theorem ends_of_home {c : Client} (hlent : c.lent = none) (hshut : c.shutdown) : c.Ends := by
  have hwarned : c.look.warned := warned_of_shutdown hshut
  apply ends_of_step .look trivial rfl
  cases hphase : c.look.phase with
  | connecting => exact ends_of_isOffline (by rw [hphase]; trivial) hwarned
  | backingOff wake => exact ends_of_isOffline (by rw [hphase]; trivial) hwarned
  | driving line => exact ends_of_driving hphase hlent hwarned hshut
  | writing line job => exact ends_of_writing hphase hlent hwarned hshut
  | finishing line exit => exact ends_of_finishing hphase hlent hshut
  | stopped => exact ends_of_stopped hphase

theorem turn?_of_lent {c : Client} (h : Custody c) {ticket : Nat} (hlent : c.lent = some ticket)
    (hloans : c.loans = [])
    : ∃ next, c.turn? = some next ∧ next.lent = none ∧ next.shutdown = c.shutdown := by
  obtain ⟨-, line, hline, ⟨hloans', -⟩ | ⟨-, hreturning⟩⟩ := h.away hlent
  . simp [hloans] at hloans'
  . have hreclaim : c.reclaim? = some { c with hand := some line, lent := none, returning := [] } := by
      simp [reclaim?, hlent, hreturning]
    refine ⟨{ c with hand := some line, lent := none, returning := [] }, ?_, rfl, rfl⟩
    have hwriting := h.writing
    unfold turn?
    cases hphase : c.phase with
    | driving line' => simp [hlent, hreclaim, hphase]
    | finishing line' exit => simp [hlent, hreclaim, hphase]
    | writing line' job => simp [hphase, hlent, Phase.job?] at hwriting
    | connecting | backingOff | stopped => simp [hphase, Phase.line?] at hline

theorem ends_of_shutdown {c : Client} (h : Custody c) (hshut : c.shutdown) : c.Ends := by
  cases hlent : c.lent with
  | none => exact ends_of_home hlent hshut
  | some ticket =>
    -- Once the writer is on its way back the owner takes it and goes on to its end.
    have hreturned : ∀ {c : Client}, Custody c → c.lent = some ticket → c.loans = [] →
        c.shutdown → c.Ends := by
      intro c h hlent hloans hshut
      obtain ⟨next, hturn, hhome, hkept⟩ := turn?_of_lent h hlent hloans
      exact ends_of_turn hturn (ends_of_home hhome (hkept ▸ hshut))
    obtain ⟨-, line, -, ⟨hloans, -⟩ | ⟨hloans, -⟩⟩ := h.away hlent
    -- A borrower that still has the writer gives it back first.
    . have hloan : c.loan? ticket = some ⟨ticket, line⟩ := by simp [loan?, hloans]
      have hrelease : c.release ticket
          =
        { c with
          loans := c.loans.filter (·.ticket ≠ ticket)
          returning := c.returning ++ [⟨ticket, line⟩] } := by
        unfold release
        rw [hloan]
      apply ends_of_step (.release ticket) trivial rfl
      rw [hrelease]
      apply hreturned
      . exact h.move (.release (A := fun _ => True) ticket ⟨ticket, line⟩ hloan)
      . exact hlent
      . simp [hloans]
      . exact hshut
    . exact hreturned h hlent hloans hshut

theorem accepted_iff {c : Client} {ticket : Nat}
    : .accepted ticket ∈ c.history ↔ 0 < c.acceptances ticket := by
  unfold acceptances
  rw [List.count_pos_iff, List.mem_filterMap]
  constructor
  . intro hmem
    exact ⟨.accepted ticket, hmem, rfl⟩
  . rintro ⟨o, hmem, ho⟩
    cases o <;> cases ho
    exact hmem

theorem settlements_pos {c : Client} {ticket : Nat} {reply : Reply}
    (h : .replied ticket reply ∈ c.history) : 0 < c.settlements ticket := by
  unfold settlements
  rw [List.count_pos_iff, List.mem_filterMap]
  exact ⟨.replied ticket reply, h, rfl⟩

theorem Ledger.held_of_stopped {c : Client} (h : Ledger c) (hstopped : c.phase = .stopped)
    : c.held = [] := by
  unfold held
  rw [(h.stopped hstopped).1, h.offline (by rw [hstopped]; rfl), hstopped]
  rfl

theorem Ledger.settled_of_stopped {c : Client} (h : Ledger c) (hstopped : c.phase = .stopped)
    {ticket : Nat} (haccepted : .accepted ticket ∈ c.history) : c.settlements ticket = 1 := by
  have hpos := accepted_iff.1 haccepted
  have hle := h.acceptances_le ticket
  have hbalance := h.balance ticket
  rw [h.held_of_stopped hstopped, List.count_nil] at hbalance
  omega

/--
Whatever happens to a client with its settings, each accepted command is resolved at most once, in a
way that fits it unless its owner broke down, which no owner with safe settings does. Once the owner
has stopped nothing waits and each accepted command is resolved exactly once; and a client that shuts
down does stop, if borrowers give the writer back.
-/
theorem commands_resolved {config : ClientConfig} {incidents : List Incident} {c : Client}
    (h : (start config).undergoAll? config.validated incidents = some c)
    : (∀ ticket, c.settlements ticket ≤ 1) ∧
      (∀ ticket reply, .replied ticket reply ∈ c.history →
        .accepted ticket ∈ c.history ∧
          (c.Fits ticket reply ∨ reply = .dropped ∧ .brokeDown ∈ c.history)) ∧
      (c.phase = .stopped → c.pending = [] ∧ c.mailbox = [] ∧
        ∀ ticket, .accepted ticket ∈ c.history → c.settlements ticket = 1) ∧
      (c.shutdown → c.Ends) ∧
      (config.validated.IsSafe → .brokeDown ∉ c.history) := by
  have hstart : Fitting (start config) := by simp [Fitting, start]
  obtain ⟨hsound, hfitting⟩ := holds_of_undergoAll? (P := Fitting)
    (fun _ _ hsound hfitting hmove => hfitting.move hsound hmove)
    (fun _ _ hfitting _ => hfitting.breakDown) hstart h
  have hledger := hsound.ledger
  refine ⟨?_, ?_, ?_, ends_of_shutdown hsound.custody, fun hsafe => up_of_isSafe hsafe h⟩
  . intro ticket
    have hbalance := hledger.balance ticket
    have hle := hledger.acceptances_le ticket
    omega
  . intro ticket reply hmem
    have hbalance := hledger.balance ticket
    have hpos := settlements_pos hmem
    refine ⟨?_, hfitting ticket reply hmem⟩
    rw [accepted_iff]
    omega
  . intro hstopped
    refine ⟨hledger.offline (by rw [hstopped]; rfl), (hledger.stopped hstopped).1, ?_⟩
    intro ticket haccepted
    exact hledger.settled_of_stopped hstopped haccepted

def shutDownWhileWriting : List Incident :=
  [.other (.issue (.call { method := "ping" })), .other (.issue .lend), .attemptSucceeds,
    .other .turn, .other .shutDown, .other .look, .other .turn, .other .turn]

theorem commands_resolved_while_writing
    : ∃ c, (start {}).undergoAll? ({} : ClientConfig).validated shutDownWhileWriting = some c ∧
        c.phase = .stopped ∧ .replied 0 (.failed .closed) ∈ c.history ∧
        .replied 1 .dropped ∈ c.history ∧ c.Fits 1 .dropped ∧
        c.settlements 0 = 1 ∧ c.settlements 1 = 1 := by
  obtain ⟨c, hrun, hphase, hhistory⟩ : ∃ c,
      (start {}).undergoAll? ({} : ClientConfig).validated shutDownWhileWriting = some c ∧
        c.phase = .stopped ∧ c.history = [.replied 1 .dropped, .lineClosed 0,
          .replied 0 (.failed .closed), .shutDown, .begun 0 0 (some 1), .connected 0, .accepted 1,
          .accepted 0, .attempted] := ⟨_, rfl, rfl, rfl⟩
  obtain ⟨-, hfitting, hstopped, -, hup⟩ := commands_resolved hrun
  obtain ⟨-, -, hsettled⟩ := hstopped hphase
  have hsafe : ({} : ClientConfig).validated.IsSafe := ⟨by decide +kernel, by decide +kernel⟩
  have hfits : c.Fits 1 .dropped := by
    rcases (hfitting 1 .dropped (by simp [hhistory])).2 with hfits | ⟨-, hbroken⟩
    . exact hfits
    . exact absurd hbroken (hup hsafe)
  refine ⟨c, hrun, hphase, ?_, ?_, hfits, hsettled 0 ?_, hsettled 1 ?_⟩
  all_goals simp [hhistory]

end JsonRpc.Client
