import JsonRpc.Proofs.Client.Ledger

/-!
What is written for a command, and when. A call waits for its response only once its message has
been written in full on the line that the owner serves.
-/

namespace JsonRpc.Client

variable {A : Event → Prop}

def requestOf? (commands : List Command) (ticket : Nat) (id : Option Int64) : Option Request :=
  match commands[ticket]?, id with
  | some (.call request), some id => some (request.numbered id)
  | some (.notify request), none => some request
  | _, _ => none

def Sent (commands : List Command) (history : List Occurrence) (line ticket : Nat)
    (id : Option Int64) : Prop :=
  ∃ request, requestOf? commands ticket id = some request ∧
    [.written line ticket, .transmitted line ticket request.encode, .begun line ticket id].Sublist
      history

def Job.trace (line : Nat) (job : Job) : List Occurrence :=
  if job.transmitted then
    [.transmitted line job.ticket job.request.encode, .begun line job.ticket job.id]
  else
    [.begun line job.ticket job.id]

theorem getElem?_append_of_eq_some {commands : List Command} {ticket : Nat} {command : Command}
    (h : commands[ticket]? = some command) (more : List Command)
    : (commands ++ more)[ticket]? = some command := by
  rw [List.getElem?_append_left (List.getElem?_eq_some_iff.1 h).1]
  exact h

theorem requestOf?_append {commands : List Command} {ticket : Nat} {id : Option Int64}
    {request : Request} (h : requestOf? commands ticket id = some request) (more : List Command)
    : requestOf? (commands ++ more) ticket id = some request := by
  cases hcommand : commands[ticket]? with
  | none => simp [requestOf?, hcommand] at h
  | some command =>
    unfold requestOf? at *
    rw [getElem?_append_of_eq_some hcommand]
    rw [hcommand] at h
    exact h

theorem call_of_requestOf? {commands : List Command} {ticket : Nat} {id : Int64} {request : Request}
    (h : requestOf? commands ticket (some id) = some request)
    : ∃ request, commands[ticket]? = some (.call request) := by
  unfold requestOf? at h
  split at h
  . next call _ hcommand _ => exact ⟨call, hcommand⟩
  . next heq => cases heq
  . cases h

theorem notify_of_requestOf? {commands : List Command} {ticket : Nat} {request : Request}
    (h : requestOf? commands ticket none = some request)
    : commands[ticket]? = some (.notify request) := by
  unfold requestOf? at h
  split at h
  . next heq => cases heq
  . next hcommand _ =>
    cases h
    exact hcommand
  . cases h

theorem Sent.later {commands : List Command} {history history' : List Occurrence}
    {line ticket : Nat} {id : Option Int64} (h : Sent commands history line ticket id)
    (hhistory : history.Sublist history') : Sent commands history' line ticket id := by
  obtain ⟨request, hrequest, hsub⟩ := h
  exact ⟨request, hrequest, hsub.trans hhistory⟩

theorem Sent.mono {commands more : List Command} {history history' : List Occurrence}
    {line ticket : Nat} {id : Option Int64} (h : Sent commands history line ticket id)
    (hhistory : history.Sublist history') : Sent (commands ++ more) history' line ticket id := by
  obtain ⟨request, hrequest, hsub⟩ := h
  exact ⟨request, requestOf?_append hrequest more, hsub.trans hhistory⟩

theorem Sent.call {commands : List Command} {history : List Occurrence} {line ticket : Nat}
    {id : Int64} (h : Sent commands history line ticket (some id))
    : ∃ request, commands[ticket]? = some (.call request) := by
  obtain ⟨request, hrequest, -⟩ := h
  exact call_of_requestOf? hrequest

theorem Move.grows {c c' : Client} (h : Move A c c')
    : (∃ more, c'.commands = c.commands ++ more) ∧ c.history.IsSuffix c'.history := by
  cases h with
  | accept command | queue command | refuse command => exact ⟨⟨[command], rfl⟩, by simp⟩
  | stop => exact ⟨⟨[], by simp⟩, (List.suffix_append _ _).trans (List.suffix_append _ _)⟩
  | dispatch | finishCall =>
    exact ⟨⟨[], by simp⟩, (List.suffix_cons _ _).trans (List.suffix_append _ _)⟩
  | finishNotify => exact ⟨⟨[], by simp⟩, (List.suffix_cons _ _).trans (List.suffix_cons _ _)⟩
  | _ => exact ⟨⟨[], by simp⟩, by simp⟩

theorem Moves.history_suffix {c c' : Client} (h : Moves A c c') : c.history <:+ c'.history := by
  exact h.keep (P := fun next => c.history <:+ next.history)
    (fun _ _ hsuffix hmove => hsuffix.trans hmove.grows.2) (List.suffix_refl _)

structure Writing (c : Client) : Prop where
  job : ∀ line job, c.phase = .writing line job →
    requestOf? c.commands job.ticket job.id = some job.request ∧
      (job.trace line).Sublist c.history
  pending : ∀ e ∈ c.pending, ∃ line, c.phase.driven? = some line ∧
    Sent c.commands c.history line e.2 (some e.1)

namespace Writing

theorem start (config : ClientConfig) : Writing (start config) := by
  constructor <;> simp [Client.start]

theorem job_move {c c' : Client} (h : Writing c) (hmove : Move A c c') (line : Nat) (job : Job)
    (hphase : c'.phase = .writing line job)
    : requestOf? c'.commands job.ticket job.id = some job.request ∧
        (job.trace line).Sublist c'.history := by
  have hgrows := hmove.grows
  have hold : c.phase = .writing line job →
      requestOf? c'.commands job.ticket job.id = some job.request ∧
        (job.trace line).Sublist c'.history := by
    intro hphase
    obtain ⟨hrequest, htrace⟩ := h.job line job hphase
    obtain ⟨⟨more, hmore⟩, hsuffix⟩ := hgrows
    rw [hmore]
    exact ⟨requestOf?_append hrequest more, htrace.trans hsuffix.sublist⟩
  cases hmove with
  | connect | backOff | attempt | stop | leave | hangUp | finishCall | finishNotify | breakOff =>
    cases hphase
  | beginCall line' ticket rest request htake hhand hcommand =>
    cases hphase
    simp [requestOf?, hcommand, Job.trace]
  | beginNotify line' ticket rest request htake hhand hcommand =>
    cases hphase
    simp [requestOf?, hcommand, Job.trace]
  | transmit line' job' hevent hphase' hrunning hfirst =>
    cases hphase
    obtain ⟨hrequest, htrace⟩ := h.job _ _ hphase'
    simp only [Job.trace, hfirst] at htrace
    exact ⟨hrequest, htrace.cons_cons _⟩
  | _ => exact hold hphase

theorem sent_of_job {c : Client} (h : Writing c) {line : Nat} {job : Job}
    (hphase : c.phase = .writing line job) (htransmitted : job.transmitted)
    : Sent c.commands (.written line job.ticket :: c.history) line job.ticket job.id := by
  obtain ⟨hrequest, htrace⟩ := h.job line job hphase
  simp only [Job.trace, htransmitted, if_true] at htrace
  exact ⟨job.request, hrequest, htrace.cons_cons _⟩

theorem pending_move {c c' : Client} (h : Writing c) (hledger : Ledger c) (hmove : Move A c c')
    (e : Int64 × Nat) (he : e ∈ c'.pending)
    : ∃ line, c'.phase.driven? = some line ∧ Sent c'.commands c'.history line e.2 (some e.1) := by
  obtain ⟨⟨more, hmore⟩, hsuffix⟩ := hmove.grows
  have hold : e ∈ c.pending → c.phase.driven? = c'.phase.driven? →
      ∃ line, c'.phase.driven? = some line ∧
        Sent c'.commands c'.history line e.2 (some e.1) := by
    intro he hdriven
    obtain ⟨line, hline, hsent⟩ := h.pending e he
    rw [hmore, ← hdriven]
    exact ⟨line, hline, hsent.mono hsuffix.sublist⟩
  have hoffline : c.phase.driven? = none → e ∉ c.pending := by
    intro hdriven
    simp [hledger.offline hdriven]
  cases hmove with
  -- Nobody waits before or after a move that leaves the driven line or comes to one.
  | leave => cases he
  | dispatch => exact hold ((unanswered_sublist _).subset he) rfl
  | connect hevent hphase | backOff wake hphase | hangUp line exit hphase =>
    exact absurd he (hoffline (by rw [hphase]; rfl))
  | attempt hphase | stop hphase => exact absurd he (hoffline (driven?_of_isOffline hphase))
  | beginCall line ticket rest request htake | beginNotify line ticket rest request htake =>
    exact hold he (by rw [htake.phase]; rfl)
  | transmit line job hevent hphase | finishNotify line job hphase | breakOff line job exit hphase =>
    exact hold he (by rw [hphase]; rfl)
  | finishCall line job id hphase hrunning hid htransmitted =>
    rcases List.mem_append.1 he with hmem | hmem
    . exact hold (List.mem_of_mem_filter hmem) (by rw [hphase]; rfl)
    . cases List.mem_singleton.1 hmem
      have hsent := h.sent_of_job hphase htransmitted
      rw [hid] at hsent
      exact ⟨line, rfl, hsent.later (List.sublist_append_right _ _)⟩
  | _ => exact hold he rfl

theorem move {c c' : Client} (h : Writing c) (hledger : Ledger c) (hmove : Move A c c')
    : Writing c' where
  job := h.job_move hmove
  pending := h.pending_move hledger hmove

end Writing

end JsonRpc.Client
