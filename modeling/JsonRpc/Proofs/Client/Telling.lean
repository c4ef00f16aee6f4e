import JsonRpc.Client.Task
import JsonRpc.Proofs.Client.Borrowing

/-!
What callers are told. A caller learns what its command was settled with and nothing else, whatever
happens later; one whose command was turned away learns that the client is closed.
-/

namespace JsonRpc.Client

variable {A : Event → Prop} {c c' : Client} {ticket : Nat} {reply : Reply}

structure Barred (c : Client) (ticket : Nat) : Prop where
  issued : ticket < c.commands.length
  accepted : c.acceptances ticket = 0
  waiting : ticket ∉ c.waiting

def Refusing (c : Client) : Prop :=
  ∀ ticket, .refused ticket ∈ c.history → c.Barred ticket

section Refusing

attribute [local simp] acceptances Occurrence.accepted? List.filterMap_cons List.count_cons
  Function.comp_def

theorem Barred.move (h : c.Barred ticket) (hmove : Move A c c') : c'.Barred ticket := by
  obtain ⟨hissued, haccepted, hwaiting⟩ := h
  cases hmove with
  | accept | queue =>
    have hne : c.commands.length ≠ ticket := by omega
    constructor
    . simp
      omega
    . simpa [hne] using haccepted
    . simp [hwaiting, hne.symm]
  | refuse =>
    constructor
    . simp
      omega
    . simpa using haccepted
    . exact hwaiting
  | enter first rest hfirst =>
    rw [hfirst, List.mem_cons, not_or] at hwaiting
    exact ⟨hissued, by simpa [Ne.symm hwaiting.1] using haccepted, hwaiting.2⟩
  | abandon => exact ⟨hissued, haccepted, fun hmem => hwaiting (List.mem_of_mem_filter hmem)⟩
  | stop => exact ⟨hissued, by simpa using haccepted, by simp⟩
  | read line before after arrival =>
    refine ⟨hissued, ?_, hwaiting⟩
    cases arrival <;> simpa [Except.toOption] using haccepted
  | hangUp =>
    refine ⟨hissued, ?_, hwaiting⟩
    cases hhand : c.hand <;> simpa using haccepted
  | finishCall line job id =>
    refine ⟨hissued, ?_, hwaiting⟩
    cases hlookup : c.pending.lookup id <;> simpa using haccepted
  | release | closers | look | arrive | backOff | reclaim | skip =>
    exact ⟨hissued, haccepted, hwaiting⟩
  | _ => exact ⟨hissued, by simpa using haccepted, hwaiting⟩

theorem barred_of_move (h : Ledger c) (hmove : Move A c c')
    (hmem : .refused ticket ∈ c'.history) : .refused ticket ∈ c.history ∨ c'.Barred ticket := by
  cases hmove with
  | refuse command =>
    rcases List.mem_cons.1 hmem with heq | hold
    . cases heq
      obtain ⟨haccepted, hwaiting⟩ := h.absent (Nat.le_refl c.commands.length)
      exact .inr ⟨by simp, by simpa using haccepted, List.count_eq_zero.1 hwaiting⟩
    . exact .inl hold
  | stop =>
    simp only [List.mem_append, List.mem_reverse, List.mem_map] at hmem
    rcases hmem with ⟨t, ht, heq⟩ | ⟨t, -, heq⟩ | hold
    . cases heq
      obtain ⟨hissued, haccepted⟩ := h.outside_of_waiting ht
      exact .inr ⟨hissued, by simpa using haccepted, by simp⟩
    . cases heq
    . exact .inl hold
  | queue | abandon | release | closers | look | arrive | backOff | reclaim | skip => exact .inl hmem
  | read line before after arrival =>
    cases arrival <;> exact .inl (by simpa [Except.toOption] using hmem)
  | hangUp => cases hhand : c.hand <;> exact .inl (by simpa [hhand] using hmem)
  | finishCall line job id =>
    cases hlookup : c.pending.lookup id <;> exact .inl (by simpa [hlookup] using hmem)
  | _ => exact .inl (by simpa using hmem)

end Refusing

theorem Refusing.move (h : Refusing c) (hledger : Ledger c) (hmove : Move A c c')
    : Refusing c' := by
  intro ticket hmem
  rcases barred_of_move hledger hmove hmem with hold | hbarred
  . exact (h ticket hold).move hmove
  . exact hbarred

theorem refusing_of_run? {config : ClientConfig} {events : List Event}
    (h : (start config).run? events = some c) : Refusing c := by
  apply holds_of_run? (fun _ _ hsound hc => Refusing.move hc hsound.ledger) _ h
  simp [Refusing, start]

theorem eq_of_replied {history : List Occurrence} {reply' : Reply}
    (hone : (history.filterMap Occurrence.settled?).count ticket ≤ 1)
    (h : .replied ticket reply ∈ history) (h' : .replied ticket reply' ∈ history)
    : reply = reply' := by
  have hlast {history : List Occurrence} {r : Reply} (h : .replied ticket r ∈ history)
      : 0 < (history.filterMap Occurrence.settled?).count ticket :=
    List.count_pos_iff.2 (List.mem_filterMap.2 ⟨_, h, rfl⟩)
  induction history with
  | nil => cases h
  | cons o history ih =>
    rcases List.mem_cons.1 h with rfl | hmem
    . rcases List.mem_cons.1 h' with heq | hmem'
      . cases heq
        rfl
      . have := hlast hmem'
        simp [Occurrence.settled?] at hone
        omega
    . rcases List.mem_cons.1 h' with rfl | hmem'
      . have := hlast hmem
        simp [Occurrence.settled?] at hone
        omega
      . refine ih (Nat.le_trans ?_ hone) hmem hmem'
        exact ((List.sublist_cons_self o history).filterMap _).count_le ticket

theorem mem_of_reply? (h : c.reply? ticket = some reply)
    : .replied ticket reply ∈ c.history ∨
        .refused ticket ∈ c.history ∧ reply = .failed .closed := by
  obtain ⟨o, hmem, ho⟩ := List.exists_of_findSome?_eq_some h
  rw [List.mem_reverse] at hmem
  cases o with
  | replied t r =>
    obtain ⟨rfl, rfl⟩ : t = ticket ∧ r = reply := by simpa using ho
    exact .inl hmem
  | refused t =>
    obtain ⟨rfl, rfl⟩ : t = ticket ∧ .failed .closed = reply := by simpa using ho
    exact .inr ⟨hmem, rfl⟩
  | _ => cases ho

theorem reply?_isSome (h : .replied ticket reply ∈ c.history) : (c.reply? ticket).isSome := by
  apply List.findSome?_isSome_iff.2
  exact ⟨_, List.mem_reverse.2 h, by simp⟩

theorem reply?_of_replied (h : Ledger c) (hrefusing : Refusing c)
    (hmem : .replied ticket reply ∈ c.history) : c.reply? ticket = some reply := by
  obtain ⟨first, hfirst⟩ := Option.isSome_iff_exists.1 (reply?_isSome hmem)
  have hbalance := h.balance ticket
  have hle := h.acceptances_le ticket
  have hsettled := settlements_pos hmem
  have hone : c.settlements ticket ≤ 1 := by omega
  rw [hfirst]
  rcases mem_of_reply? hfirst with hreplied | ⟨hrefused, -⟩
  . rw [eq_of_replied hone hreplied hmem]
  . have := (hrefusing ticket hrefused).accepted
    omega

theorem reply?_of_held (h : Ledger c) (hrefusing : Refusing c) (hheld : ticket ∈ c.held)
    : c.reply? ticket = none := by
  have hbalance := h.balance ticket
  have hle := h.acceptances_le ticket
  have hpos : 0 < c.held.count ticket := List.count_pos_iff.2 hheld
  cases hreply : c.reply? ticket with
  | none => rfl
  | some reply =>
    rcases mem_of_reply? hreply with hreplied | ⟨hrefused, -⟩
    . have := settlements_pos hreplied
      omega
    . have := (hrefusing ticket hrefused).accepted
      omega

theorem reply?_of_suffix (hsuffix : c.history <:+ c'.history) (h : c.reply? ticket = some reply)
    : c'.reply? ticket = some reply := by
  obtain ⟨more, hmore⟩ := hsuffix
  unfold reply? at *
  rw [← hmore, List.reverse_append, List.findSome?_append, h]
  rfl

/-- A caller that waits for a command, in whatever way, is told that it failed. -/
def Told (c : Client) (ticket : Nat) (error : ClientError) : Prop :=
  ∀ goal : Await, goal.ticket? = some ticket → goal.outcome? c = some (.error error)

theorem told_of_reply? {error : ClientError} (h : c.reply? ticket = some reply)
    (hresponse : reply.toResponse c.shutdown = .error error)
    (hsent : reply.toSent c.shutdown = .error error)
    (hlent : reply.toLent c.shutdown = .error error) : c.Told ticket error := by
  intro goal hgoal
  cases goal with
  | response t =>
    cases hgoal
    simp [Await.outcome?, h, hresponse, Except.map]
  | result t decoder =>
    cases hgoal
    simp [Await.outcome?, h, hresponse, bind, Except.bind]
  | sent t =>
    cases hgoal
    simp [Await.outcome?, h, hsent, Except.map]
  | writer t =>
    cases hgoal
    simp [Await.outcome?, h, hlent, Except.map]
  | closed closer => cases hgoal

theorem told_of_failed {error : ClientError} (h : c.reply? ticket = some (.failed error))
    : c.Told ticket error := by
  exact told_of_reply? h rfl rfl rfl

theorem told_of_refusal {commands : List Command} (hshut : c.shutdown)
    (h : c.reply? ticket = some (refusal commands ticket .closed)) : c.Told ticket .closed := by
  unfold refusal at h
  split at h
  . exact told_of_reply? h (by rw [hshut]; rfl) (by rw [hshut]; rfl) (by rw [hshut]; rfl)
  . exact told_of_failed h

end JsonRpc.Client
