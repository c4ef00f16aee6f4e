import JsonRpc.Proofs.Client.Resolution

/-!
Borrowers of the writer. One that has given up does not have it, and one that has given it back has
it never again.
-/

namespace JsonRpc.Client

variable {A : Event → Prop} {c c' : Client} {event : Event} {ticket : Nat}

def Attended (c : Client) : Prop :=
  ∀ loan ∈ c.loans, loan.ticket ∉ c.abandoned

theorem Attended.move (h : Attended c) (hmove : Move A c c')
    (hstay : ∀ ticket, ¬ A (.giveUp ticket)) : Attended c' := by
  cases hmove with
  | abandon ticket hevent => exact absurd hevent (hstay ticket)
  | release ticket loan hloan =>
    intro other hother
    exact h other (List.mem_filter.1 hother).1
  | lend line ticket rest htake hhand hcommand =>
    intro other hother
    dsimp only at hother
    split at hother
    . exact h other hother
    . next hpresent =>
      rcases List.mem_append.1 hother with hold | hnew
      . exact h other hold
      . cases List.mem_singleton.1 hnew
        exact hpresent
  | _ => exact h

theorem release_eq (c : Client) (ticket : Nat)
    : c.release ticket
        =
      { c with
        loans := c.loans.filter (·.ticket ≠ ticket)
        returning := c.returning ++ (c.loan? ticket).toList } := by
  unfold release
  cases hloan : c.loan? ticket with
  | some loan => rfl
  | none =>
    have hkept : c.loans.filter (·.ticket ≠ ticket) = c.loans := by
      apply List.filter_eq_self.2
      simpa [loan?] using hloan
    dsimp only
    rw [hkept, Option.toList_none, List.append_nil]

theorem Attended.giveUp (h : Attended c) (ticket : Nat) : Attended (c.giveUp ticket) := by
  unfold Client.giveUp
  rw [release_eq]
  intro loan hloan
  obtain ⟨hmem, hother⟩ := List.mem_filter.1 hloan
  have hother : loan.ticket ≠ ticket := by simpa using hother
  have hpresent := h loan hmem
  dsimp only
  split
  . exact hpresent
  . simp [hother, hpresent]

theorem Attended.step (h : Attended c) (hstep : c.step? event = some c') : Attended c' := by
  by_cases hevent : ∃ ticket, event = .giveUp ticket
  . obtain ⟨ticket, rfl⟩ := hevent
    cases hstep
    exact h.giveUp ticket
  . apply (step?_moves (A := (· = event)) hstep rfl).keep _ h
    intro next next' hnext hmove
    apply hnext.move hmove
    rintro ticket rfl
    exact hevent ⟨ticket, rfl⟩

theorem Attended.run {events : List Event} (h : Attended c) (hrun : c.run? events = some c')
    : Attended c' := by
  induction events generalizing c with
  | nil =>
    cases hrun
    exact h
  | cons event events ih =>
    obtain ⟨next, hstep, hrest⟩ := exists_step_of_foldlM hrun
    exact ih (h.step hstep) hrest

theorem attended_of_run? {config : ClientConfig} {events : List Event}
    (h : (start config).run? events = some c) : Attended c := by
  apply Attended.run _ h
  simp [Attended, start]

theorem Ledger.not_mem_mailbox (h : Ledger c) {reply : Reply}
    (hreplied : .replied ticket reply ∈ c.history) : ticket ∉ c.mailbox := by
  intro hmem
  have hbalance := h.balance ticket
  have hle := h.acceptances_le ticket
  have hsettled := settlements_pos hreplied
  have hwaiting : 0 < c.mailbox.count ticket := List.count_pos_iff.2 hmem
  simp only [held, List.count_append] at hbalance
  omega

structure Returned (c : Client) (ticket : Nat) : Prop where
  lent : .replied ticket .lent ∈ c.history
  gone : ∀ loan ∈ c.loans, loan.ticket ≠ ticket

namespace Returned

theorem move (h : Returned c ticket) (hledger : Ledger c) (hmove : Move A c c')
    : Returned c' ticket := by
  refine ⟨hmove.grows.2.subset h.lent, ?_⟩
  cases hmove with
  | release ticket' loan hloan =>
    intro other hother
    exact h.gone other (List.mem_filter.1 hother).1
  | lend line ticket' rest htake hhand hcommand =>
    intro other hother
    dsimp only at hother
    split at hother
    . exact h.gone other hother
    . rcases List.mem_append.1 hother with hold | hnew
      . exact h.gone other hold
      . -- A command that was answered is in the mailbox no more.
        cases List.mem_singleton.1 hnew
        rintro rfl
        apply hledger.not_mem_mailbox h.lent
        rw [htake.mailbox]
        exact List.mem_cons_self
  | _ => exact h.gone

theorem moves (h : Returned c ticket) (hsound : Sound c) (hmoves : Moves A c c')
    : Returned c' ticket := by
  have hboth : Sound c' ∧ Returned c' ticket := by
    apply hmoves.keep _ ⟨hsound, h⟩
    rintro next next' ⟨hnext, hreturned⟩ hmove
    exact ⟨hnext.move hmove, hreturned.move hnext.ledger hmove⟩
  exact hboth.2

theorem borrowerWrites?_eq (h : Returned c ticket) (message : Bytes)
    : c.borrowerWrites? ticket message = none := by
  have hloan : c.loan? ticket = none := by simpa [loan?] using h.gone
  unfold borrowerWrites?
  rw [hloan]
  rfl

theorem of_release (hlent : .replied ticket .lent ∈ c.history)
    : Returned (c.release ticket) ticket := by
  rw [release_eq]
  constructor
  . exact hlent
  . intro loan hloan
    simpa using (List.mem_filter.1 hloan).2

theorem of_step (hlent : .replied ticket .lent ∈ c.history)
    (hevent : event = .release ticket ∨ event = .giveUp ticket) (hstep : c.step? event = some c')
    : Returned c' ticket := by
  rcases hevent with rfl | rfl
  . cases hstep
    exact of_release hlent
  . cases hstep
    exact of_release hlent

end Returned

theorem returned_of_run? {config : ClientConfig} {before after : List Event} {past : Client}
    (h : (start config).run? (before ++ event :: after) = some c)
    (hpast : (start config).run? before = some past) (hlent : .replied ticket .lent ∈ past.history)
    (hevent : event = .release ticket ∨ event = .giveUp ticket) : Returned c ticket := by
  obtain ⟨next, hstep, hrest⟩ := exists_step_of_foldlM (foldlM_of_append h hpast)
  have hsound : Sound next := sound_of_run? (foldlM_snoc hpast hstep)
  exact (Returned.of_step hlent hevent hstep).moves (A := fun _ => True) hsound
    (run?_moves hrest fun _ _ => trivial)

end JsonRpc.Client
