import JsonRpc.Proofs.Client.Move

/-!
Where the writer of the live connection is. It is in the owner's hand, with a borrower or on its way
back, and never in two of these places.
-/

namespace JsonRpc.Client

variable {A : Event → Prop}

structure Custody (c : Client) : Prop where
  writer : c.hand.toList ++ (c.loans ++ c.returning).map (·.line) = c.phase.line?.toList
  borrower : (c.loans ++ c.returning).map (·.ticket) = c.lent.toList
  writing : c.phase.job?.isSome → c.lent = none
  latest : ∀ line, c.phase.line? = some line → line + 1 = c.lines.length

theorem custody_start (config : ClientConfig) : Custody (start config) := by
  constructor <;> simp [start, Phase.line?, Phase.job?]

namespace Custody

theorem home {c : Client} (h : Custody c) (hlent : c.lent = none)
    : c.loans = [] ∧ c.returning = [] ∧ c.hand = c.phase.line? := by
  have hborrower := h.borrower
  have hwriter := h.writer
  rw [hlent] at hborrower
  simp only [Option.toList_none, List.map_eq_nil_iff, List.append_eq_nil_iff] at hborrower
  refine ⟨hborrower.1, hborrower.2, ?_⟩
  rw [hborrower.1, hborrower.2] at hwriter
  cases hhand : c.hand <;> cases hline : c.phase.line? <;> simp_all

theorem away {c : Client} (h : Custody c) {ticket : Nat} (hlent : c.lent = some ticket)
    : c.hand = none ∧ ∃ line, c.phase.line? = some line ∧
        (c.loans = [⟨ticket, line⟩] ∧ c.returning = [] ∨
          c.loans = [] ∧ c.returning = [⟨ticket, line⟩]) := by
  have hborrower := h.borrower
  have hwriter := h.writer
  rw [hlent] at hborrower
  -- One loan is on record; its writer is not in the hand as well.
  obtain ⟨⟨ticket', line⟩, hone, heq⟩ := List.map_eq_singleton_iff.1 hborrower
  cases heq
  rw [hone] at hwriter
  cases hhand : c.hand with
  | some line' => cases hline : c.phase.line? <;> simp [hhand, hline] at hwriter
  | none =>
    refine ⟨rfl, line, ?_, ?_⟩
    . cases hline : c.phase.line? <;> simp_all
    . rw [List.append_eq_singleton_iff] at hone
      exact hone.symm

theorem lent_of_loan {c : Client} (h : Custody c) {ticket : Nat} {loan : Loan}
    (hloan : c.loan? ticket = some loan)
    : c.lent = some ticket ∧ c.loans = [⟨ticket, loan.line⟩] ∧ c.returning = [] := by
  have hmem := List.mem_of_find?_eq_some hloan
  have hticket : loan.ticket = ticket := by simpa using List.find?_some hloan
  cases hlent : c.lent with
  | none => simp [(h.home hlent).1] at hmem
  | some ticket' =>
    obtain ⟨-, line, -, ⟨hloans, hreturning⟩ | ⟨hloans, -⟩⟩ := h.away hlent
    . rw [hloans, List.mem_singleton] at hmem
      cases hmem
      simp_all
    . simp [hloans] at hmem

theorem of_home {c : Client} (hloans : c.loans = []) (hreturning : c.returning = [])
    (hlent : c.lent = none) (hhand : c.hand = c.phase.line?)
    (hlatest : ∀ line, c.phase.line? = some line → line + 1 = c.lines.length) : Custody c := by
  constructor
  . rw [hloans, hreturning, hhand]
    simp
  . rw [hloans, hreturning, hlent]
    simp
  . intro _
    exact hlent
  . exact hlatest

theorem lent_of_line {c : Client} (h : Custody c) (hline : c.phase.line? = none)
    : c.lent = none := by
  cases hlent : c.lent with
  | none => rfl
  | some ticket =>
    obtain ⟨-, line, hline', -⟩ := h.away hlent
    rw [hline] at hline'
    cases hline'

theorem line?_of_isOffline {phase : Phase} (h : phase.IsOffline) : phase.line? = none := by
  cases phase <;> first | rfl | exact h.elim

theorem hand_of_taking {c : Client} (h : Custody c) {line ticket : Nat} {rest : List Nat}
    (htake : c.Taking line ticket rest) : c.hand = some line := by
  rw [(h.home htake.lent).2.2, htake.phase]
  rfl

theorem move {c c' : Client} (h : Custody c) (hmove : Move A c c') : Custody c' := by
  cases hmove with
  | accept | queue | refuse | enter | abandon | borrowerWrites | shutDown | closers | look =>
    exact ⟨h.writer, h.borrower, h.writing, h.latest⟩
  | turnAway | dropCall | skip => exact ⟨h.writer, h.borrower, h.writing, h.latest⟩
  | read | arrive | dispatch => exact ⟨h.writer, h.borrower, h.writing, by simpa using h.latest⟩
  | release ticket loan hloan =>
    obtain ⟨hlent, hloans, hreturning⟩ := h.lent_of_loan hloan
    have hwriter := h.writer
    have hticket : loan.ticket = ticket := by simpa using List.find?_some hloan
    refine ⟨?_, ?_, h.writing, h.latest⟩
    . simpa [hloans, hreturning] using hwriter
    . simp [hloans, hreturning, hlent, hticket]
  | connect hevent hphase =>
    have hlent : c.lent = none := h.lent_of_line (by rw [hphase]; rfl)
    obtain ⟨hloans, hreturning, -⟩ := h.home hlent
    refine of_home hloans hreturning hlent ?_ ?_
    . rfl
    . simp [Phase.line?]
  | backOff wake hphase =>
    have hlent : c.lent = none := h.lent_of_line (by rw [hphase]; rfl)
    obtain ⟨hloans, hreturning, hhand⟩ := h.home hlent
    refine of_home hloans hreturning hlent ?_ ?_
    . simpa [hphase, Phase.line?] using hhand
    . simp [Phase.line?]
  | attempt hphase | stop hphase =>
    have hline := line?_of_isOffline hphase
    have hlent := h.lent_of_line hline
    obtain ⟨hloans, hreturning, hhand⟩ := h.home hlent
    refine of_home hloans hreturning hlent ?_ ?_
    . exact hhand.trans hline
    . simp [Phase.line?]
  | leave line exit hphase =>
    have hwriter := h.writer
    have hlatest := h.latest
    rw [hphase] at hwriter hlatest
    exact ⟨hwriter, h.borrower, by simp [Phase.job?], by simpa [Phase.line?] using hlatest⟩
  | hangUp line exit hphase hlent =>
    obtain ⟨hloans, hreturning, -⟩ := h.home hlent
    refine of_home hloans hreturning hlent ?_ ?_
    . rfl
    . simp [Phase.line?]
  | reclaim ticket loan hlent hloan =>
    obtain ⟨hhand, line, hline, ⟨hloans, hreturning⟩ | ⟨hloans, hreturning⟩⟩ := h.away hlent
    . simp [hreturning] at hloan
    . simp only [hreturning, List.find?_singleton, decide_true, ↓reduceIte, Option.some.injEq]
        at hloan
      apply of_home
      . exact hloans
      . simp [hreturning]
      . rfl
      . rw [hline, ← hloan]
      . exact h.latest
  | beginCall line ticket rest request htake | beginNotify line ticket rest request htake =>
    obtain ⟨hloans, hreturning, hhand⟩ := h.home htake.lent
    have hlatest := h.latest
    rw [htake.phase] at hhand hlatest
    exact of_home hloans hreturning htake.lent hhand hlatest
  | lend line ticket rest htake =>
    obtain ⟨hloans, hreturning, -⟩ := h.home htake.lent
    have hlatest := h.latest
    constructor
    . by_cases hgone : ticket ∈ c.abandoned
      . simp [hgone, hloans, hreturning, htake.phase, Phase.line?]
      . simp [hgone, hloans, hreturning, htake.phase, Phase.line?]
    . by_cases hgone : ticket ∈ c.abandoned
      . simp [hgone, hloans, hreturning]
      . simp [hgone, hloans, hreturning]
    . simp [htake.phase, Phase.job?]
    . exact hlatest
  | transmit line job hevent hphase | finishCall line job id hphase | finishNotify line job hphase
  | breakOff line job exit hphase =>
    have hlent : c.lent = none := h.writing (by rw [hphase]; rfl)
    obtain ⟨hloans, hreturning, hhand⟩ := h.home hlent
    have hlatest := h.latest
    rw [hphase] at hhand hlatest
    exact of_home hloans hreturning hlent hhand hlatest

end Custody

end JsonRpc.Client
