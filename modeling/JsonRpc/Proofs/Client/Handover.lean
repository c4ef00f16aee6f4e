import JsonRpc.Proofs.Client.Numbering

/-!
Commands and the writer. A command is handed to the writer at most once, and its message leaves at
most once; only a borrower of the writer may send more.
-/

namespace JsonRpc.Client

variable {A : Event → Prop}

def Occurrence.begun? : Occurrence → Option Nat
  | .begun _ ticket _ => some ticket
  | _ => none

def Occurrence.transmitted? : Occurrence → Option Nat
  | .transmitted _ ticket _ => some ticket
  | _ => none

def handovers (c : Client) (ticket : Nat) : Nat :=
  (c.history.filterMap Occurrence.begun?).count ticket

def departures (c : Client) (ticket : Nat) : Nat :=
  (c.history.filterMap Occurrence.transmitted?).count ticket

def Phase.unsent? : Phase → Option Nat
  | .writing _ job => if job.transmitted then none else some job.ticket
  | _ => none

structure Handover (c : Client) : Prop where
  begun : ∀ ticket, c.handovers ticket + c.mailbox.count ticket ≤ c.acceptances ticket
  borrowed : ∀ loan ∈ c.loans ++ c.returning, c.commands[loan.ticket]? = some .lend
  transmitted : ∀ ticket, c.commands[ticket]? ≠ some .lend →
    c.departures ticket + c.phase.unsent?.toList.count ticket ≤ c.handovers ticket

theorem unsent?_of_isOffline {phase : Phase} (h : phase.IsOffline) : phase.unsent? = none := by
  cases phase <;> first | rfl | exact h.elim

namespace Handover

attribute [local simp] handovers departures acceptances Occurrence.begun? Occurrence.transmitted?
  Occurrence.accepted? List.filterMap_cons List.count_cons Function.comp_def Phase.unsent?

theorem start (config : ClientConfig) : Handover (start config) := by
  constructor <;> simp [Client.start]

theorem begun_move {c c' : Client} (h : Handover c) (hmove : Move A c c') (ticket : Nat)
    : c'.handovers ticket + c'.mailbox.count ticket ≤ c'.acceptances ticket := by
  have hbegun := h.begun ticket
  cases hmove with
  | queue | abandon | release | closers | look | arrive | backOff | reclaim => exact hbegun
  | accept | enter =>
    simp at *
    omega
  | stop =>
    simp at *
    omega
  | skip line ticket' rest htake | turnAway line ticket' rest htake
  | dropCall line ticket' rest request htake | beginCall line ticket' rest request htake
  | beginNotify line ticket' rest request htake | lend line ticket' rest htake =>
    simp [htake.mailbox] at *
    omega
  | read line before after arrival => cases arrival <;> simpa [Except.toOption] using hbegun
  | hangUp => cases hhand : c.hand <;> simpa using hbegun
  | finishCall line job id => cases hlookup : c.pending.lookup id <;> simpa using hbegun
  | _ => simpa using hbegun

theorem borrowed_move {c c' : Client} (h : Handover c) (hmove : Move A c c')
    : ∀ loan ∈ c'.loans ++ c'.returning, c'.commands[loan.ticket]? = some .lend := by
  have hborrowed := h.borrowed
  cases hmove with
  | accept command | queue command | refuse command =>
    intro loan hloan
    exact getElem?_append_of_eq_some (hborrowed loan hloan) _
  | release ticket loan hloan =>
    intro other hother
    simp only [List.mem_append, List.mem_filter, List.mem_singleton] at hother
    rcases hother with ⟨hmem, -⟩ | hmem | rfl
    . exact hborrowed other (List.mem_append_left _ hmem)
    . exact hborrowed other (List.mem_append_right _ hmem)
    . exact hborrowed other (List.mem_append_left _ (List.mem_of_find?_eq_some hloan))
  | reclaim ticket loan hlent hloan =>
    intro other hother
    simp only [List.mem_append, List.mem_filter] at hother
    rcases hother with hmem | ⟨hmem, -⟩
    . exact hborrowed other (List.mem_append_left _ hmem)
    . exact hborrowed other (List.mem_append_right _ hmem)
  | lend line ticket rest htake hhand hcommand =>
    intro other hother
    have hother : other ∈ c.loans ++ c.returning ∨ other = ⟨ticket, line⟩ := by
      by_cases hgone : ticket ∈ c.abandoned
      . simpa [hgone, or_assoc] using hother
      . simp only [hgone, if_false, List.mem_append, List.mem_singleton] at hother
        grind
    rcases hother with hmem | rfl
    . exact hborrowed other hmem
    . exact hcommand
  | _ => exact hborrowed

theorem transmitted_move {c c' : Client} (h : Handover c) (hmove : Move A c c') (ticket : Nat)
    (hticket : c'.commands[ticket]? ≠ some .lend)
    : c'.departures ticket + c'.phase.unsent?.toList.count ticket ≤ c'.handovers ticket := by
  have hold : c.commands[ticket]? ≠ some .lend := by
    obtain ⟨⟨more, hmore⟩, -⟩ := hmove.grows
    intro hlend
    apply hticket
    rw [hmore]
    exact getElem?_append_of_eq_some hlend more
  have htransmitted := h.transmitted ticket hold
  cases hmove with
  | borrowerWrites ticket' loan message hevent hloan =>
    -- A borrower sends under the ticket of its loan, which is never that of a call.
    have hlend := h.borrowed loan (List.mem_append_left _ (List.mem_of_find?_eq_some hloan))
    have hne : loan.ticket ≠ ticket := by
      rintro rfl
      exact hold hlend
    simpa [hne] using htransmitted
  | connect hevent hphase | backOff wake hphase | leave line exit hphase =>
    simpa [hphase] using htransmitted
  | attempt hphase | stop hphase =>
    have hunsent := unsent?_of_isOffline hphase
    rw [hunsent] at htransmitted
    simpa using htransmitted
  | hangUp line exit hphase => cases hhand : c.hand <;> simpa [hphase] using htransmitted
  | read line before after arrival => cases arrival <;> simpa [Except.toOption] using htransmitted
  | beginCall line ticket' rest request htake | beginNotify line ticket' rest request htake =>
    simp [htake.phase] at *
    omega
  | transmit line job hevent hphase hrunning hfirst =>
    simp [hphase, hfirst] at *
    omega
  | finishCall line job id hphase =>
    have hle : c.departures ticket ≤ c.handovers ticket := by omega
    cases hlookup : c.pending.lookup id <;> simpa using hle
  | finishNotify line job hphase | breakOff line job exit hphase =>
    have hle : c.departures ticket ≤ c.handovers ticket := by omega
    simpa using hle
  | queue | abandon | release | closers | look | arrive | reclaim | skip => exact htransmitted
  | _ => simpa using htransmitted

theorem move {c c' : Client} (h : Handover c) (hmove : Move A c c') : Handover c' where
  begun := h.begun_move hmove
  borrowed := h.borrowed_move hmove
  transmitted := h.transmitted_move hmove

end Handover

structure Sound (c : Client) : Prop where
  custody : Custody c
  ledger : Ledger c
  writing : Writing c
  numbering : Numbering c
  handover : Handover c

theorem Sound.start (config : ClientConfig) : Sound (start config) :=
  ⟨custody_start config, Ledger.start config, Writing.start config, Numbering.start config,
    Handover.start config⟩

theorem Sound.move {c c' : Client} (h : Sound c) (hmove : Move A c c') : Sound c' :=
  ⟨h.custody.move hmove, h.ledger.move hmove, h.writing.move h.ledger hmove,
    h.numbering.move h.writing hmove, h.handover.move hmove⟩

theorem sound_of_run? {config : ClientConfig} {events : List Event} {c : Client}
    (h : (start config).run? events = some c) : Sound c := by
  exact keeps_of_run? (fun _ _ => Sound.move) (Sound.start config) h

theorem holds_of_run? {P : Client → Prop} {config : ClientConfig} {events : List Event}
    (hkeep : ∀ c c', Sound c → P c → Move (· ∈ events) c c' → P c') (hstart : P (start config))
    {c : Client} (h : (start config).run? events = some c) : P c := by
  have hboth : Sound c ∧ P c := by
    apply keeps_of_run? _ _ h
    . rintro c c' ⟨hsound, hc⟩ hmove
      exact ⟨hsound.move hmove, hkeep c c' hsound hc hmove⟩
    . exact ⟨Sound.start config, hstart⟩
  exact hboth.2

theorem Ledger.acceptances_le {c : Client} (h : Ledger c) (ticket : Nat)
    : c.acceptances ticket ≤ 1 := by
  have := h.fresh ticket
  split at this <;> omega

theorem Sound.handovers_le {c : Client} (h : Sound c) (ticket : Nat) : c.handovers ticket ≤ 1 := by
  have hbegun := h.handover.begun ticket
  have haccepted := h.ledger.acceptances_le ticket
  omega

theorem count_numbered (history : List Occurrence) (ticket : Nat)
    : ((history.filterMap Occurrence.numbered?).map (·.2.1)).count ticket
        ≤ (history.filterMap Occurrence.begun?).count ticket := by
  induction history with
  | nil => apply Nat.le_refl
  | cons o history ih =>
    cases o with
    | begun line t id =>
      cases id with
      | none =>
        simp only [List.filterMap_cons, Occurrence.numbered?, Occurrence.begun?, List.count_cons]
        omega
      | some id =>
        simp only [List.filterMap_cons, Occurrence.numbered?, Occurrence.begun?, List.map_cons,
          List.count_cons]
        omega
    | _ => exact ih

theorem Sound.numbered_nodup {c : Client} (h : Sound c) : (c.numbered.map (·.2.1)).Nodup := by
  apply List.nodup_iff_count_le_one.2
  intro ticket
  have hcount := count_numbered c.history ticket
  have hle := h.handovers_le ticket
  exact Nat.le_trans hcount hle

end JsonRpc.Client
