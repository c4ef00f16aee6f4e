import JsonRpc.Proofs.Client.Correlation

/-!
The messages that go out on a line. Each was written for a command, as its request, or by a borrower
of the writer.
-/

namespace JsonRpc.Client

variable {A : Event → Prop}

def Occurrence.carried? (line : Nat) : Occurrence → Option (Nat × Bytes)
  | .transmitted l ticket message => if l = line then some (ticket, message) else none
  | _ => none

def carried (c : Client) (line : Nat) : List (Nat × Bytes) :=
  c.history.reverse.filterMap (Occurrence.carried? line)

theorem Move.carried_sublist {c c' : Client} (h : Move A c c') (line : Nat)
    : (c.carried line).Sublist (c'.carried line) := by
  exact h.grows.2.sublist.reverse.filterMap _

theorem Moves.carried_sublist {c c' : Client} (h : Moves A c c') (line : Nat)
    : (c.carried line).Sublist (c'.carried line) := by
  induction h with
  | refl => apply List.Sublist.refl
  | tail _ hmove ih => exact ih.trans (hmove.carried_sublist line)

theorem carried_note_transmitted (c : Client) (line ticket : Nat) (message : Bytes)
    : (c.note (.transmitted line ticket message)).carried line
        =
      c.carried line ++ [(ticket, message)] := by
  simp [carried, note, Occurrence.carried?]

theorem carried_of_transmits? {c c' : Client} {line : Nat} {job : Job}
    (hphase : c.phase = .writing line job) (h : c.transmits? = some c')
    : c'.carried line = c.carried line ++ [(job.ticket, job.request.encode)] := by
  unfold transmits? at h
  rw [hphase] at h
  dsimp only at h
  split at h
  . cases h
  . cases h
    exact carried_note_transmitted _ line job.ticket _

theorem carried_of_borrowerWrites? {c c' : Client} {ticket : Nat} {loan : Loan} {message : Bytes}
    (hloan : c.loan? ticket = some loan) (h : c.borrowerWrites? ticket message = some c')
    : c'.carried loan.line = c.carried loan.line ++ [(loan.ticket, message)] := by
  unfold borrowerWrites? at h
  rw [hloan] at h
  cases h
  apply carried_note_transmitted

theorem transmitted_of_mem_carried {c : Client} {line ticket : Nat} {message : Bytes}
    (h : (ticket, message) ∈ c.carried line) : .transmitted line ticket message ∈ c.history := by
  obtain ⟨o, ho, heq⟩ := List.mem_filterMap.1 h
  cases o with
  | transmitted l t m =>
    simp only [Occurrence.carried?, Option.ite_none_right_eq_some, Option.some.injEq,
      Prod.mk.injEq] at heq
    obtain ⟨rfl, rfl, rfl⟩ := heq
    exact List.mem_reverse.1 ho
  | _ => cases heq

theorem count_carried (history : List Occurrence) (line ticket : Nat)
    : ((history.filterMap (Occurrence.carried? line)).map Prod.fst).count ticket
        ≤ (history.filterMap Occurrence.transmitted?).count ticket := by
  induction history with
  | nil => apply Nat.le_refl
  | cons o history ih =>
    cases o with
    | transmitted l t m =>
      simp only [List.filterMap_cons, Occurrence.carried?, Occurrence.transmitted?, List.count_cons]
      by_cases hline : l = line
      . simp only [hline, if_true, List.map_cons, List.count_cons]
        omega
      . simp only [hline, if_false]
        omega
    | _ => exact ih

theorem Sound.count_carried_le {c : Client} (h : Sound c) {ticket : Nat} (line : Nat)
    (hticket : c.commands[ticket]? ≠ some .lend)
    : ((c.carried line).map Prod.fst).count ticket ≤ 1 := by
  -- What leaves for a call, on any line, leaves for its one handover.
  have hcount := count_carried c.history line ticket
  have htransmitted := h.handover.transmitted ticket hticket
  have hle := h.handovers_le ticket
  have hcarried : ((c.carried line).map Prod.fst).count ticket
      = ((c.history.filterMap (Occurrence.carried? line)).map Prod.fst).count ticket := by
    unfold carried
    rw [List.filterMap_reverse, List.map_reverse, List.count_reverse]
  unfold departures at htransmitted
  omega

inductive Origin (A : Event → Prop) (c : Client) (line ticket : Nat) (message : Bytes) : Prop where
  | written (id : Option Int64) (request : Request)
    (hrequest : requestOf? c.commands ticket id = some request)
    (hbegun : .begun line ticket id ∈ c.history) (hmessage : message = request.encode)
  | borrowed (hlend : c.commands[ticket]? = some .lend)
    (hevent : A (.borrowerWrites ticket message))

def Outbound (A : Event → Prop) (c : Client) : Prop :=
  ∀ line ticket message, .transmitted line ticket message ∈ c.history →
    Origin A c line ticket message

theorem Origin.move {c c' : Client} {line ticket : Nat} {message : Bytes}
    (h : Origin A c line ticket message) (hmove : Move A c c') : Origin A c' line ticket message := by
  obtain ⟨⟨more, hmore⟩, hsuffix⟩ := hmove.grows
  cases h with
  | written id request hrequest hbegun hmessage =>
    refine .written id request ?_ (hsuffix.subset hbegun) hmessage
    rw [hmore]
    exact requestOf?_append hrequest more
  | borrowed hlend hevent =>
    refine .borrowed ?_ hevent
    rw [hmore]
    exact getElem?_append_of_eq_some hlend more

theorem Origin.mono {B : Event → Prop} (hB : ∀ event, A event → B event) {c : Client}
    {line ticket : Nat} {message : Bytes} (h : Origin A c line ticket message)
    : Origin B c line ticket message := by
  cases h with
  | written id request hrequest hbegun hmessage => exact .written id request hrequest hbegun hmessage
  | borrowed hlend hevent => exact .borrowed hlend (hB _ hevent)

theorem origin_of_move {c c' : Client} (hsound : Sound c) (hmove : Move A c c') {line ticket : Nat}
    {message : Bytes} (h : .transmitted line ticket message ∈ c'.history)
    : .transmitted line ticket message ∈ c.history ∨ Origin A c' line ticket message := by
  cases hmove with
  | transmit line' job hevent hphase =>
    rcases List.mem_cons.1 h with heq | hold
    . cases heq
      obtain ⟨hrequest, htrace⟩ := hsound.writing.job line job hphase
      have hbegun : .begun line job.ticket job.id ∈ c.history := by
        apply htrace.subset
        unfold Job.trace
        split <;> simp
      exact .inr (.written job.id job.request hrequest (List.mem_cons_of_mem _ hbegun) rfl)
    . exact .inl hold
  | borrowerWrites ticket' loan message' hevent hloan =>
    rcases List.mem_cons.1 h with heq | hold
    . cases heq
      have hlend :=
        hsound.handover.borrowed loan (List.mem_append_left _ (List.mem_of_find?_eq_some hloan))
      have hticket : loan.ticket = ticket' := by simpa using List.find?_some hloan
      refine .inr (.borrowed hlend ?_)
      rw [hticket]
      exact hevent
    . exact .inl hold
  | queue | abandon | release | closers | look | arrive | backOff | reclaim | skip => exact .inl h
  | read line' before after arrival =>
    cases arrival <;> exact .inl (by simpa [Except.toOption] using h)
  | hangUp => cases hhand : c.hand <;> exact .inl (by simpa [hhand] using h)
  | finishCall line' job id => cases hlookup : c.pending.lookup id <;> exact .inl (by simpa [hlookup] using h)
  | _ => exact .inl (by simpa using h)

theorem Outbound.move {c c' : Client} (h : Outbound A c) (hsound : Sound c) (hmove : Move A c c')
    : Outbound A c' := by
  intro line ticket message hmem
  rcases origin_of_move hsound hmove hmem with hold | hnew
  . exact (h line ticket message hold).move hmove
  . exact hnew

structure Traced (A : Event → Prop) (c : Client) : Prop where
  sound : Sound c
  orderly : Orderly c
  correlation : Correlation c
  outbound : Outbound A c
  hears : Hears A c

namespace Traced

theorem start (config : ClientConfig) : Traced A (start config) := by
  refine ⟨Sound.start config, Orderly.start config, Correlation.start config, ?_, Hears.start config⟩
  intro line ticket message h
  simp [Client.start] at h

theorem move {c c' : Client} (h : Traced A c) (hmove : Move A c c') : Traced A c' :=
  ⟨h.sound.move hmove, h.orderly.move hmove, h.correlation.move h.sound.writing h.orderly hmove,
    h.outbound.move h.sound hmove, h.hears.move hmove⟩

theorem mono {B : Event → Prop} (hB : ∀ event, A event → B event) {c : Client} (h : Traced A c)
    : Traced B c where
  sound := h.sound
  orderly := h.orderly
  correlation := h.correlation
  outbound line ticket message hmem := (h.outbound line ticket message hmem).mono hB
  hears line message hmem := hB _ (h.hears line message hmem)

theorem moves {c c' : Client} (h : Traced A c) (hmoves : Moves A c c') : Traced A c' := by
  exact hmoves.keep (fun _ _ => Traced.move) h

end Traced

end JsonRpc.Client
