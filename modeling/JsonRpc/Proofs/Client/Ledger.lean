import JsonRpc.Proofs.Client.Custody
import Mathlib.Data.List.Nodup

/-!
What becomes of accepted commands. Each of them is in one place: in the mailbox, in the write that
is in progress, among the pending calls, or settled for good.
-/

namespace JsonRpc.Client

variable {A : Event → Prop}

def Occurrence.accepted? : Occurrence → Option Nat
  | .accepted ticket => some ticket
  | _ => none

def Occurrence.settled? : Occurrence → Option Nat
  | .replied ticket _ => some ticket
  | _ => none

def acceptances (c : Client) (ticket : Nat) : Nat :=
  (c.history.filterMap Occurrence.accepted?).count ticket

def settlements (c : Client) (ticket : Nat) : Nat :=
  (c.history.filterMap Occurrence.settled?).count ticket

def held (c : Client) : List Nat :=
  c.mailbox ++ c.phase.job?.toList.map Job.ticket ++ c.pending.map Prod.snd

section Pending

variable {pending : List (Int64 × Nat)}

theorem keys_filter (hkeys : (pending.map Prod.fst).Nodup) (p : Int64 × Nat → Bool)
    : ((pending.filter p).map Prod.fst).Nodup := by
  exact hkeys.sublist (List.filter_sublist.map _)

theorem count_pending (hkeys : (pending.map Prod.fst).Nodup) (id : Int64) (ticket : Nat)
    : (pending.map Prod.snd).count ticket
        =
      ((pending.filter (·.1 ≠ id)).map Prod.snd).count ticket +
        (pending.lookup id).toList.count ticket := by
  induction pending with
  | nil => rfl
  | cons e pending ih =>
    obtain ⟨key, t⟩ := e
    simp only [List.map_cons, List.nodup_cons] at hkeys
    -- Where the keys differ pairwise, the first entry under `id` is the only one.
    by_cases hkey : id = key
    . subst hkey
      have hrest : pending.filter (·.1 ≠ id) = pending := by
        apply List.filter_eq_self.2
        intro e he
        have hmem : e.1 ∈ pending.map Prod.fst := List.mem_map_of_mem he
        have hne : e.1 ≠ id := by
          intro heq
          rw [heq] at hmem
          exact hkeys.1 hmem
        simpa using hne
      rw [List.filter_cons_of_neg (by simp), hrest, List.lookup_cons_self]
      simp [List.count_cons]
    . have hlookup : ((key, t) :: pending).lookup id = pending.lookup id := by
        rw [List.lookup_cons, beq_false_of_ne hkey]
      rw [hlookup, List.filter_cons_of_pos (by simpa using Ne.symm hkey), List.map_cons,
        List.map_cons, List.count_cons, List.count_cons, ih hkeys.2]
      omega

theorem recipient?_eq_some_iff {response : Response} {id : Int64} {ticket : Nat}
    : recipient? pending response = some (id, ticket)
        ↔ callOf? response.id = some id ∧ pending.lookup id = some ticket := by
  simp [recipient?, Option.bind_eq_some_iff]

theorem lookup_of_recipient?_none {response : Response} {id : Int64}
    (h : recipient? pending response = none) (hcall : callOf? response.id = some id)
    : pending.lookup id = none := by
  simpa [recipient?, hcall] using h

theorem lookup_filter_ne (id id' : Int64)
    : (pending.filter (·.1 ≠ id')).lookup id = if id = id' then none else pending.lookup id := by
  induction pending with
  | nil => simp
  | cons e pending ih =>
    obtain ⟨key, ticket⟩ := e
    by_cases hkey : key = id'
    . subst hkey
      rw [List.filter_cons_of_neg (by simp), ih]
      by_cases hid : id = key
      . simp [hid]
      . simp [hid, List.lookup_cons, beq_false_of_ne hid]
    . rw [List.filter_cons_of_pos (by simpa using hkey), List.lookup_cons, List.lookup_cons, ih]
      by_cases hid : id = key
      . simp [hid, hkey]
      . simp [beq_false_of_ne hid]

theorem mem_of_lookup {id : Int64} {ticket : Nat} (h : pending.lookup id = some ticket)
    : (id, ticket) ∈ pending := by
  obtain ⟨before, after, rfl, -⟩ := List.lookup_eq_some_iff.1 h
  simp

theorem lookup_of_mem {id : Int64} {ticket : Nat} (hkeys : (pending.map Prod.fst).Nodup)
    (hmem : (id, ticket) ∈ pending) : pending.lookup id = some ticket := by
  cases hlookup : pending.lookup id with
  | none =>
    have := List.lookup_eq_none_iff.1 hlookup _ hmem
    simp at this
  | some other =>
    have hsame := List.inj_on_of_nodup_map hkeys (mem_of_lookup hlookup) hmem rfl
    cases hsame
    rfl

theorem exists_of_mem_answers {responses : List Response} {answer : Nat × Response}
    (h : answer ∈ answers pending responses)
    : ∃ id, callOf? answer.2.id = some id ∧ (id, answer.1) ∈ pending := by
  induction responses generalizing pending with
  | nil => cases h
  | cons response responses ih =>
    unfold answers at h
    split at h
    . exact ih h
    . next id ticket hrecipient =>
      obtain ⟨hcall, hlookup⟩ := recipient?_eq_some_iff.1 hrecipient
      rcases List.mem_cons.1 h with rfl | hmem
      . exact ⟨id, hcall, mem_of_lookup hlookup⟩
      . obtain ⟨id', hcall, hpending⟩ := ih hmem
        exact ⟨id', hcall, List.mem_of_mem_filter hpending⟩

theorem answers_sublist (responses : List Response)
    : ((answers pending responses).map Prod.snd).Sublist responses := by
  induction responses generalizing pending with
  | nil => apply List.Sublist.refl
  | cons response responses ih =>
    unfold answers
    split
    . exact ih.cons _
    . exact ih.cons_cons _

theorem filter_answers (id : Int64) (responses : List Response)
    : (answers pending responses).filter (fun a => callOf? a.2.id = some id)
        =
      ((pending.lookup id).bind fun ticket =>
        (responses.find? fun r => callOf? r.id = some id).map (ticket, ·)).toList := by
  induction responses generalizing pending with
  | nil => cases pending.lookup id <;> rfl
  | cons response responses ih =>
    unfold answers
    split
    . next hrecipient =>
      rw [ih]
      by_cases hcall : callOf? response.id = some id
      . rw [lookup_of_recipient?_none hrecipient hcall]
        rfl
      . rw [List.find?_cons_of_neg (by simpa using hcall)]
    . next id' ticket hrecipient =>
      obtain ⟨hcall, hlookup⟩ := recipient?_eq_some_iff.1 hrecipient
      by_cases hid : id = id'
      . -- Whoever waited under this identifier waits no more.
        subst hid
        rw [List.filter_cons_of_pos (by simpa using hcall), ih, lookup_filter_ne, if_pos rfl,
          hlookup, List.find?_cons_of_pos (by simpa using hcall)]
        rfl
      . have hother : callOf? response.id ≠ some id := by
          rw [hcall]
          simpa using Ne.symm hid
        rw [List.filter_cons_of_neg (by simpa using hother), ih, lookup_filter_ne, if_neg hid,
          List.find?_cons_of_neg (by simpa using hother)]

theorem unanswered_eq_filter (responses : List Response)
    : unanswered pending responses
        = pending.filter fun e => responses.all fun r => callOf? r.id ≠ some e.1 := by
  induction responses generalizing pending with
  | nil => simp [unanswered]
  | cons response responses ih =>
    unfold unanswered
    split
    . next hrecipient =>
      rw [ih]
      apply List.filter_congr
      rintro ⟨id, ticket⟩ hmem
      have hother : callOf? response.id ≠ some id := by
        intro hcall
        have hnone := List.lookup_eq_none_iff.1 (lookup_of_recipient?_none hrecipient hcall)
        simpa using hnone (id, ticket) hmem
      simp [hother]
    . next id ticket hrecipient =>
      obtain ⟨hcall, -⟩ := recipient?_eq_some_iff.1 hrecipient
      rw [ih, List.filter_filter]
      apply List.filter_congr
      intro e he
      rw [Bool.and_comm, List.all_cons, hcall]
      simp [eq_comm]

theorem unanswered_sublist (responses : List Response)
    : (unanswered pending responses).Sublist pending := by
  rw [unanswered_eq_filter]
  exact List.filter_sublist

theorem count_answers (hkeys : (pending.map Prod.fst).Nodup) (responses : List Response)
    (ticket : Nat)
    : ((answers pending responses).map Prod.fst).count ticket +
        ((unanswered pending responses).map Prod.snd).count ticket
        =
      (pending.map Prod.snd).count ticket := by
  induction responses generalizing pending with
  | nil => simp [answers, unanswered]
  | cons response responses ih =>
    unfold answers unanswered
    split
    . exact ih hkeys
    . next id t hrecipient =>
      have hrest := ih (keys_filter hkeys (·.1 ≠ id))
      have hsplit := count_pending hkeys id ticket
      rw [(recipient?_eq_some_iff.1 hrecipient).2, Option.toList_some, List.count_singleton]
        at hsplit
      rw [List.map_cons, List.count_cons]
      dsimp only at *
      omega

theorem answered_or_unanswered {id : Int64} {ticket : Nat}
    (hkeys : (pending.map Prod.fst).Nodup) (hmem : (id, ticket) ∈ pending)
    (responses : List Response)
    : (id, ticket) ∈ unanswered pending responses ∨
        ∃ response, (ticket, response) ∈ answers pending responses ∧
          callOf? response.id = some id := by
  induction responses generalizing pending with
  | nil => exact .inl hmem
  | cons response responses ih =>
    unfold unanswered answers
    split
    . exact ih hkeys hmem
    . next id' ticket' hrecipient =>
      obtain ⟨hcall, hlookup⟩ := recipient?_eq_some_iff.1 hrecipient
      by_cases hid : id' = id
      . -- Nobody else waits under this identifier.
        subst hid
        have hsame := List.inj_on_of_nodup_map hkeys (mem_of_lookup hlookup) hmem rfl
        cases hsame
        exact .inr ⟨response, List.mem_cons_self, hcall⟩
      . have hstays : (id, ticket) ∈ pending.filter (·.1 ≠ id') :=
          List.mem_filter.2 ⟨hmem, by simpa using Ne.symm hid⟩
        rcases ih (keys_filter hkeys _) hstays with hwaits | ⟨response', hanswer, hcall⟩
        . exact .inl hwaits
        . exact .inr ⟨response', List.mem_cons_of_mem _ hanswer, hcall⟩

theorem unnamed_of_unanswered {id : Int64} {ticket : Nat} {responses : List Response}
    (h : (id, ticket) ∈ unanswered pending responses) {response : Response}
    (hresponse : response ∈ responses) : callOf? response.id ≠ some id := by
  rw [unanswered_eq_filter, List.mem_filter, List.all_eq_true] at h
  simpa using h.2 response hresponse

theorem answered_of_named {id : Int64} {ticket : Nat} (hkeys : (pending.map Prod.fst).Nodup)
    (hmem : (id, ticket) ∈ pending) {responses : List Response} {response : Response}
    (hresponse : response ∈ responses) (hcall : callOf? response.id = some id)
    : ∃ answer, (ticket, answer) ∈ answers pending responses ∧ answer ∈ responses ∧
        callOf? answer.id = some id := by
  rcases answered_or_unanswered hkeys hmem responses with hwaits | ⟨answer, hanswer, hnames⟩
  . exact absurd hcall (unnamed_of_unanswered hwaits hresponse)
  . have hmem : answer ∈ (answers pending responses).map Prod.snd :=
      List.mem_map.2 ⟨_, hanswer, rfl⟩
    exact ⟨answer, hanswer, (answers_sublist responses).subset hmem, hnames⟩

end Pending

theorem job?_of_isOffline {phase : Phase} (h : phase.IsOffline) : phase.job? = none := by
  cases phase <;> first | rfl | exact h.elim

theorem driven?_of_isOffline {phase : Phase} (h : phase.IsOffline) : phase.driven? = none := by
  cases phase <;> first | rfl | exact h.elim

structure Ledger (c : Client) : Prop where
  balance : ∀ ticket, c.acceptances ticket = c.settlements ticket + c.held.count ticket
  fresh : ∀ ticket, c.acceptances ticket + c.waiting.count ticket
    ≤ if ticket < c.commands.length then 1 else 0
  keys : (c.pending.map Prod.fst).Nodup
  offline : c.phase.driven? = none → c.pending = []
  stopped : c.phase = .stopped → c.mailbox = [] ∧ c.waiting = []

namespace Ledger

section Tally

attribute [local simp] acceptances settlements held Occurrence.accepted? Occurrence.settled?
  List.filterMap_cons List.count_cons Function.comp_def Phase.job? Phase.driven?

theorem start (config : ClientConfig) : Ledger (start config) := by
  constructor <;> simp [Client.start]

theorem absent {c : Client} (h : Ledger c) {ticket : Nat} (hlt : c.commands.length ≤ ticket)
    : c.acceptances ticket = 0 ∧ c.waiting.count ticket = 0 := by
  have := h.fresh ticket
  rw [if_neg (by omega)] at this
  omega

theorem lt_of_mem_mailbox {c : Client} (h : Ledger c) {ticket : Nat} (hmem : ticket ∈ c.mailbox)
    : ticket < c.commands.length := by
  by_contra hge
  have habsent := (h.absent (Nat.le_of_not_lt hge)).1
  have hbalance := h.balance ticket
  have : 0 < c.mailbox.count ticket := List.count_pos_iff.2 hmem
  simp only [held, List.count_append] at hbalance
  omega

theorem outside_of_waiting {c : Client} (h : Ledger c) {ticket : Nat} (hmem : ticket ∈ c.waiting)
    : ticket < c.commands.length ∧ c.acceptances ticket = 0 := by
  have hfresh := h.fresh ticket
  have hpos : 0 < c.waiting.count ticket := List.count_pos_iff.2 hmem
  split at hfresh
  . next hissued => exact ⟨hissued, by omega⟩
  . omega

theorem balance_move {c c' : Client} (h : Ledger c) (hmove : Move A c c') (ticket : Nat)
    : c'.acceptances ticket = c'.settlements ticket + c'.held.count ticket := by
  have hbalance := h.balance ticket
  cases hmove with
  | queue | abandon | release | closers | look | arrive => exact hbalance
  | accept | enter =>
    simp at *
    omega
  | refuse | borrowerWrites | shutDown => simpa using hbalance
  | read line before after arrival => cases arrival <;> simpa [Except.toOption] using hbalance
  | connect hevent hphase | backOff wake hphase => simpa [hphase] using hbalance
  | attempt hphase =>
    have hjob := job?_of_isOffline hphase
    simp only [held, hjob] at hbalance
    simpa using hbalance
  | stop hphase =>
    have hjob := job?_of_isOffline hphase
    simp only [held, hjob] at hbalance
    simp at *
    omega
  | leave line exit hphase =>
    simp [hphase] at *
    omega
  | dispatch line before message rest hphase =>
    have := count_answers h.keys (responsesOf message) ticket
    simp [hphase] at *
    omega
  | reclaim => exact hbalance
  | hangUp line exit hphase => cases hhand : c.hand <;> simpa [hphase, hhand] using hbalance
  | skip line ticket' rest htake hcommand =>
    -- Every ticket in the mailbox has its command.
    have : ticket' < c.commands.length := h.lt_of_mem_mailbox (by simp [htake.mailbox])
    simp at hcommand
    omega
  | turnAway line ticket' rest htake | dropCall line ticket' rest request htake
  | beginCall line ticket' rest request htake | beginNotify line ticket' rest request htake
  | lend line ticket' rest htake =>
    simp [htake.mailbox, htake.phase] at *
    omega
  | transmit line job hevent hphase => simpa [hphase] using hbalance
  | finishCall line job id hphase =>
    have := count_pending h.keys id ticket
    cases hlookup : c.pending.lookup id with
    | none =>
      simp [hphase, hlookup] at *
      omega
    | some earlier =>
      simp [hphase, hlookup] at *
      omega
  | finishNotify line job hphase | breakOff line job exit hphase =>
    simp [hphase] at *
    omega

theorem fresh_move {c c' : Client} (h : Ledger c) (hmove : Move A c c') (ticket : Nat)
    : c'.acceptances ticket + c'.waiting.count ticket
        ≤ if ticket < c'.commands.length then 1 else 0 := by
  have hfresh := h.fresh ticket
  cases hmove with
  | accept | queue =>
    have habsent := h.absent (Nat.le_refl c.commands.length)
    by_cases hticket : c.commands.length = ticket
    . subst hticket
      simp at *
      omega
    . have hlt : ticket < c.commands.length + 1 ↔ ticket < c.commands.length := by omega
      simpa [hticket, hlt] using hfresh
  | refuse =>
    simp at *
    split at hfresh <;> split <;> omega
  | enter ticket' rest hwaiting =>
    simp [hwaiting] at *
    omega
  | abandon ticket' =>
    have : (c.waiting.filter (· ≠ ticket')).count ticket ≤ c.waiting.count ticket :=
      List.filter_sublist.count_le ticket
    simp only [acceptances] at *
    omega
  | stop =>
    simp at *
    omega
  | read line before after arrival => cases arrival <;> simpa [Except.toOption] using hfresh
  | hangUp => cases hhand : c.hand <;> simpa [hhand] using hfresh
  | finishCall line job id => cases hlookup : c.pending.lookup id <;> simpa [hlookup] using hfresh
  | release | closers | look | arrive | backOff | reclaim | skip => exact hfresh
  | borrowerWrites | shutDown | connect | attempt | leave | dispatch | turnAway | dropCall
  | beginCall | beginNotify | lend | transmit | finishNotify | breakOff => simpa using hfresh

theorem keys_move {c c' : Client} (h : Ledger c) (hmove : Move A c c')
    : (c'.pending.map Prod.fst).Nodup := by
  cases hmove with
  | leave => exact List.nodup_nil
  | dispatch => exact h.keys.sublist ((unanswered_sublist _).map _)
  | finishCall line job id =>
    simp only [List.map_append, List.map_cons, List.map_nil]
    apply List.nodup_append.2
    refine ⟨keys_filter h.keys _, List.nodup_singleton id, ?_⟩
    simp
  | _ => exact h.keys

theorem offline_move {c c' : Client} (h : Ledger c) (hmove : Move A c c')
    (hdriven : c'.phase.driven? = none) : c'.pending = [] := by
  cases hmove with
  | leave => rfl
  | hangUp line exit hphase => exact h.offline (by rw [hphase]; rfl)
  | backOff wake hphase => exact h.offline (by rw [hphase]; rfl)
  | attempt hphase | stop hphase => exact h.offline (driven?_of_isOffline hphase)
  | dispatch line before message rest hphase => simp [hphase] at hdriven
  | connect | beginCall | beginNotify | transmit | finishCall | finishNotify | breakOff =>
    simp at hdriven
  | _ => exact h.offline hdriven

theorem stopped_move {c c' : Client} (h : Ledger c) (hmove : Move A c c')
    (hstopped : c'.phase = .stopped) : c'.mailbox = [] ∧ c'.waiting = [] := by
  cases hmove with
  | stop => exact ⟨rfl, rfl⟩
  | accept command hphase | queue command hphase => exact absurd hstopped hphase
  | enter ticket rest hwaiting =>
    have := (h.stopped hstopped).2
    simp [hwaiting] at this
  | abandon =>
    obtain ⟨hmailbox, hwaiting⟩ := h.stopped hstopped
    exact ⟨hmailbox, by simp [hwaiting]⟩
  | skip line ticket rest htake | turnAway line ticket rest htake
  | dropCall line ticket rest request htake | lend line ticket rest htake =>
    simp [htake.phase] at hstopped
  | connect | backOff | attempt | leave | hangUp | beginCall | beginNotify | transmit
  | finishCall | finishNotify | breakOff => simp at hstopped
  | _ => exact h.stopped hstopped

theorem move {c c' : Client} (h : Ledger c) (hmove : Move A c c') : Ledger c' where
  balance := h.balance_move hmove
  fresh := h.fresh_move hmove
  keys := h.keys_move hmove
  offline := h.offline_move hmove
  stopped := h.stopped_move hmove

end Tally

end Ledger

end JsonRpc.Client
