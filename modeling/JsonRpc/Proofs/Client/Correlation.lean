import JsonRpc.Proofs.Client.Handover
import JsonRpc.Proofs.Client.Inbound
import Mathlib.Algebra.Group.Nat.Defs
import Mathlib.Data.List.Induction

/-!
Which response goes to which call. A call is answered only by a response that was read on the line
that its request was written on, after the write, and under its own identifier.
-/

namespace JsonRpc.Client

variable {A : Event → Prop}

/-- A message that was handed out: the calls that it answered in order, and what was before. -/
structure Delivery where
  line : Nat
  message : Bytes
  answers : List (Nat × Response)
  earlier : List Occurrence

def deliveries (history : List Occurrence) : List Delivery :=
  go [] history
where
  go (answers : List (Nat × Response)) : List Occurrence → List Delivery
    | [] => []
    | .replied ticket (.answered response) :: rest => go ((ticket, response) :: answers) rest
    | .dispatched line message :: rest => ⟨line, message, answers, rest⟩ :: go [] rest
    | _ :: rest => go [] rest

def Occurrence.answer? : Occurrence → Option (Nat × Response)
  | .replied ticket (.answered response) => some (ticket, response)
  | _ => none

def Answers (commands : List Command) (earlier : List Occurrence) (line : Nat)
    (answer : Nat × Response) : Prop :=
  ∃ id s, answer.2.id = .text s ∧ WireId.parse? s = some id ∧
    Sent commands earlier line answer.1 (some id)

structure Delivery.Correlated (d : Delivery) (commands : List Command) : Prop where
  received : .received d.line d.message ∈ d.earlier
  responses : (d.answers.map Prod.snd).Sublist (responsesOf d.message)
  answers : ∀ answer ∈ d.answers, Answers commands d.earlier d.line answer

theorem deliveries.go_answers (xs answers : List (Nat × Response)) (rest : List Occurrence)
    : go answers ((xs.map fun a => .replied a.1 (.answered a.2)).reverse ++ rest)
        =
      go (xs ++ answers) rest := by
  induction xs using List.reverseRecOn generalizing answers with
  | nil => rfl
  | append_singleton xs x ih =>
    simp only [List.map_append, List.map_cons, List.map_nil, List.reverse_append,
      List.reverse_singleton, List.cons_append, List.nil_append, go, List.append_assoc]
    exact ih _

def Occurrence.IsQuiet : Occurrence → Prop
  | .replied _ (.answered _) | .dispatched _ _ => False
  | _ => True

theorem deliveries.go_quiet {o : Occurrence} (h : o.IsQuiet) (answers : List (Nat × Response))
    (rest : List Occurrence) : go answers (o :: rest) = deliveries rest := by
  cases o with
  | replied ticket reply => cases reply <;> first | rfl | exact h.elim
  | dispatched line message => exact h.elim
  | _ => rfl

theorem deliveries_append {quiet : List Occurrence} (h : ∀ o ∈ quiet, o.IsQuiet)
    (rest : List Occurrence) : deliveries (quiet ++ rest) = deliveries rest := by
  induction quiet with
  | nil => rfl
  | cons o quiet ih =>
    rw [List.cons_append]
    unfold deliveries
    rw [deliveries.go_quiet (h o (by simp))]
    exact ih fun o ho => h o (List.mem_cons_of_mem _ ho)

theorem deliveries_dispatch (answers : List (Nat × Response)) (line : Nat) (message : Bytes)
    (rest : List Occurrence)
    : deliveries ((answers.map fun a => .replied a.1 (.answered a.2)).reverse ++
        .dispatched line message :: rest)
        =
      ⟨line, message, answers, rest⟩ :: deliveries rest := by
  unfold deliveries
  rw [deliveries.go_answers, List.append_nil]
  rfl

theorem answer?_of_isQuiet {o : Occurrence} (h : o.IsQuiet) : o.answer? = none := by
  cases o with
  | replied ticket reply => cases reply <;> first | rfl | exact h.elim
  | _ => rfl

theorem isQuiet_refusal (commands : List Command) (ticket t : Nat) (error : ClientError)
    : (Occurrence.replied t (refusal commands ticket error)).IsQuiet := by
  unfold refusal
  split <;> trivial

theorem Move.handsOut {c c' : Client} (hmove : Move A c c')
    : (∃ quiet, (∀ o ∈ quiet, o.IsQuiet) ∧ c'.history = quiet ++ c.history) ∨
        ∃ line before message rest, c.phase = .driving line ∧ c.lines[line]? = some before ∧
          before.buffer = .ok message :: rest ∧
          c'.history = ((answers c.pending (responsesOf message)).map fun a =>
            .replied a.1 (.answered a.2)).reverse ++ .dispatched line message :: c.history := by
  cases hmove with
  | dispatch line before message rest hphase hline hbuffer =>
    exact .inr ⟨line, before, message, rest, hphase, hline, hbuffer, rfl⟩
  | queue | abandon | release | closers | look | arrive | backOff | reclaim | skip =>
    exact .inl ⟨[], by simp, rfl⟩
  | read line before after arrival =>
    refine .inl ⟨_, ?_, rfl⟩
    cases arrival <;> simp [Except.toOption, Occurrence.IsQuiet]
  | stop =>
    rw [← List.append_assoc]
    refine .inl ⟨_, ?_, rfl⟩
    simp only [List.mem_append, List.mem_reverse, List.mem_map]
    rintro o (⟨t, -, rfl⟩ | ⟨t, -, rfl⟩)
    . trivial
    . apply isQuiet_refusal
  | leave =>
    refine .inl ⟨_, ?_, rfl⟩
    simp only [List.mem_reverse, List.mem_map]
    rintro o ⟨e, -, rfl⟩
    trivial
  | hangUp =>
    refine .inl ⟨_, ?_, rfl⟩
    cases c.hand <;> simp [Occurrence.IsQuiet]
  | turnAway line ticket rest htake hhand =>
    refine .inl ⟨[_], ?_, rfl⟩
    simpa using isQuiet_refusal _ _ _ _
  | finishCall line job id =>
    refine .inl ⟨((c.pending.lookup id).map (.replied · .dropped)).toList ++ [.written line job.ticket],
      ?_, by simp⟩
    cases c.pending.lookup id <;> simp [Occurrence.IsQuiet]
  | finishNotify line job =>
    exact .inl ⟨[.replied job.ticket .sent, .written line job.ticket], by simp [Occurrence.IsQuiet], rfl⟩
  | _ => exact .inl ⟨[_], by simp [Occurrence.IsQuiet], rfl⟩

theorem deliveries.go_split {d : Delivery} {history : List Occurrence} {answers : List (Nat × Response)}
    (h : d ∈ go answers history)
    : ∃ later, history = later ++ .dispatched d.line d.message :: d.earlier := by
  -- The induction is the scan itself: whatever is passed over comes later than the delivery.
  fun_induction go answers history with
  | case1 => cases h
  | case2 answers ticket response rest ih =>
    obtain ⟨later, rfl⟩ := ih h
    exact ⟨.replied ticket (.answered response) :: later, rfl⟩
  | case3 answers line message rest ih =>
    rcases List.mem_cons.1 h with rfl | h
    . exact ⟨[], rfl⟩
    . obtain ⟨later, rfl⟩ := ih h
      exact ⟨.dispatched line message :: later, rfl⟩
  | case4 answers o rest _ _ ih =>
    obtain ⟨later, rfl⟩ := ih h
    exact ⟨o :: later, rfl⟩

theorem earlier_suffix {d : Delivery} {history : List Occurrence} (h : d ∈ deliveries history)
    : d.earlier.IsSuffix history := by
  obtain ⟨later, rfl⟩ := deliveries.go_split h
  exact (List.suffix_cons _ _).trans (List.suffix_append _ _)

theorem Delivery.Correlated.mono {d : Delivery} {commands : List Command}
    (h : d.Correlated commands) (more : List Command) : d.Correlated (commands ++ more) := by
  refine ⟨h.received, h.responses, ?_⟩
  intro answer hanswer
  obtain ⟨id, s, hid, hparse, hsent⟩ := h.answers answer hanswer
  exact ⟨id, s, hid, hparse, hsent.mono (List.Sublist.refl _)⟩

theorem Orderly.received_of_buffer {c : Client} (h : Orderly c) {line : Nat} {before : Line}
    {message : Bytes} {rest : List (Except TransportError Bytes)}
    (hline : c.lines[line]? = some before) (hbuffer : before.buffer = .ok message :: rest)
    : .received line message ∈ c.history := by
  have hheld := (h line).held
  have hmem : message ∈ (c.line line).unread := by
    simp [Client.line, hline, Line.unread, hbuffer, Except.toOption]
  have hreceived : message ∈ c.received line := hheld.subset (List.mem_append_right _ hmem)
  obtain ⟨o, ho, heq⟩ := List.mem_filterMap.1 hreceived
  cases o with
  | received l m =>
    simp only [Occurrence.received?, Option.ite_none_right_eq_some, Option.some.injEq] at heq
    obtain ⟨rfl, rfl⟩ := heq
    exact List.mem_reverse.1 ho
  | _ => cases heq

theorem text_of_callOf? {id : Id} {call : Int64} (h : callOf? id = some call)
    : ∃ s, id = .text s ∧ WireId.parse? s = some call := by
  cases id with
  | text s => exact ⟨s, rfl, h⟩
  | null | int => cases h

theorem correlated_dispatch {c : Client} (hwriting : Writing c) (horderly : Orderly c) {line : Nat}
    {before : Line} {message : Bytes} {rest : List (Except TransportError Bytes)}
    (hphase : c.phase = .driving line) (hline : c.lines[line]? = some before)
    (hbuffer : before.buffer = .ok message :: rest)
    : Delivery.Correlated ⟨line, message, answers c.pending (responsesOf message), c.history⟩
        c.commands := by
  refine ⟨horderly.received_of_buffer hline hbuffer, answers_sublist _, ?_⟩
  intro answer hanswer
  obtain ⟨id, hcall, hpending⟩ := exists_of_mem_answers hanswer
  obtain ⟨s, hid, hparse⟩ := text_of_callOf? hcall
  -- Whoever waits was written on the driven line, and so was the message handed out on it.
  obtain ⟨line', hdriven, hsent⟩ := hwriting.pending _ hpending
  rw [hphase] at hdriven
  cases hdriven
  exact ⟨id, s, hid, hparse, hsent⟩

structure Correlation (c : Client) : Prop where
  answers : c.history.filterMap Occurrence.answer?
    = (deliveries c.history).flatMap fun d => d.answers.reverse
  correlated : ∀ d ∈ deliveries c.history, d.Correlated c.commands

theorem Correlation.move {c c' : Client} (h : Correlation c) (hwriting : Writing c)
    (horderly : Orderly c) (hmove : Move A c c') : Correlation c' := by
  obtain ⟨more, hmore⟩ := hmove.grows.1
  have hold : ∀ d ∈ deliveries c.history, d.Correlated c'.commands := by
    intro d hd
    rw [hmore]
    exact (h.correlated d hd).mono more
  -- All but a dispatch is quiet and leaves the deliveries as they are.
  rcases hmove.handsOut with ⟨quiet, hquiet, hhistory⟩ | ⟨line, before, message, rest, hphase, hline, hbuffer, hhistory⟩
  . have hnone : quiet.filterMap Occurrence.answer? = [] := by
      apply List.filterMap_eq_nil_iff.2
      intro o ho
      exact answer?_of_isQuiet (hquiet o ho)
    constructor
    . rw [hhistory, deliveries_append hquiet, List.filterMap_append, hnone, List.nil_append]
      exact h.answers
    . rw [hhistory, deliveries_append hquiet]
      exact hold
  . have hnew := correlated_dispatch hwriting horderly hphase hline hbuffer
    constructor
    . rw [hhistory, deliveries_dispatch, List.flatMap_cons, ← h.answers, List.filterMap_append,
        List.filterMap_cons]
      simp [Occurrence.answer?, List.filterMap_map, Function.comp_def, ← List.map_reverse]
    . rw [hhistory, deliveries_dispatch]
      intro d hd
      rcases List.mem_cons.1 hd with rfl | hd
      . rw [hmore]
        exact hnew.mono more
      . exact hold d hd

theorem Correlation.start (config : ClientConfig) : Correlation (start config) := by
  constructor
  . rfl
  . simp [Client.start, deliveries, deliveries.go]

theorem correlation_of_run? {config : ClientConfig} {events : List Event} {c : Client}
    (h : (start config).run? events = some c) : Orderly c ∧ Correlation c := by
  apply holds_of_run? (P := fun c => Orderly c ∧ Correlation c) _ _ h
  . rintro c c' hsound ⟨horderly, hcorrelation⟩ hmove
    exact ⟨horderly.move hmove, hcorrelation.move hsound.writing horderly hmove⟩
  . exact ⟨Orderly.start config, Correlation.start config⟩

theorem Orderly.dispatched_prefix {c : Client} (h : Orderly c) (line : Nat)
    : (c.dispatched line).IsPrefix (c.received line) := by
  apply List.IsPrefix.trans _ (h line).held
  apply List.prefix_append

structure AnswersCorrelated (c : Client) : Prop where
  written : ∀ e ∈ c.pending, ∃ line, c.phase.driven? = some line ∧
    Sent c.commands c.history line e.2 (some e.1)
  distinct : (c.pending.map Prod.fst).Nodup
  below : c.numbered.length + 1 < 2 ^ 63 → ∀ e ∈ c.pending, e.1 < c.nextId
  offline : c.phase.driven? = none → c.pending = []
  once : (c.numbered.map (·.2.1)).Nodup
  identifiers : c.numbered.length ≤ 2 ^ 64 → (c.numbered.map (·.2.2)).Nodup
  answered : c.history.filterMap Occurrence.answer?
    = (deliveries c.history).flatMap fun d => d.answers.reverse
  correlated : ∀ d ∈ deliveries c.history, d.Correlated c.commands
  ordered : ∀ line, (c.dispatched line).IsPrefix (c.received line)

/--
In every run a call waits only if it was written in full on the line that the owner serves, under an
identifier of its own below the next one. Each call that is answered is answered by a message that
was read on the line of its request, handed out after the write, in which a response names the
call's identifier; each response of such a message answers at most one call, and each message is
handed out at most once.
-/
theorem answers_correlated {config : ClientConfig} {events : List Event} {c : Client}
    (h : (start config).run? events = some c) : AnswersCorrelated c := by
  have hsound := sound_of_run? h
  obtain ⟨horderly, hcorrelation⟩ := correlation_of_run? h
  constructor
  case written => exact hsound.writing.pending
  case distinct => exact hsound.ledger.keys
  case below =>
    intro hcount e he
    obtain ⟨line, -, hsent⟩ := hsound.writing.pending e he
    exact hsound.numbering.lt_nextId hcount hsent.mem_numbered
  case offline => exact hsound.ledger.offline
  case once => exact hsound.numbered_nodup
  case identifiers =>
    intro hcount
    exact hsound.numbering.ids_nodup hcount
  case answered => exact hcorrelation.answers
  case correlated => exact hcorrelation.correlated
  case ordered => exact horderly.dispatched_prefix

def answerAfterLoss : List Event :=
  [.issue (.call { method := "a" }), .issue (.call { method := "b" }),
    .connects, .turn, .transmits, .writeReturns true,
    .arrives 0 (.error (.connectionClosed "end of stream")), .reads 0, .turn, .turn,
    .connects, .turn, .transmits, .writeReturns true,
    .arrives 1 (.ok (Response.encode { id := .text "1", outcome := .result .null })),
    .arrives 1 (.ok (Response.encode { id := .text "2", outcome := .result .null })),
    .reads 1, .reads 1, .turn, .turn]

theorem answers_correlated_after_loss
    : ∃ c, (start {}).run? answerAfterLoss = some c ∧
        .replied 0 (.failed .interrupted) ∈ c.history ∧
        ∃ d ∈ deliveries c.history, d.line = 1 ∧ d.answers.map Prod.fst = [1] ∧
          d.Correlated c.commands := by
  have hrun : ((start {}).run? answerAfterLoss).map (fun c =>
      (decide (.replied 0 (.failed .interrupted) ∈ c.history),
        (deliveries c.history).map fun d => (d.line, d.answers.map Prod.fst)))
      = some (true, [(1, [1]), (1, [])]) := by
    decide +kernel
  obtain ⟨c, hrun, hfacts⟩ := Option.map_eq_some_iff.1 hrun
  obtain ⟨hlost, hdeliveries⟩ := Prod.mk.inj hfacts
  refine ⟨c, hrun, of_decide_eq_true hlost, ?_⟩
  obtain ⟨d, rest, hd, hfirst, -⟩ := List.map_eq_cons_iff.1 hdeliveries
  obtain ⟨hline, hanswers⟩ := Prod.mk.inj hfirst
  have hmem : d ∈ deliveries c.history := by simp [hd]
  exact ⟨d, hmem, hline, hanswers, (answers_correlated hrun).correlated d hmem⟩

end JsonRpc.Client
