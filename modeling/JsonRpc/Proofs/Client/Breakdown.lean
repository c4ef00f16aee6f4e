import JsonRpc.Client.Breakdown
import JsonRpc.Proofs.Client.Handover
import JsonRpc.Proofs.Client.Looking

/-!
What becomes of a client whose owner breaks down. Unless it does, a client does nothing but what a
client does; and settings for which each pause is a span of time, and the buffer one that a channel
can be, let none break down.
-/

namespace JsonRpc

namespace Duration

theorem add?_eq_none_iff {a b : Duration}
    : a.add? b = none ↔ 1000000000 <<< 64 ≤ a.nanos + b.nanos := by
  unfold add?
  split <;> simp <;> omega

theorem nanos_of_add? {a b sum : Duration} (h : a.add? b = some sum)
    : sum.nanos = a.nanos + b.nanos := by
  unfold add? at h
  split at h <;> cases h
  rfl

end Duration

namespace ClientConfig

variable {c : ClientConfig} {draw : UInt64} {pause : Duration}

/-- What is drawn is part of the jitter, even where its milliseconds do not fit into a word. -/
theorem nanos_ofMillis_le (hdraw : draw ≤ c.maxDraw)
    : (Duration.ofMillis draw).nanos ≤ c.reconnectJitter.nanos := by
  have hmax : c.maxDraw.toNat ≤ c.reconnectJitter.millis := by
    unfold maxDraw
    rw [UInt64.toNat_ofNat']
    exact Nat.mod_le _ _
  have hle : draw.toNat ≤ c.maxDraw.toNat := UInt64.le_iff_toNat_le.1 hdraw
  unfold Duration.millis at hmax
  change 1000000 * draw.toNat ≤ _
  omega

theorem nanos_of_backoff? (h : c.backoff? draw = some pause)
    : pause.nanos = c.reconnectDelay.nanos + (Duration.ofMillis draw).nanos :=
  Duration.nanos_of_add? h

def longestPause (c : ClientConfig) : Nat :=
  c.reconnectDelay.nanos + (Duration.ofMillis c.maxDraw).nanos

structure IsSafe (c : ClientConfig) : Prop where
  pause : c.longestPause < 1000000000 <<< 64
  buffer : IsRoom c.inboundBuffer

theorem backoff?_eq_none_iff
    : c.backoff? draw = none
        ↔ 1000000000 <<< 64 ≤ c.reconnectDelay.nanos + (Duration.ofMillis draw).nanos :=
  Duration.add?_eq_none_iff

theorem exists_backoff?_eq_none_iff
    : (∃ draw ≤ c.maxDraw, c.backoff? draw = none) ↔ 1000000000 <<< 64 ≤ c.longestPause := by
  simp only [backoff?_eq_none_iff]
  constructor
  . rintro ⟨draw, hdraw, hlong⟩
    have hle : draw.toNat ≤ c.maxDraw.toNat := UInt64.le_iff_toNat_le.1 hdraw
    have hnanos : (Duration.ofMillis draw).nanos ≤ (Duration.ofMillis c.maxDraw).nanos :=
      Nat.mul_le_mul_left 1000000 hle
    exact Nat.le_trans hlong (Nat.add_le_add_left hnanos _)
  . intro hlong
    exact ⟨c.maxDraw, UInt64.le_refl _, hlong⟩

theorem isRoom_validated : IsRoom c.validated.inboundBuffer ↔ c.inboundBuffer ≤ maxRoom := by
  unfold IsRoom validated maxRoom
  dsimp only
  omega

theorem isSafe_validated_iff
    : c.validated.IsSafe
        ↔ (∀ draw ≤ c.validated.maxDraw, c.validated.backoff? draw ≠ none) ∧
          c.inboundBuffer ≤ maxRoom := by
  have hnever : (∀ draw ≤ c.validated.maxDraw, c.validated.backoff? draw ≠ none)
      ↔ c.validated.longestPause < 1000000000 <<< 64 := by
    rw [← Nat.not_le, ← exists_backoff?_eq_none_iff]
    simp only [not_exists, not_and, ne_eq]
  rw [hnever, ← isRoom_validated]
  exact ⟨fun hsafe => ⟨hsafe.pause, hsafe.buffer⟩, fun ⟨hpause, hroom⟩ => ⟨hpause, hroom⟩⟩

end ClientConfig

namespace Client

variable {A : Event → Prop} {c c' : Client} {incident : Incident} {config : ClientConfig}
  {incidents : List Incident} {ticket : Nat}

theorem breakDown_eq (c : Client)
    : c.breakDown
        =
      { c with
        phase := .stopped
        hand := none
        mailbox := []
        waiting := []
        pending := []
        lines := c.lines.map Line.stop
        history := (c.waiting.map .refused).reverse ++
          (((c.mailbox ++ c.pending.map (·.2)).map fun t => .replied t .dropped).reverse ++
            .brokeDown :: c.history) } := by
  unfold breakDown reply
  dsimp only
  rw [foldl_note (fun t => .replied t .dropped), foldl_note]
  rfl

theorem Incident.eq_other {event : Event} (h : incident.event config = event)
    (hother : event.endsAttempt = false) : incident = .other event := by
  cases incident with
  | attemptSucceeds | attemptFails =>
    rw [← h] at hother
    cases hother
  | other event => rw [← h, Incident.event]

def Overtaxes (config : ClientConfig) (c : Client) : Prop :=
  ¬ ClientConfig.IsRoom c.inboundBuffer ∨ ∃ draw ≤ config.maxDraw, config.backoff? draw = none

structure AttemptEnded (c next : Client) : Prop where
  phase : c.phase = .connecting
  unwarned : c.warned = false
  moves : Moves (fun _ => True) c next
  idle : next.phase.job? = none
  lent : next.lent = c.lent
  closers : next.closers = c.closers
  joinable : next.joinable = c.joinable

theorem attemptEnded_of_connects? (h : c.connects? = some c') : AttemptEnded c c' := by
  have hmoves : Moves (fun _ => True) c c' := connects?_moves h trivial
  obtain ⟨hphase, hunwarned, rfl⟩ := connects?_cases h
  exact ⟨hphase, hunwarned, hmoves, rfl, rfl, rfl, rfl⟩

theorem attemptEnded_of_failsToConnect? {wake : Nat} (h : c.failsToConnect? wake = some c')
    : AttemptEnded c c' := by
  have hmoves : Moves (fun _ => True) c c' := failsToConnect?_moves h
  obtain ⟨hphase, hunwarned, rfl⟩ := failsToConnect?_cases h
  exact ⟨hphase, hunwarned, hmoves, rfl, rfl, rfl, rfl⟩

inductive Undergone (config : ClientConfig) (incident : Incident) (c c' : Client) : Prop where
  | withstands (hstep : c.step? (incident.event config) = some c')
  | breaks (next : Client) (hovertaxes : Overtaxes config c) (hended : AttemptEnded c next)
    (hbroken : c' = next.breakDown.look)

theorem undergo?_cases (h : c.undergo? config incident = some c')
    : Undergone config incident c c' := by
  cases incident with
  | attemptSucceeds =>
    obtain ⟨adopted, hadopts, rfl⟩ := Option.map_eq_some_iff.1 h
    obtain ⟨next, hconnects, rfl⟩ := Option.map_eq_some_iff.1 hadopts
    split
    . refine .withstands ?_
      simp [Incident.event, step?, hconnects]
    . next hroom =>
      obtain ⟨-, -, rfl⟩ := connects?_cases hconnects
      exact .breaks _ (.inl hroom) (attemptEnded_of_connects? hconnects) rfl
  | attemptFails now draw =>
    simp only [undergo?] at h
    split at h
    . next hdraw =>
      obtain ⟨backing, hbacks, rfl⟩ := Option.map_eq_some_iff.1 h
      unfold backsOff? at hbacks
      split at hbacks
      . next pause hpause =>
        refine .withstands ?_
        simp [Incident.event, step?, hpause, hbacks]
      . next hnone =>
        obtain ⟨next, hfails, rfl⟩ := Option.map_eq_some_iff.1 hbacks
        exact .breaks next (.inr ⟨draw, hdraw, hnone⟩) (attemptEnded_of_failsToConnect? hfails) rfl
    . cases h
  | other event =>
    simp only [undergo?] at h
    split at h
    . cases h
    . exact .withstands h

theorem moves_of_warned (hwarned : c.warned) (h : c.undergo? config incident = some c')
    : Moves (fun _ => True) c c' := by
  cases undergo?_cases h with
  | withstands hstep => exact step?_moves hstep trivial
  | breaks next _ hended =>
    -- An owner that is warned ends no attempt.
    rw [hended.unwarned] at hwarned
    cases hwarned

theorem shutdown_of_undergo? (hshut : c.shutdown) (h : c.undergo? config incident = some c')
    : c'.shutdown := by
  cases undergo?_cases h with
  | withstands hstep =>
    exact (step?_moves (A := fun _ => True) hstep trivial).keep (fun _ _ => Move.shutdown) hshut
  | breaks next _ hended hbroken =>
    rw [hbroken, breakDown_eq]
    exact hended.moves.keep (fun _ _ => Move.shutdown) hshut

theorem warned_of_undergo? (hshut : c.shutdown) (hlooks : (incident.event config).Looks)
    (h : c.undergo? config incident = some c') : c'.warned := by
  have hshut' : c'.shutdown := shutdown_of_undergo? hshut h
  cases undergo?_cases h with
  | withstands hstep => exact warned_of_step? hshut hlooks hstep
  | breaks next _ _ hbroken =>
    rw [hbroken] at hshut' ⊢
    rw [warned_look]
    exact hshut'

theorem watchful_of_undergoAll?
    (h : (start config).undergoAll? config.validated incidents = some c) : Watchful c := by
  apply keeps_of_foldlM (P := Watchful) _ _ h
  . intro c incident c' hwatchful hundergo
    cases undergo?_cases hundergo with
    | withstands hstep => exact hwatchful.step hstep
    | breaks next _ _ hbroken =>
      rw [hbroken]
      exact watchful_look next.breakDown
  . exact fun _ => rfl

theorem breakDown_suffix (c : Client) : c.history <:+ c.breakDown.history := by
  rw [breakDown_eq]
  refine ⟨(c.waiting.map .refused).reverse ++
    (((c.mailbox ++ c.pending.map (·.2)).map fun t => .replied t .dropped).reverse ++
      [.brokeDown]), ?_⟩
  simp

theorem mem_breakDown (c : Client) : .brokeDown ∈ c.breakDown.history := by
  rw [breakDown_eq]
  simp

theorem history_suffix_of_undergo? (h : c.undergo? config incident = some c')
    : c.history <:+ c'.history := by
  cases undergo?_cases h with
  | withstands hstep =>
    exact (step?_moves (A := fun _ => True) hstep trivial).history_suffix
  | breaks next _ hended hbroken =>
    rw [hbroken]
    exact hended.moves.history_suffix.trans (breakDown_suffix next)

theorem history_suffix_of_undergoAll? (h : c.undergoAll? config incidents = some c')
    : c.history <:+ c'.history := by
  exact keeps_of_foldlM (P := fun next => c.history <:+ next.history)
    (fun _ _ _ hsuffix hundergo => hsuffix.trans (history_suffix_of_undergo? hundergo))
    (List.suffix_refl _) h

theorem run?_of_undergoAll? (h : c.undergoAll? config incidents = some c')
    (hup : .brokeDown ∉ c'.history)
    : c.run? (incidents.map (·.event config)) = some c' := by
  induction incidents generalizing c with
  | nil => exact h
  | cons incident incidents ih =>
    obtain ⟨next, hundergo, hrest⟩ := exists_step_of_foldlM h
    cases undergo?_cases hundergo with
    | withstands hstep =>
      unfold run? at *
      rw [List.map_cons, List.foldlM_cons, hstep]
      exact ih hrest
    | breaks broken _ _ hbroken =>
      -- A breakdown stays on record, and there is none on it in the end.
      have hmem : .brokeDown ∈ next.history := by
        rw [hbroken]
        exact mem_breakDown broken
      exact absurd ((history_suffix_of_undergoAll? hrest).subset hmem) hup

theorem run?_of_past {before after : List Incident} {past : Client}
    (h : c.undergoAll? config (before ++ after) = some c') (hup : .brokeDown ∉ c'.history)
    (hpast : c.undergoAll? config before = some past)
    : c.run? (before.map (·.event config)) = some past := by
  apply run?_of_undergoAll? hpast
  exact fun hmem => hup ((history_suffix_of_undergoAll? (foldlM_of_append h hpast)).subset hmem)

theorem step?_of_past {before after : List Incident} {past next : Client}
    (h : c.undergoAll? config (before ++ incident :: after) = some c')
    (hup : .brokeDown ∉ c'.history) (hpast : c.undergoAll? config before = some past)
    (hundergo : past.undergo? config incident = some next)
    : past.step? (incident.event config) = some next := by
  cases undergo?_cases hundergo with
  | withstands hstep => exact hstep
  | breaks broken _ _ hbroken =>
    obtain ⟨next', hundergo', hrest⟩ := exists_step_of_foldlM (foldlM_of_append h hpast)
    rw [hundergo] at hundergo'
    cases hundergo'
    have hmem : .brokeDown ∈ next.history := by
      rw [hbroken]
      exact mem_breakDown broken
    exact absurd ((history_suffix_of_undergoAll? hrest).subset hmem) hup

theorem endsAttempt_of_mem {event : Event} (h : c.undergoAll? config incidents = some c')
    (hmem : .other event ∈ incidents) : event.endsAttempt = false := by
  induction incidents generalizing c with
  | nil => cases hmem
  | cons incident incidents ih =>
    obtain ⟨next, hundergo, hrest⟩ := exists_step_of_foldlM h
    rcases List.mem_cons.1 hmem with rfl | hlater
    . simp only [undergo?] at hundergo
      split at hundergo
      . cases hundergo
      . simp_all
    . exact ih hrest hlater

theorem Move.inboundBuffer (hmove : Move A c c') : c'.inboundBuffer = c.inboundBuffer := by
  cases hmove <;> rfl

theorem Move.up (h : .brokeDown ∉ c.history) (hmove : Move A c c')
    : .brokeDown ∉ c'.history := by
  cases hmove with
  | read line before after arrival => cases arrival <;> simpa [Except.toOption] using h
  | hangUp => cases hhand : c.hand <;> simpa [hhand] using h
  | finishCall line job id => cases hlookup : c.pending.lookup id <;> simpa [hlookup] using h
  | _ => simpa using h

theorem up_of_isSafe (hsafe : config.validated.IsSafe)
    (h : (start config).undergoAll? config.validated incidents = some c)
    : .brokeDown ∉ c.history := by
  have hboth : c.inboundBuffer = config.validated.inboundBuffer ∧ .brokeDown ∉ c.history := by
    apply keeps_of_foldlM (P := fun c =>
      c.inboundBuffer = config.validated.inboundBuffer ∧ .brokeDown ∉ c.history) _ _ h
    . rintro c incident c' ⟨hbuffer, hup⟩ hundergo
      cases undergo?_cases hundergo with
      | withstands hstep =>
        have hmoves : Moves (fun _ => True) c c' := step?_moves hstep trivial
        refine ⟨hmoves.keep (fun _ _ hkept hmove => hmove.inboundBuffer.trans hkept) hbuffer,
          hmoves.keep (fun _ _ => Move.up) hup⟩
      | breaks _ hovertaxes =>
        rcases hovertaxes with hroom | hdraw
        . rw [hbuffer] at hroom
          exact absurd hsafe.buffer hroom
        . have hlong := ClientConfig.exists_backoff?_eq_none_iff.1 hdraw
          exact absurd hsafe.pause (Nat.not_lt_of_le hlong)
    . exact ⟨rfl, by simp [start]⟩
  exact hboth.2

section Sound

attribute [local simp] acceptances settlements held handovers departures numbered
  Occurrence.accepted? Occurrence.settled? Occurrence.begun? Occurrence.transmitted?
  Occurrence.numbered? List.filterMap_cons List.count_cons Function.comp_def Phase.job?
  Phase.unsent?

theorem Ledger.breakDown (h : Ledger c) (hjob : c.phase.job? = none) : Ledger c.breakDown := by
  rw [breakDown_eq]
  constructor
  . intro ticket
    have hbalance := h.balance ticket
    simp only [held, hjob] at hbalance
    simp at *
    omega
  . intro ticket
    have hfresh := h.fresh ticket
    simp at *
    omega
  . exact List.nodup_nil
  . exact fun _ => rfl
  . exact fun _ => ⟨rfl, rfl⟩

theorem Handover.breakDown (h : Handover c) : Handover c.breakDown := by
  rw [breakDown_eq]
  constructor
  . intro ticket
    have hbegun := h.begun ticket
    simp at *
    omega
  . exact h.borrowed
  . intro ticket hticket
    have htransmitted := h.transmitted ticket hticket
    simp at *
    omega

theorem numbered_breakDown (c : Client) : c.breakDown.numbered = c.numbered := by
  rw [breakDown_eq]
  simp

theorem Numbering.breakDown (h : Numbering c) : Numbering c.breakDown := by
  have hphase : c.breakDown.phase = .stopped := by rw [breakDown_eq]
  constructor
  . rw [numbered_breakDown, ← h.next, breakDown_eq]
  . rw [numbered_breakDown, h.identifiers]
  . intro line job id hwriting
    rw [hphase] at hwriting
    cases hwriting

theorem Sound.breakDown (h : Sound c) (hlent : c.lent = none) (hjob : c.phase.job? = none)
    : Sound c.breakDown := by
  obtain ⟨hloans, hreturning, -⟩ := h.custody.home hlent
  refine ⟨?_, h.ledger.breakDown hjob, ?_, h.numbering.breakDown, h.handover.breakDown⟩
  . rw [breakDown_eq]
    exact .of_home hloans hreturning hlent rfl (by simp [Phase.line?])
  . rw [breakDown_eq]
    constructor <;> simp

end Sound

theorem holds_of_undergoAll? {P : Client → Prop}
    (hkeep : ∀ c c', Sound c → P c → Move (fun _ => True) c c' → P c')
    (hbreak : ∀ c, Sound c → P c → c.lent = none → P c.breakDown) (hstart : P (start config))
    (h : (start config).undergoAll? config.validated incidents = some c) : Sound c ∧ P c := by
  apply keeps_of_foldlM (P := fun c => Sound c ∧ P c) _ _ h
  . rintro c incident c' ⟨hsound, hc⟩ hundergo
    have hmoved {next : Client} (hmoves : Moves (fun _ => True) c next) : Sound next ∧ P next :=
      hmoves.keep (P := fun next => Sound next ∧ P next)
        (fun _ _ hnext hmove => ⟨hnext.1.move hmove, hkeep _ _ hnext.1 hnext.2 hmove⟩) ⟨hsound, hc⟩
    cases undergo?_cases hundergo with
    | withstands hstep => exact hmoved (step?_moves hstep trivial)
    | breaks next _ hended hbroken =>
      have hline : c.phase.line? = none := by
        rw [hended.phase]
        rfl
      have hlent : next.lent = none := hended.lent.trans (hsound.custody.lent_of_line hline)
      obtain ⟨hsound', hc'⟩ := hmoved hended.moves
      have hlast := hsound'.breakDown hlent hended.idle
      -- The look behind the breakdown is one more move.
      have hlook : Move (fun _ => True) next.breakDown c' := by
        rw [hbroken]
        exact .look
      exact ⟨hlast.move hlook, hkeep _ _ hlast (hbreak _ hsound' hc' hlent) hlook⟩
  . exact ⟨Sound.start config, hstart⟩

theorem sound_of_undergoAll?
    (h : (start config).undergoAll? config.validated incidents = some c) : Sound c := by
  exact (holds_of_undergoAll? (P := fun _ => True) (fun _ _ _ _ _ => trivial)
    (fun _ _ _ _ => trivial) trivial h).1

end Client

end JsonRpc
