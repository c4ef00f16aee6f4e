import JsonRpc.Proofs.Client.Queueing

/-!
Which settings keep the owner of a client up. Chance draws pauses within their bounds, and the owner
stops unbidden in some run exactly if the longest of them is no span of time or the buffer has a room
that no channel can have.
-/

namespace JsonRpc

namespace Client

variable {A : Event → Prop} {c c' : Client} {event : Event} {config : ClientConfig}
  {events : List Event}

theorem Move.going (h : c.phase ≠ .stopped) (hmove : Move A c c') (hturn : ¬ A .turn)
    : c'.phase ≠ .stopped := by
  cases hmove with
  | stop hphase hevent => exact absurd hevent hturn
  | connect | backOff | attempt | leave | hangUp | beginCall | beginNotify | transmit | finishCall
  | finishNotify | breakOff => nofun
  | _ => exact h

theorem shutdown_of_turn? (hcustody : Custody c) (hleaving : Leaving c) (h : c.turn? = some c')
    (hstopped : c'.phase = .stopped) : c.shutdown := by
  cases turn?_cases h with
  | stops hphase hwarned => exact shutdown_of_warned hwarned
  | quits line hphase hlent hwarned => exact shutdown_of_warned hwarned
  | breaksOff line job hphase hwarned => exact shutdown_of_warned hwarned
  | hears line hphase hinbound =>
    rcases takeInbound?_cases hinbound with ⟨l, message, rest, -, -, rfl⟩ | rfl
    . cases hphase.symm.trans hstopped
    . rw [leave_eq] at hstopped
      cases hstopped
  | takes line ticket rest htake =>
    have hdriven := (carryOut_taking hcustody htake).2
    rw [hstopped] at hdriven
    cases hdriven
  | reclaims hreclaim =>
    obtain ⟨ticket, loan, -, -, rfl⟩ := reclaim?_cases hreclaim
    have hphase : c.phase = .stopped := hstopped
    unfold turn? at h
    rw [hphase] at h
    cases h
  | closes line exit hphase =>
    cases exit with
    | shutdown => exact hleaving line hphase
    | lost =>
      unfold closeLine at hstopped
      cases hhand : c.hand <;> simp [hhand, attempt, note] at hstopped

theorem shutdown_of_stopped (h : (start config).run? events = some c)
    (hstopped : c.phase = .stopped) : c.shutdown := by
  have hboth : (start config).run? ([] ++ events) = some c ∧ (c.phase = .stopped → c.shutdown) := by
    apply holds_of_foldlM (P := fun past c =>
      (start config).run? past = some c ∧ (c.phase = .stopped → c.shutdown)) _ _ h
    . rintro past c event c' ⟨hrun, hkept⟩ hstep
      refine ⟨foldlM_snoc hrun hstep, ?_⟩
      intro hstopped
      have hmoves : Moves (· = event) c c' := step?_moves hstep rfl
      apply hmoves.keep (fun _ _ => Move.shutdown)
      by_cases hevent : event = .turn
      . subst hevent
        obtain ⟨next, hturn, rfl⟩ := Option.map_eq_some_iff.1 hstep
        exact shutdown_of_turn? (sound_of_run? hrun).custody (leaving_of_run? hrun) hturn hstopped
      . by_contra hrunning
        have hgoing : c'.phase ≠ .stopped :=
          hmoves.keep (P := fun next => next.phase ≠ .stopped)
            (fun _ _ hgoing hmove => hmove.going hgoing fun hturn => hevent hturn.symm)
            fun hphase => hrunning (hkept hphase)
        exact hgoing hstopped
    . exact ⟨rfl, nofun⟩
  exact hboth.2 hstopped

def IsDown (c : Client) : Prop :=
  c.phase = .stopped ∧ c.shutdown = false

instance : DecidablePred IsDown :=
  fun c => inferInstanceAs (Decidable (c.phase = .stopped ∧ c.shutdown = false))

theorem isDown_breakDown (hrunning : c.shutdown = false) : c.breakDown.look.IsDown := by
  rw [breakDown_eq]
  exact ⟨rfl, hrunning⟩

theorem exists_isDown (hnot : ¬ config.validated.IsSafe)
    : ∃ incident c, (start config).undergo? config.validated incident = some c ∧ c.IsDown := by
  by_cases hroom : ClientConfig.IsRoom config.validated.inboundBuffer
  . have hlong : 1000000000 <<< 64 ≤ config.validated.longestPause := by
      rw [← Nat.not_lt]
      exact fun hpause => hnot ⟨hpause, hroom⟩
    obtain ⟨draw, hdraw, hnone⟩ := ClientConfig.exists_backoff?_eq_none_iff.2 hlong
    refine ⟨.attemptFails 0 draw, { start config with phase := .backingOff 0 }.breakDown.look, ?_,
      isDown_breakDown rfl⟩
    simp only [undergo?, if_pos hdraw, backsOff?, hnone]
    rfl
  . obtain ⟨next, hconnects, hrunning, hbuffer⟩ : ∃ next, (start config).connects? = some next ∧
        next.shutdown = false ∧ next.inboundBuffer = config.validated.inboundBuffer :=
      ⟨_, rfl, rfl, rfl⟩
    refine ⟨.attemptSucceeds, next.breakDown.look, ?_, isDown_breakDown hrunning⟩
    have hadopts : (start config).adopts? = some next.breakDown := by
      unfold adopts?
      rw [hconnects, Option.map_some, if_neg]
      rw [hbuffer]
      exact hroom
    simp [undergo?, hadopts]

/--
The pause is the delay and what chance draws together, so at least the delay and at most the delay
and the jitter; there is none only if it would be longer than any span of time. With settings for
which no draw is that long and whose buffer can be a channel, a client does nothing but what a
client does, and its owner stops only when it is to. With all other settings the owner stops
unbidden in some run, although they were made valid.
-/
theorem isDown_iff_not_isSafe (config : ClientConfig)
    : (∀ draw, (config.validated.backoff? draw = none
          ↔ 1000000000 <<< 64 ≤ config.reconnectDelay.nanos + 1000000 * draw.toNat) ∧
        ∀ pause, config.validated.backoff? draw = some pause →
          pause.nanos = config.reconnectDelay.nanos + 1000000 * draw.toNat ∧
            (draw ≤ config.validated.maxDraw →
              config.reconnectDelay.nanos ≤ pause.nanos ∧
                pause.nanos ≤ config.reconnectDelay.nanos + config.reconnectJitter.nanos)) ∧
      (config.validated.IsSafe ↔
        (∀ draw ≤ config.validated.maxDraw, config.validated.backoff? draw ≠ none) ∧
          config.inboundBuffer ≤ ClientConfig.maxRoom) ∧
      (config.validated.IsSafe → ∀ incidents c,
        (start config).undergoAll? config.validated incidents = some c →
          ∃ events, (start config).run? events = some c) ∧
      ((∃ incidents c, (start config).undergoAll? config.validated incidents = some c ∧ c.IsDown)
        ↔ ¬ config.validated.IsSafe) := by
  refine ⟨?_, ClientConfig.isSafe_validated_iff, ?_, ?_⟩
  . intro draw
    refine ⟨ClientConfig.backoff?_eq_none_iff, ?_⟩
    intro pause hpause
    have hnanos : pause.nanos = config.reconnectDelay.nanos + 1000000 * draw.toNat :=
      ClientConfig.nanos_of_backoff? hpause
    refine ⟨hnanos, ?_⟩
    intro hdraw
    have hjitter : 1000000 * draw.toNat ≤ config.reconnectJitter.nanos :=
      ClientConfig.nanos_ofMillis_le hdraw
    omega
  . intro hsafe incidents c h
    exact ⟨_, run?_of_undergoAll? h (up_of_isSafe hsafe h)⟩
  . constructor
    . rintro ⟨incidents, c, h, hstopped, hrunning⟩ hsafe
      have hrun := run?_of_undergoAll? h (up_of_isSafe hsafe h)
      have hshut := shutdown_of_stopped hrun hstopped
      rw [hrunning] at hshut
      cases hshut
    . intro hnot
      obtain ⟨incident, c, hundergo, hdown⟩ := exists_isDown hnot
      refine ⟨[incident], c, ?_, hdown⟩
      unfold undergoAll?
      rw [List.foldlM_cons, hundergo]
      rfl

def atLimits : ClientConfig where
  reconnectDelay := ⟨(1000000000 <<< 64) - 1, by decide⟩
  reconnectJitter := ⟨999999, by decide⟩
  inboundBuffer := ClientConfig.maxRoom

theorem isDown_iff_not_isSafe_at_limits
    : atLimits.validated.IsSafe ∧
        (∃ pause, atLimits.validated.backoff? 0 = some pause ∧
          pause.nanos = atLimits.reconnectDelay.nanos + 1000000 * (0 : UInt64).toNat) ∧
        ¬ ∃ incidents c,
          (start atLimits).undergoAll? atLimits.validated incidents = some c ∧ c.IsDown := by
  have hsafe : atLimits.validated.IsSafe := ⟨by decide +kernel, by decide +kernel⟩
  have ⟨hpause, _, _, hdown⟩ := isDown_iff_not_isSafe atLimits
  refine ⟨hsafe, ?_, ?_⟩
  . have hdrawn : atLimits.validated.backoff? 0 = some atLimits.reconnectDelay := by decide +kernel
    exact ⟨_, hdrawn, ((hpause 0).2 _ hdrawn).1⟩
  . rw [hdown]
    exact not_not_intro hsafe

def endlessDelay : ClientConfig where
  reconnectDelay := ⟨(1000000000 <<< 64) - 1, by decide⟩
  reconnectJitter := .ofMillis 1

def boundlessBuffer : ClientConfig where
  inboundBuffer := 1 <<< 62

/--
Settings that pass as they are, and bring the owner down: at the end of the first attempt to connect
that fails, and of the first that succeeds.
-/
theorem down_of_valid
    : endlessDelay.validated = endlessDelay ∧ 1 ≤ endlessDelay.maxDraw ∧
        endlessDelay.backoff? 1 = none ∧
        (((start endlessDelay).undergoAll? endlessDelay.validated [.attemptFails 0 1]).map fun c =>
          decide c.IsDown) = some true ∧
        boundlessBuffer.validated = boundlessBuffer ∧
        (((start boundlessBuffer).undergoAll? boundlessBuffer.validated [.attemptSucceeds]).map
          fun c => decide c.IsDown) = some true := by
  decide +kernel

end Client

end JsonRpc
