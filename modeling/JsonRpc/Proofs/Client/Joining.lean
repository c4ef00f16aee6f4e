import JsonRpc.Proofs.Client.Lending
import JsonRpc.Proofs.Client.Telling

/-!
Closing a client. Whoever closes it first waits for the owner's end, and the others wait for that
one. There is one handle to wait with, which the first closer takes: if it gives up it takes the
handle along, and whoever comes next does not wait at all.
-/

namespace JsonRpc.Client

variable {A : Event → Prop} {c c' : Client} {event : Event} {incident : Incident}
  {config : ClientConfig} {events : List Event} {incidents : List Incident} {ticket : Nat}

inductive CloserStep (event : Event) (c c' : Client) : Prop where
  | kept (hclosers : c'.closers = c.closers) (hjoinable : c'.joinable = c.joinable)
  | enters (hclosers : c'.closers = c.closers ++ [.waiting]) (hjoinable : c'.joinable = c.joinable)
  | joins (closer : Nat) (hwaits : c.closers[closer]? = some .waiting)
    (hclosers : c'.closers = c.closers.set closer .joining) (hhandle : c.joinable = true)
    (hjoinable : c'.joinable = false)
  | passes (closer : Nat) (hwaits : c.closers[closer]? = some .waiting)
    (hfree : .joining ∉ c.closers) (hhandle : c.joinable = false)
    (hclosers : c'.closers = c.closers.set closer .returned)
    (hjoinable : c'.joinable = c.joinable)
  | returns (closer : Nat) (hjoins : c.closers[closer]? = some .joining)
    (hstopped : c.phase = .stopped) (hclosers : c'.closers = c.closers.set closer .returned)
    (hjoinable : c'.joinable = c.joinable)
  | givesUp (closer : Nat) (state : Closer) (hevent : event = .abandonClose closer)
    (hstate : c.closers[closer]? = some state)
    (hclosers : c'.closers = c.closers.set closer .abandoned)
    (hjoinable : c'.joinable = c.joinable)

def SameClosers (c c' : Client) : Prop :=
  c'.closers = c.closers ∧ c'.joinable = c.joinable

theorem SameClosers.closerStep (h : SameClosers c c') : CloserStep event c c' :=
  .kept h.1 h.2

theorem sameClosers_enqueue (c : Client) (command : Command)
    : SameClosers c (c.enqueue command) := by
  unfold enqueue
  dsimp only
  split
  . exact ⟨rfl, rfl⟩
  . split <;> exact ⟨rfl, rfl⟩

theorem sameClosers_release (c : Client) (ticket : Nat) : SameClosers c (c.release ticket) := by
  rw [release_eq]
  exact ⟨rfl, rfl⟩

theorem sameClosers_leave (c : Client) (line : Nat) (exit : Exit)
    : SameClosers c (c.leave line exit) := by
  rw [leave_eq]
  exact ⟨rfl, rfl⟩

theorem sameClosers_stop (c : Client) : SameClosers c c.stop := by
  rw [stop_eq]
  exact ⟨rfl, rfl⟩

theorem sameClosers_closeLine (c : Client) (exit : Exit) : SameClosers c (c.closeLine exit) := by
  unfold closeLine
  cases c.hand <;> cases exit <;> first | exact ⟨rfl, rfl⟩ | exact sameClosers_stop _

theorem sameClosers_carryOut (c : Client) (line ticket : Nat)
    : SameClosers c (c.carryOut line ticket) := by
  unfold carryOut
  split
  . rw [reject_eq]
    exact sameClosers_leave _ line .lost
  . split
    . split <;> exact ⟨rfl, rfl⟩
    . exact ⟨rfl, rfl⟩
    . rw [lend_eq]
      exact ⟨rfl, rfl⟩
    . exact ⟨rfl, rfl⟩

theorem sameClosers_turn? (h : c.turn? = some c') : SameClosers c c' := by
  cases turn?_cases h with
  | stops => exact sameClosers_stop c
  | quits line => exact sameClosers_leave c line .shutdown
  | hears line _ hinbound =>
    rcases takeInbound?_cases hinbound with ⟨l, message, rest, -, -, rfl⟩ | rfl
    . exact ⟨rfl, rfl⟩
    . exact sameClosers_leave c line .lost
  | takes line ticket rest => exact sameClosers_carryOut _ line ticket
  | reclaims hreclaim =>
    obtain ⟨ticket, loan, -, -, rfl⟩ := reclaim?_cases hreclaim
    exact ⟨rfl, rfl⟩
  | breaksOff line job => exact sameClosers_leave _ line .shutdown
  | closes line exit => exact sameClosers_closeLine c exit

theorem sameClosers_writeReturns? {succeeds : Bool} (h : c.writeReturns? succeeds = some c')
    : SameClosers c c' := by
  unfold writeReturns? at h
  split at h
  . split at h
    . cases h
    . split at h
      . split at h
        . cases h
          split
          . unfold await
            split <;> exact ⟨rfl, rfl⟩
          . exact ⟨rfl, rfl⟩
        . cases h
      . cases h
        exact sameClosers_leave _ _ .lost
  . cases h

theorem closerStep_closerTurn? {closer : Nat} (h : c.closerTurn? closer = some c')
    : CloserStep event c c' := by
  unfold closerTurn? at h
  split at h
  . next hwaits =>
    split at h
    . next hnext =>
      split at h
      . next hhandle =>
        cases h
        exact .joins closer hwaits rfl hhandle rfl
      . next hhandle =>
        cases h
        have hfree : .joining ∉ c.closers := by
          intro hmem
          simp only [isNext, Bool.and_eq_true, List.all_eq_true] at hnext
          simpa using hnext.2 _ hmem
        exact .passes closer hwaits hfree (by simpa using hhandle) rfl rfl
    . cases h
  . next hjoins =>
    split at h
    . next hstopped =>
      cases h
      exact .returns closer hjoins (by simpa [isStopped] using hstopped) rfl rfl
    . cases h
  . cases h

theorem abandonClose_of_joining {closer : Nat} (h : c.closers[closer]? = some .joining)
    : c.abandonClose closer = { c with closers := c.closers.set closer .abandoned } := by
  unfold abandonClose
  rw [List.modify_eq_set_getElem?, h]
  rfl

theorem closerStep_abandonClose (c : Client) (closer : Nat)
    : CloserStep (.abandonClose closer) c (c.abandonClose closer) := by
  cases hstate : c.closers[closer]? with
  | none =>
    refine .kept ?_ rfl
    unfold abandonClose
    rw [List.modify_eq_set_getElem?, hstate]
    rfl
  | some state =>
    have hmodify (f : Closer → Closer)
        : c.closers.modify closer f = c.closers.set closer (f state) := by
      rw [List.modify_eq_set_getElem?, hstate]
      rfl
    have hset : c.closers.set closer state = c.closers := by
      obtain ⟨hlt, rfl⟩ := List.getElem?_eq_some_iff.1 hstate
      apply List.set_getElem_self
    cases state with
    | waiting | joining => exact .givesUp closer _ rfl hstate (hmodify _) rfl
    | returned | abandoned => exact .kept ((hmodify _).trans hset) rfl

theorem closerStep_of_step? (h : c.step? event = some c') : CloserStep event c c' := by
  cases event with
  | issue command =>
    simp only [step?, issue?] at h
    split at h <;> cases h
    exact (sameClosers_enqueue c command).closerStep
  | enqueue command =>
    cases h
    exact (sameClosers_enqueue c command).closerStep
  | enter =>
    simp only [step?, enter?] at h
    split at h
    . cases h
    . split at h <;> cases h
      exact .kept rfl rfl
  | giveUp ticket =>
    cases h
    obtain ⟨hclosers, hjoinable⟩ := sameClosers_release { c with
      waiting := c.waiting.filter (· ≠ ticket)
      abandoned := if ticket ∈ c.abandoned then c.abandoned else ticket :: c.abandoned } ticket
    exact .kept hclosers hjoinable
  | look =>
    cases h
    exact .kept rfl rfl
  | turn =>
    obtain ⟨next, hturn, rfl⟩ := Option.map_eq_some_iff.1 h
    obtain ⟨hclosers, hjoinable⟩ := sameClosers_turn? hturn
    exact .kept hclosers hjoinable
  | connects | failsToConnect | wakes =>
    obtain ⟨next, hnext, rfl⟩ := Option.map_eq_some_iff.1 h
    simp only [connects?, failsToConnect?, wakes?] at hnext
    split at hnext <;> cases hnext
    exact .kept rfl rfl
  | transmits =>
    obtain ⟨line, job, -, -, -, rfl⟩ := transmits?_cases h
    exact .kept rfl rfl
  | writeReturns succeeds =>
    obtain ⟨next, hreturns, rfl⟩ := Option.map_eq_some_iff.1 h
    obtain ⟨hclosers, hjoinable⟩ := sameClosers_writeReturns? hreturns
    exact .kept hclosers hjoinable
  | arrives line arrival =>
    cases h
    exact .kept rfl rfl
  | reads line =>
    obtain ⟨⟨arrival, after⟩, -, rfl⟩ := Option.map_eq_some_iff.1 h
    cases arrival <;> exact .kept rfl rfl
  | borrowerWrites ticket message =>
    obtain ⟨loan, -, rfl⟩ := Option.map_eq_some_iff.1 h
    exact .kept rfl rfl
  | release ticket =>
    cases h
    exact (sameClosers_release c ticket).closerStep
  | shutDown =>
    cases h
    unfold shutDown
    split <;> exact .kept rfl rfl
  | close =>
    cases h
    unfold close shutDown
    split <;> exact .enters rfl rfl
  | closerTurn closer => exact closerStep_closerTurn? h
  | abandonClose closer =>
    cases h
    exact closerStep_abandonClose c closer

/-- The handle to wait for the owner's end with: a closer has it, or may still take it. -/
def handles (c : Client) : Nat :=
  c.joinable.toNat + c.closers.count .joining

/-- A closer gives up with the handle in its hand, before the owner has stopped. -/
def Forsakes (incident : Incident) (c : Client) : Prop :=
  ∃ closer, incident = .other (.abandonClose closer) ∧ c.closers[closer]? = some .joining ∧
    c.phase ≠ .stopped

def Forsaken (config : ClientConfig) (incidents : List Incident) : Prop :=
  ∃ before incident after past, incidents = before ++ incident :: after ∧
    (start config).undergoAll? config.validated before = some past ∧ past.Forsakes incident

theorem forsaken_snoc (h : (start config).undergoAll? config.validated incidents = some c)
    : Forsaken config (incidents ++ [incident])
        ↔ Forsaken config incidents ∨ c.Forsakes incident := by
  constructor
  . rintro ⟨before, other, after, past, hsplit, hpast, hforsakes⟩
    rcases List.eq_nil_or_concat after with rfl | ⟨middle, last, rfl⟩
    . obtain ⟨rfl, hlast⟩ := List.append_inj' hsplit rfl
      cases hlast
      rw [h] at hpast
      cases hpast
      exact .inr hforsakes
    . rw [List.concat_eq_append, ← List.cons_append, ← List.append_assoc] at hsplit
      obtain ⟨rfl, -⟩ := List.append_inj' hsplit rfl
      exact .inl ⟨before, other, middle, past, rfl, hpast, hforsakes⟩
  . rintro (⟨before, other, after, past, rfl, hpast, hforsakes⟩ | hforsakes)
    . exact ⟨before, other, after ++ [incident], past, by simp, hpast, hforsakes⟩
    . exact ⟨incidents, incident, [], c, rfl, h, hforsakes⟩

theorem count_set {closers : List Closer} {closer : Nat} {state : Closer}
    (h : closers[closer]? = some state) (next : Closer)
    : (closers.set closer next).count .joining + (if state = .joining then 1 else 0)
        =
      closers.count .joining + if next = .joining then 1 else 0 := by
  obtain ⟨hlt, rfl⟩ := List.getElem?_eq_some_iff.1 h
  have hpos : closers[closer] = .joining → 0 < closers.count .joining := by
    intro heq
    rw [← heq]
    exact List.count_pos_iff.2 (List.getElem_mem hlt)
  rw [List.count_set hlt]
  simp only [beq_iff_eq]
  split
  . next heq =>
    have := hpos heq
    omega
  . omega

theorem handles_of_step? (h : c.step? event = some c')
    : c'.handles ≤ c.handles ∧
        (c'.handles < c.handles → c.phase = .stopped ∨ c.Forsakes (.other event)) := by
  unfold handles
  cases closerStep_of_step? h with
  | kept hclosers hjoinable => simp [hclosers, hjoinable]
  | enters hclosers hjoinable => simp [hclosers, hjoinable]
  | joins closer hwaits hclosers hhandle hjoinable =>
    have hcount := count_set hwaits .joining
    rw [hclosers, hhandle, hjoinable]
    simp only [reduceCtorEq, ↓reduceIte, Bool.toNat_false, Bool.toNat_true] at *
    omega
  | passes closer hwaits hfree hhandle hclosers hjoinable =>
    have hcount := count_set hwaits .returned
    rw [hclosers, hjoinable]
    simp only [reduceCtorEq, ↓reduceIte] at hcount
    omega
  | returns closer hjoins hstopped hclosers hjoinable =>
    have hcount := count_set hjoins .returned
    rw [hclosers, hjoinable]
    simp only [reduceCtorEq, ↓reduceIte] at hcount
    exact ⟨by omega, fun _ => .inl hstopped⟩
  | givesUp closer state hevent hstate hclosers hjoinable =>
    have hcount := count_set hstate .abandoned
    rw [hclosers, hjoinable]
    simp only [reduceCtorEq, ↓reduceIte] at hcount
    refine ⟨by omega, ?_⟩
    intro hlost
    by_cases hstopped : c.phase = .stopped
    . exact .inl hstopped
    . have hjoining : state = .joining := by
        by_contra hne
        rw [if_neg hne] at hcount
        omega
      exact .inr ⟨closer, by rw [hevent], by rw [hstate, hjoining], hstopped⟩

theorem handles_of_forsakes (hundergo : c.undergo? config incident = some c')
    (h : c.Forsakes incident) : c'.handles < c.handles := by
  obtain ⟨closer, rfl, hjoins, -⟩ := h
  cases hundergo
  have hcount := count_set hjoins .abandoned
  rw [abandonClose_of_joining hjoins]
  unfold handles
  simp only [reduceCtorEq, ↓reduceIte] at *
  omega

theorem returned_of_step? (h : c.step? event = some c') (hmem : .returned ∈ c'.closers)
    : .returned ∈ c.closers ∨ c.phase = .stopped ∨ c.handles = 0 := by
  cases closerStep_of_step? h with
  | kept hclosers =>
    rw [hclosers] at hmem
    exact .inl hmem
  | enters hclosers =>
    rw [hclosers] at hmem
    exact .inl (by simpa using hmem)
  | joins closer _ hclosers | givesUp closer _ _ _ hclosers =>
    rw [hclosers] at hmem
    rcases List.mem_or_eq_of_mem_set hmem with hold | hnew
    . exact .inl hold
    . cases hnew
  | passes closer hwaits hfree hhandle =>
    refine .inr (.inr ?_)
    unfold handles
    rw [hhandle, List.count_eq_zero.2 hfree]
    rfl
  | returns closer hjoins hstopped => exact .inr (.inl hstopped)

structure Joining (config : ClientConfig) (incidents : List Incident) (c : Client) : Prop where
  one : c.handles ≤ 1
  spent : c.handles = 0 → c.phase = .stopped ∨ Forsaken config incidents
  returned : .returned ∈ c.closers → c.phase = .stopped ∨ Forsaken config incidents
  forsaken : Forsaken config incidents → c.handles = 0

theorem Joining.withstands (h : Joining config incidents c)
    (hrun : (start config).undergoAll? config.validated incidents = some c)
    (hundergo : c.undergo? config.validated incident = some c')
    (hstep : c.step? (incident.event config.validated) = some c')
    : Joining config (incidents ++ [incident]) c' := by
  obtain ⟨hle, hlost⟩ := handles_of_step? hstep
  have hone := h.one
  have hstopped (hphase : c.phase = .stopped) : c'.phase = .stopped :=
    (step?_moves (A := fun _ => True) hstep trivial).keep (fun _ _ => Move.stopped) hphase
  have hkept : c.phase = .stopped ∨ Forsaken config incidents →
      c'.phase = .stopped ∨ Forsaken config (incidents ++ [incident]) :=
    Or.imp hstopped fun hforsaken => (forsaken_snoc hrun).2 (.inl hforsaken)
  constructor
  . omega
  . intro hspent
    by_cases hbefore : c.handles = 0
    . exact hkept (h.spent hbefore)
    . rcases hlost (by omega) with hphase | ⟨closer, hevent, hforsakes⟩
      . exact .inl (hstopped hphase)
      . have hincident := Incident.eq_other (Incident.other.inj hevent) rfl
        exact .inr ((forsaken_snoc hrun).2 (.inr ⟨closer, hincident, hforsakes⟩))
  . intro hmem
    rcases returned_of_step? hstep hmem with hold | hphase | hspent
    . exact hkept (h.returned hold)
    . exact .inl (hstopped hphase)
    . exact hkept (h.spent hspent)
  . intro hforsaken
    rcases (forsaken_snoc hrun).1 hforsaken with hold | hnew
    . have := h.forsaken hold
      omega
    . have := handles_of_forsakes hundergo hnew
      omega

theorem Joining.undergo (h : Joining config incidents c)
    (hrun : (start config).undergoAll? config.validated incidents = some c)
    (hundergo : c.undergo? config.validated incident = some c')
    : Joining config (incidents ++ [incident]) c' := by
  cases undergo?_cases hundergo with
  | withstands hstep => exact h.withstands hrun hundergo hstep
  | breaks next _ hended hbroken =>
    rw [breakDown_eq] at hbroken
    have hstopped : c'.phase = .stopped := by rw [hbroken]; rfl
    have hclosers : c'.closers = c.closers := by rw [hbroken]; exact hended.closers
    have hjoinable : c'.joinable = c.joinable := by rw [hbroken]; exact hended.joinable
    have hhandles : c'.handles = c.handles := by
      unfold handles
      rw [hclosers, hjoinable]
    refine ⟨hhandles ▸ h.one, fun _ => .inl hstopped, fun _ => .inl hstopped, ?_⟩
    intro hforsaken
    rcases (forsaken_snoc hrun).1 hforsaken with hold | hnew
    . rw [hhandles]
      exact h.forsaken hold
    . have := handles_of_forsakes hundergo hnew
      omega

theorem Joining.start (config : ClientConfig) : Joining config [] (start config) := by
  refine ⟨Nat.le_refl 1, by simp [handles, Client.start], by simp [Client.start], ?_⟩
  rintro ⟨before, incident, after, past, hsplit, -⟩
  simp at hsplit

theorem joining_of_undergoAll? (h : (start config).undergoAll? config.validated incidents = some c)
    : Joining config incidents c := by
  have hboth : (start config).undergoAll? config.validated ([] ++ incidents) = some c ∧
      Joining config ([] ++ incidents) c := by
    apply holds_of_foldlM (P := fun incidents c =>
      (start config).undergoAll? config.validated incidents = some c ∧ Joining config incidents c)
      _ ⟨rfl, .start config⟩ h
    rintro past s incident s' ⟨hrun, hjoining⟩ hundergo
    exact ⟨foldlM_snoc hrun hundergo, hjoining.undergo hrun hundergo⟩
  exact hboth.2

theorem closerTurn?_of_spent (h : c.handles = 0) {closer : Nat}
    (hwaits : c.closers[closer]? = some .waiting) (hfirst : .waiting ∉ c.closers.take closer)
    : c.closerTurn? closer = some { c with closers := c.closers.set closer .returned } := by
  unfold handles at h
  have hjoinable : c.joinable = false := by
    cases hjoinable : c.joinable with
    | false => rfl
    | true => simp [hjoinable] at h
  have hfree : .joining ∉ c.closers := List.count_eq_zero.1 (by omega)
  have hnext : c.isNext closer = true := by
    simp only [isNext, Bool.and_eq_true, List.all_eq_true, decide_eq_true_eq]
    constructor
    . rintro state hmem rfl
      exact hfirst hmem
    . rintro state hmem rfl
      exact hfree hmem
  unfold closerTurn?
  rw [hwaits]
  simp [hnext, hjoinable]

def Placed (c : Client) (ticket : Nat) : Prop :=
  .accepted ticket ∈ c.history ∨ ticket ∈ c.waiting ∨ .refused ticket ∈ c.history ∨
    ticket ∈ c.abandoned

theorem Placed.move (h : c.Placed ticket) (hmove : Move A c c') : c'.Placed ticket := by
  have hsuffix := hmove.grows.2
  rcases h with haccepted | hwaiting | hrefused | hgone
  . exact .inl (hsuffix.subset haccepted)
  . cases hmove with
    | queue => exact .inr (.inl (List.mem_append_left _ hwaiting))
    | enter first rest hfirst =>
      rw [hfirst] at hwaiting
      rcases List.mem_cons.1 hwaiting with rfl | hrest
      . exact .inl List.mem_cons_self
      . exact .inr (.inl hrest)
    | abandon other =>
      by_cases hother : ticket = other
      . subst hother
        refine .inr (.inr (.inr ?_))
        dsimp only
        split
        . assumption
        . exact List.mem_cons_self
      . exact .inr (.inl (List.mem_filter.2 ⟨hwaiting, by simpa using hother⟩))
    | stop =>
      refine .inr (.inr (.inl (List.mem_append_left _ ?_)))
      simpa using hwaiting
    | _ => exact .inr (.inl hwaiting)
  . exact .inr (.inr (.inl (hsuffix.subset hrefused)))
  . exact .inr (.inr (.inr (hmove.abandoned hgone)))

theorem placed_of_issued (hmove : Move A c c') (h : ticket < c'.commands.length)
    : ticket < c.commands.length ∨ c'.Placed ticket := by
  cases hmove with
  | accept command | queue command | refuse command =>
    simp only [List.length_append, List.length_singleton] at h
    rcases Nat.lt_succ_iff_lt_or_eq.1 h with hold | rfl
    . exact .inl hold
    . exact .inr (by simp [Placed])
  | _ => exact .inl h

theorem placed_of_run? (h : (start config).run? events = some c)
    (hticket : ticket < c.commands.length) : c.Placed ticket := by
  apply keeps_of_run? (P := fun c => ∀ ticket < c.commands.length, c.Placed ticket) _ _ h
  . exact hticket
  . intro c c' hplaced hmove ticket hticket
    rcases placed_of_issued hmove hticket with hold | hnew
    . exact (hplaced ticket hold).move hmove
    . exact hnew
  . simp [start]

theorem exists_of_settlements (h : 0 < c.settlements ticket)
    : ∃ reply, .replied ticket reply ∈ c.history := by
  unfold settlements at h
  obtain ⟨o, hmem, ho⟩ := List.mem_filterMap.1 (List.count_pos_iff.1 h)
  cases o <;> cases ho
  exact ⟨_, hmem⟩

theorem reply?_isSome_of_refused (h : .refused ticket ∈ c.history) : (c.reply? ticket).isSome := by
  apply List.findSome?_isSome_iff.2
  exact ⟨_, List.mem_reverse.2 h, by simp⟩

structure Over (c : Client) : Prop where
  closed : ∀ line < c.lines.length, c.closes line = 1
  home : c.hand = none ∧ c.lent = none ∧ c.loans = [] ∧ c.returning = []
  empty : c.mailbox = [] ∧ c.waiting = [] ∧ c.pending = []
  settled : ∀ ticket, .accepted ticket ∈ c.history → c.settlements ticket = 1
  told : ∀ ticket < c.commands.length, ticket ∉ c.abandoned → (c.reply? ticket).isSome

theorem over_of_stopped (h : (start config).run? events = some c) (hstopped : c.phase = .stopped)
    : c.Over := by
  have hsound := sound_of_run? h
  have hledger := hsound.ledger
  have hline : c.phase.line? = none := by
    rw [hstopped]
    rfl
  have hlent := hsound.custody.lent_of_line hline
  obtain ⟨hloans, hreturning, hhand⟩ := hsound.custody.home hlent
  obtain ⟨hmailbox, hwaiting⟩ := hledger.stopped hstopped
  have hsettled : ∀ ticket, .accepted ticket ∈ c.history → c.settlements ticket = 1 := by
    intro ticket haccepted
    exact hledger.settled_of_stopped hstopped haccepted
  refine ⟨?_, ⟨hhand.trans hline, hlent, hloans, hreturning⟩,
    ⟨hmailbox, hwaiting, hledger.offline (by rw [hstopped]; rfl)⟩, hsettled, ?_⟩
  . intro line hlt
    rw [(closing_of_run? h).closes, if_pos ⟨hlt, by simp [hline]⟩]
  . intro ticket hissued hpresent
    rcases placed_of_run? h hissued with haccepted | hwaits | hrefused | hgone
    . have hpos : 0 < c.settlements ticket := by
        rw [hsettled ticket haccepted]
        exact Nat.one_pos
      obtain ⟨reply, hreplied⟩ := exists_of_settlements hpos
      exact reply?_isSome hreplied
    . rw [hwaiting] at hwaits
      cases hwaits
    . exact reply?_isSome_of_refused hrefused
    . exact absurd hgone hpresent

/--
A closer returns only when the owner has stopped, unless one before it gave up while it waited for
the owner's end. Once the owner has stopped, and did not break down, which no owner with safe
settings does, each connection is closed exactly once, no writer is out, nothing waits, and every
command is resolved and its caller told. Once a closer has given up with the handle in its hand, each
closer that comes next returns at once, whatever the owner does.
-/
theorem stopped_of_returned
    (h : (start config).undergoAll? config.validated incidents = some c)
    : (∀ closer : Nat, c.closers[closer]? = some .returned →
        c.phase = .stopped ∨ Forsaken config incidents) ∧
      (c.phase = .stopped → .brokeDown ∉ c.history → c.Over) ∧
      (config.validated.IsSafe → .brokeDown ∉ c.history) ∧
      (Forsaken config incidents → ∀ closer : Nat, c.closers[closer]? = some .waiting →
        .waiting ∉ c.closers.take closer →
          c.closerTurn? closer = some { c with closers := c.closers.set closer .returned }) := by
  have hjoining := joining_of_undergoAll? h
  refine ⟨?_, ?_, fun hsafe => up_of_isSafe hsafe h, ?_⟩
  . intro closer hreturned
    exact hjoining.returned (List.mem_of_getElem? hreturned)
  . intro hstopped hup
    exact over_of_stopped (run?_of_undergoAll? h hup) hstopped
  . intro hforsaken closer hwaits hfirst
    exact closerTurn?_of_spent (hjoining.forsaken hforsaken) hwaits hfirst

def closedAfterLoan : List Incident :=
  [.other (.issue (.call { method := "a" })), .other (.issue .lend), .attemptSucceeds, .other .turn,
    .other .transmits, .other (.writeReturns true), .other .turn,
    .other (.issue (.notify { method := "b" })), .other .close, .other .close,
    .other (.closerTurn 0), .other (.release 1), .other .turn, .other .turn, .other .turn,
    .other (.closerTurn 0), .other (.closerTurn 1)]

theorem stopped_of_returned_after_loan
    : ∃ c, (start {}).undergoAll? ({} : ClientConfig).validated closedAfterLoan = some c ∧
        c.closers = [.returned, .returned] ∧ c.lines.length = 1 ∧ c.closes 0 = 1 ∧ c.lent = none ∧
        (c.reply? 0).isSome ∧ (c.reply? 1).isSome ∧ (c.reply? 2).isSome := by
  have hlast : ((start {}).undergoAll? ({} : ClientConfig).validated closedAfterLoan).map
      (fun c => (c.phase, c.closers, c.lines.length, c.commands.length, c.abandoned))
      = some (.stopped, [.returned, .returned], 1, 3, []) := by
    decide +kernel
  obtain ⟨c, hrun, hfacts⟩ := Option.map_eq_some_iff.1 hlast
  simp only [Prod.mk.injEq] at hfacts
  obtain ⟨hstopped, hclosers, hlines, hcommands, habandoned⟩ := hfacts
  have hsafe : ({} : ClientConfig).validated.IsSafe := ⟨by decide +kernel, by decide +kernel⟩
  obtain ⟨-, hover, hup, -⟩ := stopped_of_returned hrun
  have hover := hover hstopped (hup hsafe)
  have htold (ticket : Nat) (hticket : ticket < 3) : (c.reply? ticket).isSome :=
    hover.told ticket (by omega) (by simp [habandoned])
  exact ⟨c, hrun, hclosers, hlines, hover.closed 0 (by omega), hover.home.2.1, htold 0 (by omega),
    htold 1 (by omega), htold 2 (by omega)⟩

def forsakenClose : List Incident :=
  [.other (.issue .lend), .attemptSucceeds, .other .turn, .other .close, .other (.closerTurn 0),
    .other (.abandonClose 0), .other .close, .other (.closerTurn 1)]

/-- The second closer has returned; the owner drives its line, and the borrower has its writer. -/
theorem returned_before_stop
    : ∃ c, (start {}).undergoAll? ({} : ClientConfig).validated forsakenClose = some c ∧
        c.closers = [.abandoned, .returned] ∧ c.phase = .driving 0 ∧ c.loans = [⟨0, 0⟩] ∧ c.closes 0 = 0 := by
  have hlast : ((start {}).undergoAll? ({} : ClientConfig).validated forsakenClose).map
      (fun c => (c.closers, c.phase, c.loans, c.closes 0))
      = some ([.abandoned, .returned], .driving 0, [⟨0, 0⟩], 0) := by
    decide +kernel
  obtain ⟨c, hrun, hfacts⟩ := Option.map_eq_some_iff.1 hlast
  simp only [Prod.mk.injEq] at hfacts
  exact ⟨c, hrun, hfacts⟩

end JsonRpc.Client
