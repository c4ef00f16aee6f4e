import JsonRpc.Proofs.Client.Handover

/-!
The connections of a client, one after another. The writer of each is closed once, behind all that
was written, and before there is another connection.
-/

namespace JsonRpc.Client

variable {A : Event → Prop}

def Occurrence.writtenOn? : Occurrence → Option Nat
  | .begun line _ _ | .transmitted line _ _ | .written line _ => some line
  | _ => none

def Occurrence.IsWithin (live : Option Nat) : Occurrence → Prop
  | .connected _ | .lineClosed _ => False
  | .begun line _ _ | .transmitted line _ _ | .written line _ => live = some line
  | _ => True

theorem Occurrence.IsWithin.live {o : Occurrence} {live : Option Nat} {line : Nat}
    (h : o.IsWithin live) (hline : o.writtenOn? = some line) : live = some line := by
  cases o <;> cases hline
  all_goals exact h

theorem forall_mem_reverse_map {α : Type} {xs : List α} {f : α → Occurrence}
    {P : Occurrence → Prop} (hf : ∀ x, P (f x)) : ∀ o ∈ (xs.map f).reverse, P o := by
  intro o ho
  rw [List.mem_reverse, List.mem_map] at ho
  obtain ⟨x, -, rfl⟩ := ho
  exact hf x

inductive Stretch (A : Event → Prop) (c c' : Client) : Prop where
  | keeps (more : List Occurrence) (hhistory : c'.history = more ++ c.history)
    (hline : c'.phase.line? = c.phase.line?) (hlines : c'.lines.length = c.lines.length)
    (hwithin : ∀ o ∈ more, o.IsWithin c.phase.line?) :
    Stretch A c c'
  | connects (hhistory : c'.history = .connected c.lines.length :: c.history)
    (hline : c.phase.line? = none) (hline' : c'.phase.line? = some c.lines.length)
    (hlines : c'.lines.length = c.lines.length + 1) :
    Stretch A c c'
  | closes (line : Nat) (hevent : A .turn)
    (hhistory : c'.history = .lineClosed line :: c.history) (hline : c.phase.line? = some line)
    (hline' : c'.phase.line? = none) (hlines : c'.lines.length = c.lines.length) :
    Stretch A c c'

theorem Custody.line_of_loan {c : Client} (h : Custody c) {ticket : Nat} {loan : Loan}
    (hloan : c.loan? ticket = some loan) : c.phase.line? = some loan.line := by
  have hwriter := h.writer
  obtain ⟨hlent, hloans, hreturning⟩ := h.lent_of_loan hloan
  obtain ⟨hhand, -⟩ := h.away hlent
  rw [hloans, hreturning, hhand] at hwriter
  exact (Option.toList_eq_singleton_iff.1 hwriter.symm)

theorem Move.stretch {c c' : Client} (h : Custody c) (hmove : Move A c c') : Stretch A c c' := by
  cases hmove with
  | queue | abandon | release | closers | look | reclaim | skip =>
    exact .keeps [] rfl rfl rfl (by simp)
  | accept | refuse | enter | shutDown | turnAway | dropCall | lend =>
    exact .keeps [_] rfl rfl rfl (by simp [Occurrence.IsWithin])
  | borrowerWrites ticket loan message hevent hloan =>
    refine .keeps [_] rfl rfl rfl ?_
    simpa [Occurrence.IsWithin] using h.line_of_loan hloan
  | arrive => exact .keeps [] rfl rfl (by simp) (by simp)
  | read line before after arrival =>
    refine .keeps _ rfl rfl (by simp) ?_
    cases arrival <;> simp [Except.toOption, Occurrence.IsWithin]
  | connect hevent hphase => exact .connects rfl (by rw [hphase]; rfl) rfl (by simp)
  | backOff wake hphase => exact .keeps [] rfl (by rw [hphase]; rfl) rfl (by simp)
  | attempt hphase =>
    have hline := Custody.line?_of_isOffline hphase
    exact .keeps [_] rfl hline.symm rfl (by simp [Occurrence.IsWithin])
  | stop hphase =>
    have hline := Custody.line?_of_isOffline hphase
    refine .keeps _ (List.append_assoc _ _ _).symm hline.symm rfl ?_
    rw [List.forall_mem_append]
    exact ⟨forall_mem_reverse_map fun _ => trivial, forall_mem_reverse_map fun _ => trivial⟩
  | leave line exit hphase =>
    exact .keeps _ rfl (by rw [hphase]; rfl) (by simp) (forall_mem_reverse_map fun _ => trivial)
  | dispatch line before message rest hphase =>
    refine .keeps _ (List.append_cons _ _ _) rfl (by simp) ?_
    rw [List.forall_mem_append]
    exact ⟨forall_mem_reverse_map fun _ => trivial, by simp [Occurrence.IsWithin]⟩
  | hangUp line exit hphase hlent hevent =>
    obtain ⟨-, -, hhand⟩ := h.home hlent
    rw [hphase] at hhand
    exact .closes line hevent (by rw [hhand]; rfl) (by rw [hphase]; rfl) rfl rfl
  | beginCall line ticket rest request htake | beginNotify line ticket rest request htake =>
    refine .keeps [_] rfl (by rw [htake.phase]; rfl) rfl ?_
    simp [Occurrence.IsWithin, htake.phase, Phase.line?]
  | transmit line job hevent hphase =>
    refine .keeps [_] rfl (by rw [hphase]; rfl) rfl ?_
    simp [Occurrence.IsWithin, hphase, Phase.line?]
  | finishCall line job id hphase =>
    refine .keeps _ (List.append_cons _ _ _) (by rw [hphase]; rfl) rfl ?_
    cases hlookup : c.pending.lookup id <;> simp [Occurrence.IsWithin, hphase, Phase.line?]
  | finishNotify line job hphase =>
    refine .keeps [_, _] rfl (by rw [hphase]; rfl) rfl ?_
    simp [Occurrence.IsWithin, hphase, Phase.line?]
  | breakOff line job exit hphase =>
    refine .keeps [_] rfl (by rw [hphase]; rfl) rfl ?_
    simp [Occurrence.IsWithin]

theorem split_of_not_mem {α : Type} {more history later earlier : List α} {x : α}
    (h : more ++ history = later ++ x :: earlier) (hx : x ∉ more)
    : ∃ middle, later = more ++ middle ∧ history = middle ++ x :: earlier := by
  rcases List.append_eq_append_iff.1 h with ⟨middle, rfl, hhistory⟩ | ⟨middle, rfl, hhistory⟩
  . exact ⟨middle, rfl, hhistory⟩
  . cases middle with
    | nil => exact ⟨[], by simp, hhistory.symm⟩
    | cons y middle =>
      obtain ⟨rfl, -⟩ := List.cons.inj hhistory
      simp at hx

structure Closing (c : Client) : Prop where
  closes : ∀ line, c.closes line
    = if line < c.lines.length ∧ c.phase.line? ≠ some line then 1 else 0
  silent : ∀ line later earlier, c.history = later ++ .lineClosed line :: earlier →
    ∀ o ∈ later, o.writtenOn? ≠ some line
  ordered : ∀ line later earlier, c.history = later ++ .connected line :: earlier →
    ∀ before < line, .lineClosed before ∈ earlier

namespace Closing

theorem start (config : ClientConfig) : Closing (start config) := by
  constructor <;> simp [Client.start, Client.closes, List.cons_eq_append_iff]

variable {c c' : Client}

theorem mem_history (h : Closing c) {line : Nat}
    : .lineClosed line ∈ c.history ↔ line < c.lines.length ∧ c.phase.line? ≠ some line := by
  have hcloses := h.closes line
  rw [← List.count_pos_iff]
  change 0 < c.closes line ↔ _
  split at hcloses
  . next hclosed => simp [hcloses, hclosed]
  . next hopen => simp [hcloses, hopen]

theorem of_keeps (h : Closing c) {more : List Occurrence}
    (hhistory : c'.history = more ++ c.history) (hline : c'.phase.line? = c.phase.line?)
    (hlines : c'.lines.length = c.lines.length)
    (hwithin : ∀ o ∈ more, o.IsWithin c.phase.line?) : Closing c' := by
  have hclosed (line : Nat) : .lineClosed line ∉ more := hwithin _
  have hconnected (line : Nat) : .connected line ∉ more := hwithin _
  constructor
  . intro line
    rw [hline, hlines, ← h.closes line]
    simp [Client.closes, hhistory, List.count_eq_zero.2 (hclosed line)]
  . intro line later earlier hsplit o ho hwritten
    rw [hhistory] at hsplit
    obtain ⟨middle, rfl, hearlier⟩ := split_of_not_mem hsplit (hclosed line)
    rcases List.mem_append.1 ho with hnew | hold
    . -- What is written is written on the live line, which is not closed.
      have hmem : .lineClosed line ∈ c.history := by simp [hearlier]
      exact (h.mem_history.1 hmem).2 ((hwithin o hnew).live hwritten)
    . exact h.silent line middle earlier hearlier o hold hwritten
  . intro line later earlier hsplit
    rw [hhistory] at hsplit
    obtain ⟨middle, -, hearlier⟩ := split_of_not_mem hsplit (hconnected line)
    exact h.ordered line middle earlier hearlier

theorem silent_of_cons (h : Closing c) {o : Occurrence} (hhistory : c'.history = o :: c.history)
    (hquiet : o.writtenOn? = none) {line : Nat} {later earlier : List Occurrence}
    (hsplit : c'.history = later ++ .lineClosed line :: earlier)
    : ∀ o ∈ later, o.writtenOn? ≠ some line := by
  intro other hother
  rw [hhistory] at hsplit
  rcases List.cons_eq_append_iff.1 hsplit with ⟨rfl, -⟩ | ⟨middle, rfl, hearlier⟩
  . cases hother
  . rcases List.mem_cons.1 hother with rfl | hold
    . simp [hquiet]
    . exact h.silent line middle earlier hearlier other hold

theorem ordered_of_cons (h : Closing c) {o : Occurrence} (hhistory : c'.history = o :: c.history)
    (hnew : ∀ line, o = .connected line → ∀ before < line, .lineClosed before ∈ c.history)
    {line : Nat} {later earlier : List Occurrence}
    (hsplit : c'.history = later ++ .connected line :: earlier)
    : ∀ before < line, .lineClosed before ∈ earlier := by
  rw [hhistory] at hsplit
  rcases List.cons_eq_append_iff.1 hsplit with ⟨-, heq⟩ | ⟨middle, -, hearlier⟩
  . obtain ⟨rfl, rfl⟩ := List.cons.inj heq
    exact hnew line rfl
  . exact h.ordered line middle earlier hearlier

theorem of_connects (h : Closing c) (hhistory : c'.history = .connected c.lines.length :: c.history)
    (hline : c.phase.line? = none) (hline' : c'.phase.line? = some c.lines.length)
    (hlines : c'.lines.length = c.lines.length + 1) : Closing c' := by
  constructor
  . intro line
    have hcloses := h.closes line
    rw [hline] at hcloses
    have hcount : c'.closes line = c.closes line := by simp [Client.closes, hhistory]
    rw [hcount, hcloses, hline', hlines]
    simp only [ne_eq, reduceCtorEq, not_false_eq_true, and_true, Option.some.injEq]
    congr 1
    rw [eq_iff_iff]
    omega
  . intro line later earlier hsplit
    exact h.silent_of_cons hhistory rfl hsplit
  . intro line later earlier hsplit
    apply h.ordered_of_cons hhistory _ hsplit
    rintro line ⟨⟩ before hbefore
    exact h.mem_history.2 ⟨hbefore, by simp [hline]⟩

theorem of_closes (h : Closing c) (hcustody : Custody c) {line : Nat}
    (hhistory : c'.history = .lineClosed line :: c.history) (hline : c.phase.line? = some line)
    (hline' : c'.phase.line? = none) (hlines : c'.lines.length = c.lines.length) : Closing c' := by
  have hlatest := hcustody.latest line hline
  constructor
  . intro other
    have hcloses := h.closes other
    have hcount : c'.closes other = c.closes other + if line = other then 1 else 0 := by
      simp [Client.closes, hhistory, List.count_cons]
    rw [hcount, hcloses, hline, hline', hlines]
    by_cases heq : line = other
    . subst heq
      have hlt : line < c.lines.length := by omega
      simp [hlt]
    . simp [heq]
  . intro other later earlier hsplit
    exact h.silent_of_cons hhistory rfl hsplit
  . intro other later earlier hsplit
    apply h.ordered_of_cons hhistory _ hsplit
    intro other hnew
    cases hnew

theorem move (h : Closing c) (hcustody : Custody c) (hmove : Move A c c') : Closing c' := by
  cases hmove.stretch hcustody with
  | keeps more hhistory hline hlines hwithin => exact h.of_keeps hhistory hline hlines hwithin
  | connects hhistory hline hline' hlines => exact h.of_connects hhistory hline hline' hlines
  | closes line hevent hhistory hline hline' hlines =>
    exact h.of_closes hcustody hhistory hline hline' hlines

end Closing

theorem closing_of_run? {config : ClientConfig} {events : List Event} {c : Client}
    (h : (start config).run? events = some c) : Closing c :=
  holds_of_run? (fun _ _ hsound hclosing => hclosing.move hsound.custody) (Closing.start config) h

theorem Stretch.lines_le {c c' : Client} (h : Stretch A c c')
    : c.lines.length ≤ c'.lines.length := by
  cases h <;> omega

theorem line?_of_moves {c c' : Client} {line : Nat} (h : Custody c) (hmoves : Moves A c c')
    (hturn : ¬ A .turn) (hline : c.phase.line? = some line) : c'.phase.line? = some line := by
  have hboth : Custody c' ∧ c'.phase.line? = some line := by
    apply hmoves.keep _ ⟨h, hline⟩
    rintro next next' ⟨hcustody, hnext⟩ hmove
    refine ⟨hcustody.move hmove, ?_⟩
    cases hmove.stretch hcustody with
    | keeps more hhistory hkept => exact hkept.trans hnext
    | connects hhistory hidle =>
      rw [hnext] at hidle
      cases hidle
    | closes line hevent => exact absurd hevent hturn
  exact hboth.2

theorem lines_le_of_moves {c c' : Client} (h : Custody c) (hmoves : Moves A c c')
    : c.lines.length ≤ c'.lines.length := by
  have hboth : Custody c' ∧ c.lines.length ≤ c'.lines.length := by
    apply hmoves.keep _ ⟨h, Nat.le_refl _⟩
    rintro next next' ⟨hcustody, hle⟩ hmove
    exact ⟨hcustody.move hmove, Nat.le_trans hle (hmove.stretch hcustody).lines_le⟩
  exact hboth.2

theorem Closing.closes_of_live {c : Client} (h : Closing c) {line : Nat}
    (hline : c.phase.line? = some line) : c.closes line = 0 := by
  rw [h.closes, if_neg]
  simp [hline]

theorem closes_of_left {c c' : Client} {line : Nat} (h : Custody c) (h' : Closing c')
    (hmoves : Moves A c c') (hline : c.phase.line? = some line)
    (hleft : c'.phase.line? ≠ some line) : c'.closes line = 1 := by
  have hlatest := h.latest line hline
  have hle := lines_le_of_moves h hmoves
  rw [h'.closes, if_pos ⟨by omega, hleft⟩]

end JsonRpc.Client
