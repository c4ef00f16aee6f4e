import JsonRpc.Proofs.Client.Move
import Mathlib.Data.List.Basic

/-!
The messages that come in on a line. They are handed out in the order in which they are read, and
each of them at most once.
-/

namespace JsonRpc.Client

variable {A : Event → Prop}

def Occurrence.received? (line : Nat) : Occurrence → Option Bytes
  | .received l message => if l = line then some message else none
  | _ => none

def Occurrence.dispatched? (line : Nat) : Occurrence → Option Bytes
  | .dispatched l message => if l = line then some message else none
  | _ => none

def received (c : Client) (line : Nat) : List Bytes :=
  c.history.reverse.filterMap (Occurrence.received? line)

def dispatched (c : Client) (line : Nat) : List Bytes :=
  c.history.reverse.filterMap (Occurrence.dispatched? line)

theorem Line.places_of_read? {l after : Line} {room : Nat} {arrival : Except TransportError Bytes}
    (h : l.read? room = some (arrival, after))
    : l.inbox = arrival :: after.inbox ∧ after.buffer = l.buffer ++ [arrival] := by
  unfold read? at h
  split at h
  . cases h
  . next rest hinbox =>
    split at h
    . cases h
      exact ⟨hinbox, rfl⟩
    . cases h

def Line.unread (l : Line) : List Bytes :=
  l.buffer.filterMap Except.toOption

/--
What was handed out and what is still in the buffer is what was read. A line that is left drops its
buffer, and nothing more is read on it.
-/
structure Line.Orderly (l : Line) (dispatched received : List Bytes) : Prop where
  held : (dispatched ++ l.unread).IsPrefix received
  reading : l.reading → dispatched ++ l.unread = received

namespace Line.Orderly

variable {l : Line} {dispatched received : List Bytes}

theorem stop (h : l.Orderly dispatched received) : l.stop.Orderly dispatched received := by
  constructor
  . apply List.IsPrefix.trans _ h.held
    simp [Line.stop, unread]
  . simp [Line.stop]

theorem read {room : Nat} {arrival : Except TransportError Bytes} {after : Line}
    (h : l.Orderly dispatched received) (hread : l.read? room = some (arrival, after))
    : after.Orderly dispatched (received ++ arrival.toOption.toList) := by
  unfold Line.read? at hread
  split at hread
  . cases hread
  . next rest hinbox =>
    split at hread
    . next hopen =>
      cases hread
      have hreading : l.reading := by
        simp only [Bool.and_eq_true] at hopen
        exact hopen.1
      have hall : dispatched ++ (l.buffer ++ [arrival]).filterMap Except.toOption
          = received ++ arrival.toOption.toList := by
        rw [← h.reading hreading, List.filterMap_append, List.append_assoc]
        rfl
      constructor
      . refine ⟨[], ?_⟩
        rw [List.append_nil]
        exact hall
      . intro _
        exact hall
    . cases hread

theorem dispatch {message : Bytes} {rest : List (Except TransportError Bytes)}
    (h : l.Orderly dispatched received) (hbuffer : l.buffer = .ok message :: rest)
    : Line.Orderly { l with buffer := rest } (dispatched ++ [message]) received := by
  have hunread : l.unread = message :: rest.filterMap Except.toOption := by
    simp [unread, hbuffer, Except.toOption]
  have hheld := h.held
  have hreading := h.reading
  rw [hunread] at hheld hreading
  constructor
  . simpa [unread] using hheld
  . simpa [unread] using hreading

end Line.Orderly

def line (c : Client) (line : Nat) : Line :=
  c.lines[line]?.getD {}

def Orderly (c : Client) : Prop :=
  ∀ line, (c.line line).Orderly (c.dispatched line) (c.received line)

theorem getElem?_modify_getD (lines : List Line) (changed line : Nat) (f : Line → Line)
    : (lines.modify changed f)[line]?.getD {} = lines[line]?.getD {} ∨
        changed = line ∧ (lines.modify changed f)[line]?.getD {} = f (lines[line]?.getD {}) := by
  rw [List.getElem?_modify]
  by_cases hchanged : changed = line
  . cases hline : lines[line]? with
    | none => exact .inl (by simp)
    | some l => exact .inr ⟨hchanged, by simp [hchanged]⟩
  . exact .inl (by simp [hchanged])

theorem getElem?_append_getD (lines : List Line) (line : Nat)
    : (lines ++ [({} : Line)])[line]?.getD {} = lines[line]?.getD {} := by
  rw [List.getElem?_append]
  split
  . rfl
  . next hge =>
    rw [List.getElem?_eq_none (Nat.le_of_not_lt hge)]
    cases line - lines.length <;> rfl

namespace Orderly

attribute [local simp] Orderly line received dispatched Occurrence.received? Occurrence.dispatched?
  List.filterMap_cons Function.comp_def

theorem start (config : ClientConfig) : Orderly (start config) := by
  intro line
  constructor <;> simp [Client.start, Line.unread]

theorem move {c c' : Client} (h : Orderly c) (hmove : Move A c c') : Orderly c' := by
  intro line
  have hline := h line
  cases hmove with
  | arrive changed arrival =>
    unfold Client.line at *
    rcases getElem?_modify_getD c.lines changed line (fun l => { l with inbox := l.inbox ++ [arrival] })
      with heq | ⟨-, heq⟩
    . rw [heq]
      exact hline
    . rw [heq]
      exact ⟨hline.held, hline.reading⟩
  | leave changed exit hphase =>
    unfold Client.line at *
    -- What is dropped with the buffer stays among what was read.
    rcases getElem?_modify_getD c.lines changed line Line.stop with heq | ⟨-, heq⟩
    . rw [heq]
      simpa using hline
    . rw [heq]
      simpa using hline.stop
  | read changed before after arrival hbefore hread =>
    by_cases hchanged : changed = line
    . subst hchanged
      have hafter := hline
      unfold Client.line at hafter
      rw [hbefore] at hafter
      have hafter := hafter.read hread
      have hlt := (List.getElem?_eq_some_iff.1 hbefore).1
      cases arrival <;> simpa [Except.toOption, hlt] using hafter
    . cases arrival <;> simpa [Except.toOption, hchanged] using hline
  | dispatch changed before message rest hphase hbefore hbuffer =>
    by_cases hchanged : changed = line
    . subst hchanged
      have hafter := hline
      unfold Client.line at hafter
      rw [hbefore] at hafter
      have hafter := hafter.dispatch hbuffer
      simpa [List.getElem?_modify, hbefore] using hafter
    . simpa [List.getElem?_modify, hchanged] using hline
  | connect hevent hphase =>
    unfold Client.line at *
    rw [getElem?_append_getD]
    simpa using hline
  | stop => simpa using hline
  | hangUp => cases hhand : c.hand <;> simpa using hline
  | finishCall line job id => cases hlookup : c.pending.lookup id <;> simpa using hline
  | queue | abandon | release | closers | look | backOff | reclaim | skip => exact hline
  | _ => simpa using hline

end Orderly

def Line.held (l : Line) : List Bytes :=
  l.inbox.filterMap Except.toOption ++ l.unread

def heard (c : Client) (line : Nat) : List Bytes :=
  (c.line line).held ++ c.received line

theorem mem_heard_of_received {c : Client} {line : Nat} {message : Bytes}
    (h : .received line message ∈ c.history) : message ∈ c.heard line := by
  apply List.mem_append_right
  apply List.mem_filterMap.2
  exact ⟨.received line message, List.mem_reverse.2 h, by simp [Occurrence.received?]⟩

namespace Line

theorem held_arrive (l : Line) (arrival : Except TransportError Bytes) {message : Bytes}
    (h : message ∈ held { l with inbox := l.inbox ++ [arrival] })
    : message ∈ l.held ∨ arrival = .ok message := by
  simp only [held, unread, List.filterMap_append, List.mem_append] at *
  rcases h with (hinbox | hlatest) | hbuffer
  . exact .inl (.inl hinbox)
  . cases arrival with
    | error cause => cases hlatest
    | ok latest =>
      cases List.mem_singleton.1 hlatest
      exact .inr rfl
  . exact .inl (.inr hbuffer)

theorem held_stop {l : Line} {message : Bytes} (h : message ∈ l.stop.held) : message ∈ l.held := by
  have hinbox : l.stop.held = l.inbox.filterMap Except.toOption := List.append_nil _
  rw [hinbox] at h
  exact List.mem_append_left _ h

theorem held_read {l after : Line} {room : Nat} {arrival : Except TransportError Bytes}
    (hread : l.read? room = some (arrival, after)) : l.held.Perm after.held := by
  obtain ⟨hinbox, hbuffer⟩ := places_of_read? hread
  unfold held unread
  rw [hinbox, hbuffer, ← List.filterMap_append, ← List.filterMap_append, List.cons_append,
    ← List.append_assoc]
  exact (List.perm_append_singleton arrival _).symm.filterMap _

theorem mem_held_of_read? {l after : Line} {room : Nat} {message : Bytes}
    (hread : l.read? room = some (.ok message, after)) : message ∈ l.held := by
  apply List.mem_append_left
  rw [(places_of_read? hread).1]
  apply List.mem_cons_self

theorem held_dispatch {l : Line} {message : Bytes} {rest : List (Except TransportError Bytes)}
    (hbuffer : l.buffer = .ok message :: rest) {m : Bytes}
    (h : m ∈ held { l with buffer := rest }) : m ∈ l.held := by
  unfold held unread at *
  rw [hbuffer]
  rcases List.mem_append.1 h with hinbox | hrest
  . exact List.mem_append_left _ hinbox
  . exact List.mem_append_right _ (List.mem_cons_of_mem _ hrest)

end Line

def Hears (A : Event → Prop) (c : Client) : Prop :=
  ∀ line, ∀ message ∈ c.heard line, A (.arrives line (.ok message))

namespace Hears

attribute [local simp] Client.line received Occurrence.received? List.filterMap_cons
  Function.comp_def

theorem start (config : ClientConfig) : Hears A (start config) := by
  intro line message h
  simp [Client.start, heard, Client.line, Line.held, Line.unread] at h

theorem heard_move {c c' : Client} (hmove : Move A c c') {line : Nat} {message : Bytes}
    (h : message ∈ c'.heard line) : message ∈ c.heard line ∨ A (.arrives line (.ok message)) := by
  have hold : message ∈ (c.line line).held ∨ message ∈ c.received line → message ∈ c.heard line :=
    List.mem_append.2
  have hafter := List.mem_append.1 h
  cases hmove with
  | arrive changed arrival hevent =>
    unfold Client.line at *
    rcases getElem?_modify_getD c.lines changed line (fun l => { l with inbox := l.inbox ++ [arrival] })
      with heq | ⟨hchanged, heq⟩
    . rw [heq] at hafter
      exact .inl (hold hafter)
    . rw [heq] at hafter
      rcases hafter with hheld | hreceived
      . rcases Line.held_arrive _ _ hheld with hheld | hlatest
        . exact .inl (hold (.inl hheld))
        . rw [hchanged, hlatest] at hevent
          exact .inr hevent
      . exact .inl (hold (.inr hreceived))
  | leave changed exit hphase =>
    left
    apply hold
    unfold Client.line at *
    rcases getElem?_modify_getD c.lines changed line Line.stop with heq | ⟨-, heq⟩
    . rw [heq] at hafter
      simpa using hafter
    . rw [heq] at hafter
      simpa using hafter.imp_left Line.held_stop
  | read changed before after arrival hbefore hread =>
    left
    apply hold
    by_cases hchanged : changed = line
    . subst hchanged
      have hlt := (List.getElem?_eq_some_iff.1 hbefore).1
      have hline : c.line changed = before := by simp [hbefore]
      rw [hline]
      rcases hafter with hheld | hreceived
      . exact .inl ((Line.held_read hread).mem_iff.2 (by simpa [hlt] using hheld))
      . cases arrival with
        | error cause => exact .inr (by simpa [Except.toOption] using hreceived)
        | ok latest =>
          by_cases hlatest : message = latest
          . exact .inl (hlatest ▸ Line.mem_held_of_read? hread)
          . exact .inr (by simpa [Except.toOption, hlatest] using hreceived)
    . cases arrival <;> simpa [Except.toOption, hchanged] using hafter
  | dispatch changed before latest rest hphase hbefore hbuffer =>
    left
    apply hold
    by_cases hchanged : changed = line
    . subst hchanged
      have hline : c.line changed = before := by simp [hbefore]
      rw [hline]
      rcases hafter with hheld | hreceived
      . exact .inl (Line.held_dispatch hbuffer (by simpa [hbefore] using hheld))
      . exact .inr (by simpa using hreceived)
    . simpa [hchanged] using hafter
  | connect hevent hphase =>
    left
    apply hold
    unfold Client.line at *
    rw [getElem?_append_getD] at hafter
    simpa using hafter
  | hangUp => cases hhand : c.hand <;> exact .inl (hold (by simpa [hhand] using hafter))
  | finishCall line job id =>
    cases hlookup : c.pending.lookup id <;> exact .inl (hold (by simpa [hlookup] using hafter))
  | queue | abandon | release | closers | look | backOff | reclaim | skip => exact .inl h
  | _ => exact .inl (hold (by simpa using hafter))

theorem move {c c' : Client} (h : Hears A c) (hmove : Move A c c') : Hears A c' := by
  intro line message hmem
  rcases heard_move hmove hmem with hold | hnew
  . exact h line message hold
  . exact hnew

end Hears

end JsonRpc.Client
