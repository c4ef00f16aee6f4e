import JsonRpc.Proofs.Client.Outbound
import JsonRpc.Proofs.Link.Move
import JsonRpc.Proofs.Server.Handling

/-!
What a link keeps. A server takes in what has left on its line, in order, until the line is cut; a
client hears nothing but what the server of the line has written.
-/

namespace JsonRpc.Link

variable {handler : Request → (cancelled : Bool) → Server.HandlerOutcome}

def Line.Wrote (x : Line) (message : Bytes) : Prop :=
  ∃ response ∈ x.server.written, message = response.encode

/-- Of what has left on a line, some messages have arrived and those after them are on the way. -/
structure Line.Joined (handler : Request → (cancelled : Bool) → Server.HandlerOutcome)
    (carried : List (Nat × Bytes)) (x : Line) : Prop where
  requests : ∃ arrived waiting : List (Nat × Bytes), (arrived ++ waiting).Sublist carried ∧
    waiting.map Prod.snd = x.requests ∧ x.server.Served handler (arrived.map Prod.snd)
  responses : ∀ message ∈ x.responses, x.Wrote message

theorem Line.Wrote.move {x x' : Line} {message : Bytes} (h : x.Wrote message)
    (hmove : x.Move handler x') : x'.Wrote message := by
  obtain ⟨response, hmem, rfl⟩ := h
  cases hmove with
  | receive _ _ server _ hserver | finish _ _ server _ hserver | respond _ _ _ server _ hserver
  | cut _ server hserver | close server hserver =>
    exact ⟨response, hserver.written_subset hmem, rfl⟩

namespace Line.Joined

variable {carried : List (Nat × Bytes)} {x : Line}

theorem start : Line.Joined handler carried {} := by
  constructor
  . exact ⟨[], [], List.nil_sublist _, rfl, Server.Connection.Served.start⟩
  . simp

theorem mono {carried' : List (Nat × Bytes)} (h : x.Joined handler carried)
    (hsub : carried.Sublist carried') : x.Joined handler carried' := by
  obtain ⟨arrived, waiting, hcarried, hwaiting, hserved⟩ := h.requests
  exact ⟨⟨arrived, waiting, hcarried.trans hsub, hwaiting, hserved⟩, h.responses⟩

theorem send (h : x.Joined handler carried) (ticket : Nat) (message : Bytes)
    : Line.Joined handler (carried ++ [(ticket, message)])
        { x with requests := x.requests ++ [message] } := by
  obtain ⟨arrived, waiting, hcarried, hwaiting, hserved⟩ := h.requests
  refine ⟨⟨arrived, waiting ++ [(ticket, message)], ?_, ?_, hserved⟩, h.responses⟩
  . rw [← List.append_assoc]
    exact hcarried.append_right _
  . rw [List.map_append, hwaiting]
    rfl

theorem drain (h : x.Joined handler carried) {responses : List Bytes}
    (hresponses : ∀ message ∈ responses, message ∈ x.responses)
    : Line.Joined handler carried { x with responses } := by
  exact ⟨h.requests, fun message hmem => h.responses message (hresponses message hmem)⟩

theorem requests_move (h : x.Joined handler carried) {x' : Line} (hmove : x.Move handler x')
    : ∃ arrived waiting : List (Nat × Bytes), (arrived ++ waiting).Sublist carried ∧
        waiting.map Prod.snd = x'.requests ∧ x'.server.Served handler (arrived.map Prod.snd) := by
  obtain ⟨arrived, waiting, hcarried, hwaiting, hserved⟩ := h.requests
  cases hmove with
  | receive message requests server hrequests hserver =>
    -- The first message on the way arrives.
    rw [hrequests] at hwaiting
    obtain ⟨first, rest, rfl, rfl, rfl⟩ := List.map_eq_cons_iff.1 hwaiting
    refine ⟨arrived ++ [first], rest, by simpa using hcarried, rfl, ?_⟩
    rw [List.map_append]
    exact hserved.move hserver (by simp)
  | finish index task server htask hserver =>
    refine ⟨arrived, waiting, hcarried, hwaiting, ?_⟩
    have hmoved := hserved.move hserver (by
      intro index' outcome task' hevent htask'
      cases hevent
      rw [htask] at htask'
      cases htask'
      rfl)
    simpa [Server.Connection.Event.message?] using hmoved
  | respond author succeeds response server hwritten hserver =>
    refine ⟨arrived, waiting, hcarried, hwaiting, ?_⟩
    simpa [Server.Connection.Event.message?] using hserved.move hserver (by simp)
  | cut cause server hserver =>
    -- What was on the way is lost.
    refine ⟨arrived, [], ?_, rfl, ?_⟩
    . rw [List.append_nil]
      exact (List.sublist_append_left _ _).trans hcarried
    . simpa [Server.Connection.Event.message?] using hserved.move hserver (by simp)
  | close server hserver =>
    refine ⟨arrived, waiting, hcarried, hwaiting, ?_⟩
    simpa [Server.Connection.Event.message?] using hserved.move hserver (by simp)

theorem responses_move (h : x.Joined handler carried) {x' : Line} (hmove : x.Move handler x')
    : ∀ message ∈ x'.responses, x'.Wrote message := by
  intro message hmem
  have hold : message ∈ x.responses → x'.Wrote message := fun hmem =>
    (h.responses message hmem).move hmove
  cases hmove with
  | respond author succeeds response server hwritten hserver =>
    cases succeeds with
    | false => exact hold hmem
    | true =>
      rcases List.mem_append.1 hmem with hmem | hlatest
      . exact hold hmem
      . cases List.mem_singleton.1 hlatest
        exact ⟨response, by simp [hwritten], rfl⟩
  | receive | finish | cut | close => exact hold hmem

theorem move (h : x.Joined handler carried) {x' : Line} (hmove : x.Move handler x')
    : x'.Joined handler carried :=
  ⟨h.requests_move hmove, h.responses_move hmove⟩

end Line.Joined

theorem getElem?_send (l : Link) (line : Nat) (message : Bytes) (i : Nat)
    : (l.send line message).lines[i]?
        =
      l.lines[i]?.map fun x =>
        if line = i then { x with requests := x.requests ++ [message] } else x := by
  unfold send
  rw [List.getElem?_modify]
  split <;> rfl

theorem getElem?_putLine (l : Link) (line : Nat) (value : Line) (i : Nat)
    : (l.putLine line value).lines[i]?
        =
      l.lines[i]?.map fun x => if line = i then value else x := by
  unfold putLine
  rw [List.getElem?_set']
  split
  . rfl
  . exact Option.map_id'.symm

theorem Move.wrote {l l' : Link} {event : Event} (hmove : Move handler l event l') {line : Nat}
    {x : Line} (hline : l.lines[line]? = some x)
    : ∃ x', l'.lines[line]? = some x' ∧ ∀ message, x.Wrote message → x'.Wrote message := by
  cases hmove with
  | inward => exact ⟨x, hline, fun _ h => h⟩
  | connect =>
    refine ⟨x, ?_, fun _ h => h⟩
    rw [List.getElem?_append_left (List.getElem?_eq_some_iff.1 hline).1]
    exact hline
  | transmit | notify =>
    rw [getElem?_send, hline]
    refine ⟨_, rfl, ?_⟩
    intro message h
    split <;> exact h
  | deliver changed y message responses hchanged | cut changed y cause hchanged =>
    rw [getElem?_putLine, hline]
    refine ⟨_, rfl, ?_⟩
    intro m h
    split
    . next heq =>
      rw [← heq, hchanged] at hline
      cases hline
      exact h
    . exact h
  | serve _ changed y y' hchanged hy =>
    rw [getElem?_putLine, hline]
    refine ⟨_, rfl, ?_⟩
    intro message h
    split
    . next heq =>
      rw [← heq, hchanged] at hline
      cases hline
      exact h.move hy
    . exact h

def Brought (events : List Event) (l : Link) : Client.Event → Prop
  | .borrowerWrites ticket message => ∃ request, .borrowerNotifies ticket request ∈ events ∧
      request.notification ∧ message = request.encode
  | .arrives line (.ok message) => ∃ x, l.lines[line]? = some x ∧ x.Wrote message
  | _ => True

theorem Brought.move {events : List Event} {l l' : Link} {event : Event} {e : Client.Event}
    (h : Brought events l e) (hmove : Move handler l event l')
    : Brought (events ++ [event]) l' e := by
  cases e with
  | borrowerWrites ticket message =>
    obtain ⟨request, hmem, hrequest⟩ := h
    exact ⟨request, List.mem_append_left _ hmem, hrequest⟩
  | arrives line arrival =>
    cases arrival with
    | error cause => trivial
    | ok message =>
      obtain ⟨x, hline, hwrote⟩ := h
      obtain ⟨x', hline', hkept⟩ := hmove.wrote hline
      exact ⟨x', hline', hkept message hwrote⟩
  | _ => trivial

structure Composed (handler : Request → (cancelled : Bool) → Server.HandlerOutcome)
    (events : List Event) (l : Link) : Prop where
  client : l.client.Traced (Brought events l)
  lines : ∀ line (x : Line), l.lines[line]? = some x → x.Joined handler (l.client.carried line)

namespace Composed

variable {events : List Event} {l l' : Link} {event : Event}

theorem start (config : ClientConfig) : Composed handler [] (start config) := by
  constructor
  . apply Client.Traced.start
  . simp [Link.start]

theorem client_moves (h : Composed handler events l) (hmove : Move handler l event l')
    : Client.Moves (Brought (events ++ [event]) l') l.client l'.client := by
  cases hmove with
  | inward e client he hclient =>
    apply Client.step?_moves hclient
    cases e <;> trivial
  | connect client hclient => exact Client.step?_moves hclient trivial
  | transmit line job client hphase hclient => exact Client.transmits?_moves hclient trivial
  | notify ticket request loan client hloan hnotification hclient =>
    apply Client.borrowerWrites?_moves hclient
    exact ⟨request, by simp, hnotification, rfl⟩
  | deliver line x message responses hline hresponses =>
    apply Client.arrives_moves
    refine ⟨{ x with responses }, ?_, ?_⟩
    . rw [getElem?_putLine, hline]
      simp
    . exact (h.lines line x hline).responses message (by simp [hresponses])
  | cut line x cause hline => exact Client.arrives_moves _ _ _ trivial
  | serve => exact .refl

theorem lines_move (h : Composed handler events l) (hmove : Move handler l event l') (line : Nat)
    (x' : Line) (hline' : l'.lines[line]? = some x')
    : x'.Joined handler (l'.client.carried line) := by
  have hcarried := (h.client_moves hmove).carried_sublist line
  have hold : ∀ x : Line, l.lines[line]? = some x → x.Joined handler (l'.client.carried line) := by
    intro x hline
    exact (h.lines line x hline).mono hcarried
  cases hmove with
  | inward => exact hold x' hline'
  | connect =>
    rw [List.getElem?_append] at hline'
    split at hline'
    . exact hold x' hline'
    . cases List.mem_singleton.1 (List.mem_of_getElem? hline')
      exact .start
  | transmit sent job client hphase hclient =>
    rw [getElem?_send] at hline'
    obtain ⟨x, hline, rfl⟩ := Option.map_eq_some_iff.1 hline'
    split
    . next heq =>
      subst heq
      have := (h.lines sent x hline).send job.ticket job.request.encode
      rw [← Client.carried_of_transmits? hphase hclient] at this
      exact this
    . exact hold x hline
  | notify ticket request loan client hloan hnotification hclient =>
    rw [getElem?_send] at hline'
    obtain ⟨x, hline, rfl⟩ := Option.map_eq_some_iff.1 hline'
    split
    . next heq =>
      subst heq
      have := (h.lines loan.line x hline).send loan.ticket request.encode
      rw [← Client.carried_of_borrowerWrites? hloan hclient] at this
      exact this
    . exact hold x hline
  | deliver changed y message responses hchanged hresponses =>
    rw [getElem?_putLine] at hline'
    obtain ⟨x, hline, rfl⟩ := Option.map_eq_some_iff.1 hline'
    split
    . next heq =>
      subst heq
      apply (hold y hchanged).drain
      intro m hm
      rw [hresponses]
      exact List.mem_cons_of_mem _ hm
    . exact hold x hline
  | cut changed y cause hchanged =>
    rw [getElem?_putLine] at hline'
    obtain ⟨x, hline, rfl⟩ := Option.map_eq_some_iff.1 hline'
    split
    . next heq =>
      subst heq
      exact (hold y hchanged).drain (by simp)
    . exact hold x hline
  | serve _ changed y y' hchanged hy =>
    rw [getElem?_putLine] at hline'
    obtain ⟨x, hline, rfl⟩ := Option.map_eq_some_iff.1 hline'
    split
    . next heq =>
      subst heq
      exact (hold y hchanged).move hy
    . exact hold x hline

theorem move (h : Composed handler events l) (hmove : Move handler l event l')
    : Composed handler (events ++ [event]) l' where
  client := (h.client.mono fun _ he => Brought.move he hmove).moves (h.client_moves hmove)
  lines := h.lines_move hmove

end Composed

theorem composed_of_run? {config : ClientConfig} {events : List Event} {l : Link}
    (h : run? handler (start config) events = some l) : Composed handler events l := by
  exact holds_of_run? (Composed.start config) (fun _ _ _ _ => Composed.move) h

end JsonRpc.Link
