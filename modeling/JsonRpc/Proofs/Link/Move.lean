import JsonRpc.Link.Basic
import JsonRpc.Proofs.Server.Move

/-!
What can happen in a link: something at the client, something on one line, or a message that goes
from one side to the other.
-/

namespace JsonRpc.Link

variable {handler : Request → (cancelled : Bool) → Server.HandlerOutcome}

inductive Line.Move (handler : Request → (cancelled : Bool) → Server.HandlerOutcome) (x : Line)
    : Line → Prop where
  | receive (message : Bytes) (requests : List Bytes) (server : Server.Connection)
    (hrequests : x.requests = message :: requests)
    (hserver : x.server.Move (.receive message) server) :
    Move handler x { x with server, requests }
  | finish (index : Nat) (task : Server.Task) (server : Server.Connection)
    (htask : x.server.tasks[index]? = some task)
    (hserver : x.server.Move (.finish index (handler task.request task.cancelled)) server) :
    Move handler x { x with server }
  | respond (author : Server.Author) (succeeds : Bool) (response : Response)
    (server : Server.Connection)
    (hwritten : server.written
      = if succeeds then x.server.written ++ [response] else x.server.written)
    (hserver : x.server.Move (.write author succeeds) server) :
    Move handler x { x with
      server
      responses := if succeeds then x.responses ++ [response.encode] else x.responses }
  | cut (cause : TransportError) (server : Server.Connection)
    (hserver : x.server.Move (.readFails cause) server) :
    Move handler x { x with server, requests := [] }
  | close (server : Server.Connection) (hserver : x.server.Move .close server) :
    Move handler x { x with server }

theorem written_of_write? {c c' : Server.Connection} {author : Server.Author} {succeeds : Bool}
    {response : Response} (hwaiting : c.waiting? author = some response)
    (h : c.write? author succeeds = some c')
    : c'.written = if succeeds then c.written ++ [response] else c.written := by
  unfold Server.Connection.write? at h
  rw [hwaiting] at h
  cases h
  cases author <;> cases succeeds <;> rfl

theorem Line.step?_move {x x' : Line} {event : Event} (h : x.step? handler event = some x')
    : x.Move handler x' := by
  unfold Line.step? at h
  split at h
  . split at h
    . cases h
    . next message requests hrequests =>
      obtain ⟨server, hserver, rfl⟩ := Option.map_eq_some_iff.1 h
      exact .receive message requests server hrequests (Server.Connection.receive?_move hserver)
  . next index =>
    split at h
    . cases h
    . next task htask =>
      obtain ⟨server, hserver, rfl⟩ := Option.map_eq_some_iff.1 h
      exact .finish index task server htask (Server.Connection.finish?_move hserver)
  . next author succeeds =>
    split at h
    . next response server hwaiting hserver =>
      cases h
      exact .respond author succeeds response server (written_of_write? hwaiting hserver)
        (Server.Connection.write?_move hserver)
    . cases h
  . next cause =>
    obtain ⟨server, hserver, rfl⟩ := Option.map_eq_some_iff.1 h
    have hstep : x.server.step? (.readFails cause) = some server := hserver
    exact .cut cause server (Server.Connection.step?_move hstep)
  . obtain ⟨server, hserver, rfl⟩ := Option.map_eq_some_iff.1 h
    exact .close server (Server.Connection.close?_move hserver)
  all_goals cases h

def IsInward : Client.Event → Prop
  | .arrives _ _ | .borrowerWrites _ _ | .connects | .transmits => False
  | _ => True

inductive Move (handler : Request → (cancelled : Bool) → Server.HandlerOutcome) (l : Link)
    : Event → Link → Prop where
  | inward (event : Client.Event) (client : Client) (hevent : IsInward event)
    (hclient : l.client.step? event = some client) :
    Move handler l (.client event) { l with client }
  | connect (client : Client) (hclient : l.client.step? .connects = some client) :
    Move handler l (.client .connects) { client, lines := l.lines ++ [{}] }
  | transmit (line : Nat) (job : Client.Job) (client : Client)
    (hphase : l.client.phase = .writing line job) (hclient : l.client.transmits? = some client) :
    Move handler l (.client .transmits) ({ l with client }.send line job.request.encode)
  | notify (ticket : Nat) (request : Request) (loan : Client.Loan) (client : Client)
    (hloan : l.client.loan? ticket = some loan) (hnotification : request.notification)
    (hclient : l.client.borrowerWrites? ticket request.encode = some client) :
    Move handler l (.borrowerNotifies ticket request)
      ({ l with client }.send loan.line request.encode)
  | deliver (line : Nat) (x : Line) (message : Bytes) (responses : List Bytes)
    (hline : l.lines[line]? = some x) (hresponses : x.responses = message :: responses) :
    Move handler l (.responseArrives line)
      ({ l with client := l.client.arrives line (.ok message) }.putLine line { x with responses })
  | cut (line : Nat) (x : Line) (cause : TransportError) (hline : l.lines[line]? = some x) :
    Move handler l (.cutResponses line cause)
      ({ l with client := l.client.arrives line (.error cause) }.putLine line
        { x with responses := [] })
  | serve (event : Event) (line : Nat) (x x' : Line) (hline : l.lines[line]? = some x)
    (hx : x.Move handler x') :
    Move handler l event (l.putLine line x')

theorem clientStep?_move {l l' : Link} {event : Client.Event} (h : l.clientStep? event = some l')
    : Move handler l (.client event) l' := by
  unfold clientStep? at h
  split at h
  . cases h
  . cases h
  . obtain ⟨client, hclient, rfl⟩ := Option.map_eq_some_iff.1 h
    exact .connect client hclient
  . split at h
    . next line job hphase =>
      obtain ⟨client, hclient, rfl⟩ := Option.map_eq_some_iff.1 h
      exact .transmit line job client hphase hclient
    . cases h
  . next harrives hborrower hconnects htransmits =>
    obtain ⟨client, hclient, rfl⟩ := Option.map_eq_some_iff.1 h
    refine .inward event client ?_ hclient
    cases event with
    | arrives line arrival => exact harrives line arrival rfl
    | borrowerWrites ticket message => exact hborrower ticket message rfl
    | connects => exact hconnects rfl
    | transmits => exact htransmits rfl
    | _ => trivial

theorem borrowerStep?_move {l l' : Link} {ticket : Nat} {request : Request}
    (h : l.borrowerStep? ticket request = some l')
    : Move handler l (.borrowerNotifies ticket request) l' := by
  unfold borrowerStep? at h
  split at h
  . next loan hloan hnotification =>
    obtain ⟨client, hclient, rfl⟩ := Option.map_eq_some_iff.1 h
    exact .notify ticket request loan client hloan hnotification hclient
  . cases h

theorem step?_move {l l' : Link} {event : Event} (h : l.step? handler event = some l')
    : Move handler l event l' := by
  have hserve : ∀ line, (l.lines[line]?.bind (·.step? handler event)).map (l.putLine line) = some l' →
      Move handler l event l' := by
    intro line h
    obtain ⟨x', hbind, rfl⟩ := Option.map_eq_some_iff.1 h
    obtain ⟨x, hline, hx⟩ := Option.bind_eq_some_iff.1 hbind
    exact .serve event line x x' hline (Line.step?_move hx)
  cases event with
  | client event => exact clientStep?_move h
  | borrowerNotifies ticket request => exact borrowerStep?_move h
  | responseArrives line =>
    simp only [step?] at h
    split at h
    . next server requests message responses hline =>
      cases h
      exact .deliver line ⟨server, requests, message :: responses⟩ message responses hline rfl
    . cases h
  | cutResponses line cause =>
    obtain ⟨x, hline, rfl⟩ := Option.map_eq_some_iff.1 h
    exact .cut line x cause hline
  | requestArrives line | finish line task | respond line author succeeds | cutRequests line cause
  | close line => exact hserve line h

theorem holds_of_run? {P : List Event → Link → Prop} {config : ClientConfig}
    (hstart : P [] (start config))
    (hmove : ∀ events l event l', P events l → Move handler l event l' → P (events ++ [event]) l')
    {events : List Event} {l : Link} (h : run? handler (start config) events = some l)
    : P events l := by
  have := holds_of_foldlM (P := P) (fun past s event s' hs hstep =>
    hmove past s event s' hs (step?_move hstep)) hstart h
  rw [List.nil_append] at this
  exact this

end JsonRpc.Link
