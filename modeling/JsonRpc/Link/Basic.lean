import JsonRpc.Client.Run
import JsonRpc.Server.Connection

/-!
A client and the servers of its connections, joined by channels that keep the order of messages and
may be cut at any moment. Every interleaving of what both sides and the channels do is a list of
events. A handler is a function of the request and of whether its token has fired.
-/

namespace JsonRpc

structure Link.Line where
  server : Server.Connection := {}
  requests : List Bytes := []
  responses : List Bytes := []
  deriving DecidableEq

structure Link where
  client : Client
  lines : List Link.Line := []

namespace Link

inductive Event where
  /-- Something happens to the client that no message takes part in, or it writes or connects. -/
  | client (event : Client.Event)
  | borrowerNotifies (ticket : Nat) (request : Request)
  | requestArrives (line : Nat)
  | finish (line task : Nat)
  | respond (line : Nat) (author : Server.Author) (succeeds : Bool)
  | responseArrives (line : Nat)
  /-- The server reads nothing more; what was on the way to it is lost. -/
  | cutRequests (line : Nat) (cause : TransportError)
  /-- The client reads nothing more; what was on the way to it is lost. -/
  | cutResponses (line : Nat) (cause : TransportError)
  | close (line : Nat)

def putLine (l : Link) (line : Nat) (value : Line) : Link :=
  { l with lines := l.lines.set line value }

def send (l : Link) (line : Nat) (message : Bytes) : Link :=
  { l with lines := l.lines.modify line fun x => { x with requests := x.requests ++ [message] } }

def clientStep? (l : Link) (event : Client.Event) : Option Link :=
  match event with
  | .arrives _ _ | .borrowerWrites _ _ => none
  | .connects => (l.client.step? .connects).map fun client =>
      { client, lines := l.lines ++ [({} : Line)] }
  | .transmits =>
    match l.client.phase with
    | .writing line job =>
      l.client.transmits?.map fun client => { l with client }.send line job.request.encode
    | _ => none
  | event => (l.client.step? event).map ({ l with client := · })

def borrowerStep? (l : Link) (ticket : Nat) (request : Request) : Option Link :=
  match l.client.loan? ticket, request.notification with
  | some loan, true =>
    (l.client.borrowerWrites? ticket request.encode).map fun client =>
      { l with client }.send loan.line request.encode
  | _, _ => none

def Line.step? (handler : Request → (cancelled : Bool) → Server.HandlerOutcome) (x : Line) :
    Event → Option Line
  | .requestArrives _ =>
    match x.requests with
    | [] => none
    | message :: requests => (x.server.receive? message).map ({ x with server := ·, requests })
  | .finish _ index =>
    match x.server.tasks[index]? with
    | none => none
    | some task =>
      (x.server.finish? index (handler task.request task.cancelled)).map ({ x with server := · })
  | .respond _ author succeeds =>
    match x.server.waiting? author, x.server.write? author succeeds with
    | some response, some server =>
      some { x with
        server
        responses := if succeeds then x.responses ++ [response.encode] else x.responses }
    | _, _ => none
  | .cutRequests _ cause =>
    (x.server.readFails? cause).map ({ x with server := ·, requests := [] })
  | .close _ => x.server.close?.map ({ x with server := · })
  | .client _ | .borrowerNotifies _ _ | .responseArrives _ | .cutResponses _ _ => none

def step? (handler : Request → (cancelled : Bool) → Server.HandlerOutcome) (l : Link)
    (event : Event) : Option Link :=
  match event with
  | .client event => l.clientStep? event
  | .borrowerNotifies ticket request => l.borrowerStep? ticket request
  | .responseArrives line =>
    match l.lines[line]? with
    | some { responses := message :: responses, server, requests } =>
      some ({ l with client := l.client.arrives line (.ok message) }.putLine line
        { server, requests, responses })
    | _ => none
  | .cutResponses line cause =>
    l.lines[line]?.map fun x =>
      { l with client := l.client.arrives line (.error cause) }.putLine line
        { x with responses := [] }
  | .requestArrives line | .finish line _ | .respond line _ _ | .cutRequests line _
  | .close line =>
    (l.lines[line]?.bind (·.step? handler event)).map (l.putLine line)

def run? (handler : Request → (cancelled : Bool) → Server.HandlerOutcome) (l : Link)
    (events : List Event) : Option Link :=
  events.foldlM (step? handler) l

def start (config : ClientConfig) : Link :=
  { client := .start config }

end Link

end JsonRpc
