import JsonRpc.Client.Scenario
import JsonRpc.Server.Session

/-!
A client and a server that are joined by one connection: what one side writes arrives at the other
in order. Callers take turns, each waits for the outcome of its call.
-/

namespace JsonRpc.Link

structure Scenario where
  handler : Server.Handler
  client : Client.Scenario
  session : Server.Session := {}
  now : Nat := 0
  requests : Nat := 0
  responses : Nat := 0

namespace Scenario

def carryRequests (s : Scenario) : Scenario :=
  let written := s.client.client.transmissions
  let feed := (written.drop s.requests).foldl (fun (f : Server.Feed) m => f.push (.ok m.2))
    s.session.feed
  { s with session := { s.session with feed }, requests := written.length }

def carryResponses (s : Scenario) : Scenario :=
  let written := s.session.connection.written
  let client := (written.drop s.responses).foldl
    (fun (c : Client.Scenario) r => c.arrive 0 (.ok r.encode)) s.client
  { s with client, responses := written.length }

def step? (now : Nat) (s : Scenario) : Option Scenario :=
  (s.client.step? now).map (fun client => { s with client }.carryRequests) <|>
    (s.session.step? s.handler now).map (fun session => { s with session }.carryResponses)

def wake? (now : Nat) (s : Scenario) : Option Nat :=
  earliestAfter now ((s.client.wake? now).toList ++ (s.session.wake? now).toList)

def effort (s : Scenario) : Nat :=
  8 * (s.client.effort + s.session.effort)

def machine : Machine Scenario where
  step? := step?
  wake? := wake?
  effort := effort

def start (config : ClientConfig) (handler : Server.Handler) : Scenario :=
  let client := (Client.Scenario.start config).offer .connection
  machine.settle 0 { handler, client }

def patience : Nat := 1 <<< 64

def turn : String := "turn"

def outcome? (s : Scenario) : Option (Except ClientError Client.Gain) :=
  match s.client.tasks.getLast? with
  | some { progress := .finished outcome, .. } => some outcome
  | _ => none

def await (s : Scenario) (act : Client.Scenario → Client.Scenario) : Scenario :=
  let s := machine.settle s.now { s with client := act { s.client with now := s.now } }
  let (now, s) := machine.advanceUntil (·.outcome?.isSome) s.now (s.now + patience) s
  { s with now }

def notifyBorrowed (s : Scenario) (request : Request) : Except ClientError Unit × Scenario :=
  let s := s.await (·.borrow turn)
  match s.outcome? with
  | some (.error e) => (.error e, s)
  | _ =>
    let (result, client) := s.client.borrowerNotifies turn request
    let s := { s with client := client.release turn }.carryRequests
    (result, machine.settle s.now s)

end Scenario

end JsonRpc.Link
