import JsonRpc.Server.Session

/-!
A server and the peers of its connections, step by step.
-/

namespace JsonRpc.Server

inductive Stimulus where
  | sends (message : Bytes)
  | sendsBytes (bytes : Bytes)
  | endsStream
  | failsReading (cause : TransportError)
  | failsWrites (reason : Option String)
  | blocksWrites (on : Bool)

def Session.disturb (s : Session) : Stimulus → Session
  | .sends message => { s with feed := s.feed.push (.ok message) }
  | .sendsBytes bytes => { s with feed := s.feed.pushBytes bytes }
  | .endsStream => { s with feed := s.feed.finish }
  | .failsReading cause => { s with feed := s.feed.push (.error cause) }
  | .failsWrites failing => { s with failing }
  | .blocksWrites blocked => { s with blocked }

structure Scenario where
  handler : Handler
  now : Nat := 0
  sessions : List (String × Session) := []

namespace Scenario

def session? (s : Scenario) (name : String) : Option Session :=
  Keyed.find? name s.sessions

def put (s : Scenario) (name : String) (session : Session) : Scenario :=
  let session := (Session.machine s.handler).settle s.now session
  { s with sessions := Keyed.insert name session s.sessions }

def opened (s : Scenario) (name : String) (feed : Feed) : Scenario :=
  s.put name { feed }

def disturb (s : Scenario) (name : String) (stimulus : Stimulus) : Scenario :=
  match s.session? name with
  | some session => s.put name (session.disturb stimulus)
  | none => s

def wait (s : Scenario) (millis : Nat) : Scenario :=
  let target := s.now + millis
  { s with
    now := target
    sessions := s.sessions.map fun (name, session) =>
      (name, (Session.machine s.handler).advance s.now target session) }

def serving (s : Scenario) : List String :=
  (s.sessions.filter fun (_, session) => session.ended?.isNone).map (·.1)

end Scenario

end JsonRpc.Server
