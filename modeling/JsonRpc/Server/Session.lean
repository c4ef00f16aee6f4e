import JsonRpc.Server.Connection
import JsonRpc.Simulation
import JsonRpc.Transport.Stream

/-!
A connection with its peer, its handlers and a clock: which of the events that could happen do
happen, and when.
-/

namespace JsonRpc.Server

inductive Feed where
  | messages (arrived : List (Except TransportError Bytes))
  | frames (reader : FrameReader) (ended : Bool)

namespace Feed

def next? : Feed → Option (Except TransportError Bytes × Feed)
  | .messages [] => none
  | .messages (m :: rest) => some (m, .messages rest)
  | .frames reader ended =>
    (Stream.readArrived? reader ended).map fun (m, reader) => (m, .frames reader ended)

def push (f : Feed) (arrival : Except TransportError Bytes) : Feed :=
  match f, arrival with
  | .messages arrived, _ => .messages (arrived ++ [arrival])
  | .frames reader ended, .ok message =>
    .frames { reader with source := reader.source ++ [.data (Stream.frame message)] } ended
  | .frames reader ended, .error _ => .frames reader ended

def pushBytes (f : Feed) (bytes : Bytes) : Feed :=
  match f with
  | .messages arrived => .messages arrived
  | .frames reader ended => .frames { reader with source := reader.source ++ [.data bytes] } ended

def finish : Feed → Feed
  | .messages arrived => .messages arrived
  | .frames reader _ => .frames reader true

def size : Feed → Nat
  | .messages arrived => arrived.length
  | .frames reader _ => reader.source.left + 1

end Feed

structure Work where
  start : Nat
  handling : Handling

structure Session where
  connection : Connection := {}
  work : List Work := []
  feed : Feed := .messages []
  blocked : Bool := false
  failing : Option String := none

namespace Session

def follow (s : Session) (handler : Handler) (now : Nat) (connection : Connection) : Session :=
  { s with
    connection
    work := s.work ++ (connection.tasks.drop s.work.length).map fun t =>
      ⟨now, handler t.request⟩ }

def read? (s : Session) (handler : Handler) (now : Nat) : Option Session :=
  match s.connection.phase, s.feed.next? with
  | .reading, some (.ok message, feed) =>
    (s.connection.receive? message).map ({ s with feed }.follow handler now)
  | .reading, some (.error cause, feed) =>
    (s.connection.readFails? cause).map ({ s with feed }.follow handler now)
  | _, _ => none

def authors (s : Session) : List Author :=
  .loop :: (List.range s.connection.tasks.length).map .task

def write? (s : Session) : Option Session :=
  if s.blocked then none
  else s.authors.findSome? fun author =>
    (s.connection.write? author s.failing.isNone).map ({ s with connection := · })

def finish? (s : Session) (now : Nat) : Option Session :=
  ((s.connection.tasks.zip s.work).zipIdx).findSome? fun ((task, work), index) =>
    if work.handling.isOver (now - work.start) task.cancelled then
      (s.connection.finish? index (work.handling.outcome task.cancelled)).map
        ({ s with connection := · })
    else none

def step? (handler : Handler) (now : Nat) (s : Session) : Option Session :=
  s.read? handler now <|> s.write? <|> s.finish? now <|>
    s.connection.close?.map ({ s with connection := · })

def wake? (now : Nat) (s : Session) : Option Nat :=
  earliestAfter now ((s.connection.tasks.zip s.work).filterMap fun (task, work) =>
    match task.stage with
    | .running => work.handling.duration.map (work.start + ·)
    | _ => none)

/-- A message is read, handled and answered; a task is ended and answered; the end is a close. -/
def effort (s : Session) : Nat :=
  4 * s.feed.size + 2 * s.connection.tasks.length + 4

def machine (handler : Handler) : Machine Session where
  step? := step? handler
  wake? := wake?
  effort := effort

def ended? (s : Session) : Option (TransportError × Nat) :=
  match s.connection.phase with
  | .closed cause => some (cause, s.connection.closes)
  | _ => none

end Session

end JsonRpc.Server
