import JsonRpc.Server.Handler
import JsonRpc.Transport.Fault

/-!
One connection of a server. The read loop takes messages in one after another; each request that
is no cancellation becomes a task of its own, and tasks end in any order. Writing is exclusive but
in no fixed order: whoever has a response to write may be next. Every interleaving is a list of
events.
-/

namespace JsonRpc.Server

inductive Stage where
  | running
  | answering (response : Response)
  | done
  deriving DecidableEq

def Stage.afterHandler (request : Request) (outcome : HandlerOutcome) : Stage :=
  if request.notification then .done else .answering (outcome.response request.id)

structure Task where
  request : Request
  /-- The sequence number of the slot that the request was given. -/
  slot : Option Nat
  cancelled : Bool := false
  stage : Stage := .running
  deriving DecidableEq

structure Slot where
  id : Id
  /-- Tells requests apart that use the same identifier one after another. -/
  seq : Nat
  deriving DecidableEq

inductive Phase where
  | reading
  | answering (response : Response)
  | draining (cause : TransportError)
  | closed (cause : TransportError)
  deriving DecidableEq

structure Connection where
  phase : Phase := .reading
  tasks : List Task := []
  pending : List Slot := []
  nextSeq : Nat := 0
  written : List Response := []
  closes : Nat := 0
  deriving DecidableEq

inductive Author where
  | loop
  | task (index : Nat)
  deriving DecidableEq

def cancelTarget (request : Request) : Except RpcError Id :=
  match request.params.bind (Json.member? "id") with
  | none => .error (.invalidParams "$/cancelRequest requires params.id")
  | some id => (Id.ofJson id).mapError fun e => .invalidParams e.message

namespace Connection

def slot? (c : Connection) (id : Id) : Option Slot :=
  c.pending.find? (·.id = id)

def respond (c : Connection) (response : Response) : Connection :=
  { c with phase := .answering response }

def fire (c : Connection) (seq : Nat) : Connection :=
  { c with tasks := c.tasks.map fun t =>
      if t.slot = some seq then { t with cancelled := true } else t }

def cancelId (c : Connection) (id : Id) : Connection :=
  match c.slot? id with
  | none => c
  | some slot => { c with pending := c.pending.filter (·.id ≠ id) }.fire slot.seq

def cancel (c : Connection) (request : Request) : Connection :=
  match cancelTarget request with
  | .ok target =>
    let c := c.cancelId target
    if request.notification then c
    else c.respond { id := request.id, outcome := .result .null }
  | .error e =>
    if request.notification then c
    else c.respond { id := request.id, outcome := .error e.toErrorObject }

/--
Starts the work on a request. A call whose identifier holds no slot is given one; of two calls
with one identifier the first keeps it.
-/
def dispatch (c : Connection) (request : Request) : Connection :=
  if request.notification || (c.slot? request.id).isSome then
    { c with tasks := c.tasks ++ [{ request, slot := none }] }
  else
    { c with
      tasks := c.tasks ++ [{ request, slot := some c.nextSeq }]
      pending := c.pending ++ [⟨request.id, c.nextSeq⟩]
      nextSeq := c.nextSeq + 1 }

def accept (c : Connection) (message : Bytes) : Connection :=
  match Request.decode message with
  | .error e => c.respond { id := .null, outcome := .error e.toErrorObject }
  | .ok request =>
    if request.method = cancelMethod then c.cancel request else c.dispatch request

def receive? (c : Connection) (message : Bytes) : Option Connection :=
  match c.phase with
  | .reading => some (c.accept message)
  | _ => none

def readFails? (c : Connection) (cause : TransportError) : Option Connection :=
  match c.phase with
  | .reading => some { c with phase := .draining cause }
  | _ => none

def finish? (c : Connection) (index : Nat) (outcome : HandlerOutcome) : Option Connection :=
  match c.tasks[index]? with
  | some task =>
    match task.stage with
    | .running => some { c with
        tasks := c.tasks.set index { task with stage := Stage.afterHandler task.request outcome }
        pending := c.pending.filter fun s => !(s.id = task.request.id && some s.seq = task.slot) }
    | _ => none
  | none => none

def waiting? (c : Connection) : Author → Option Response
  | .loop =>
    match c.phase with
    | .answering response => some response
    | _ => none
  | .task index =>
    match c.tasks[index]? with
    | some { stage := .answering response, .. } => some response
    | _ => none

def resume (c : Connection) : Author → Connection
  | .loop => { c with phase := .reading }
  | .task index => { c with tasks := c.tasks.modify index fun t => { t with stage := .done } }

def write? (c : Connection) (author : Author) (succeeds : Bool) : Option Connection :=
  (c.waiting? author).map fun response =>
    let c := c.resume author
    if succeeds then { c with written := c.written ++ [response] } else c

def close? (c : Connection) : Option Connection :=
  match c.phase with
  | .draining cause =>
    if c.tasks.all (·.stage = .done) then
      some { c with phase := .closed cause, closes := c.closes + 1 }
    else none
  | _ => none

inductive Event where
  | receive (message : Bytes)
  | readFails (cause : TransportError)
  | finish (index : Nat) (outcome : HandlerOutcome)
  | write (author : Author) (succeeds : Bool)
  | close

def step? (c : Connection) : Event → Option Connection
  | .receive message => c.receive? message
  | .readFails cause => c.readFails? cause
  | .finish index outcome => c.finish? index outcome
  | .write author succeeds => c.write? author succeeds
  | .close => c.close?

def run? (c : Connection) (events : List Event) : Option Connection :=
  events.foldlM step? c

end Connection

end JsonRpc.Server
